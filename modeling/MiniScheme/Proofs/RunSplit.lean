import MiniScheme.Proofs.RunAgreement
import MiniScheme.Proofs.LetScope
/-!
# A program split between two of its forms

Reading never looks past the datum it reads. An atom, an operator and a dot end where a delimiter
follows, every other datum ends at a character it consumes, and the text after the datum is left as
it was. So a datum read from a text is read the same from the text followed by any text that starts
with a delimiter, and that text is left after it (`Read.Extends`, proved for every reading function
at once by `Read.extendsAll`). A comment that runs to the end of a text ends, in a longer text, at
the next line feed.

Main statement: `run_split`. When the text `s₁` reads without error, running `s₁ ++ "\n" ++ s₂` is
running `s₁` and then, unless that failed, running `s₂` in the machine it left; the result is that
of `s₂`, or that of `s₁` when `s₂` holds no form. The condition is needed: in `(+ 1 2` a list is
still open, and a next line `3)` closes it.
-/

namespace MiniScheme

namespace Read

/-- A step of `F` that reads `a` from `cs` and leaves `r` reads `a` from `cs` followed by any text
`t` that starts with a delimiter, and leaves `r ++ t`. -/
def Extends {α : Type} (F : (s : List Char) → Step s α) (cs : List Char) : Prop :=
  ∀ t : List Char, atDelimiter t = true → ∀ a r, (F cs).Reads a r → (F (cs ++ t)).Reads a (r ++ t)

/-! ### Blanks, comments and atoms -/

/-- Skipping blanks and comments stops at the same character in a longer text. -/
theorem skipBlank_append_of_cons (t : List Char) (cs : List Char) :
    (∀ {c r}, skipBlank cs = c :: r → skipBlank (cs ++ t) = c :: (r ++ t)) ∧
      (∀ {c r}, skipComment cs = c :: r → skipComment (cs ++ t) = c :: (r ++ t)) := by
  induction cs with
  | nil => exact ⟨fun h => by simp [skipBlank] at h, fun h => by simp [skipComment] at h⟩
  | cons d cs ih =>
    refine ⟨fun h => ?_, fun h => ?_⟩
    · by_cases hb : isBlank d = true
      · simp only [skipBlank, hb, if_true, List.cons_append] at h ⊢
        exact ih.1 h
      · by_cases hs : d = ';'
        · subst hs
          simp only [skipBlank, hb, List.cons_append] at h ⊢
          exact ih.2 h
        · rw [skipBlank_of_not_blank _ (by simpa using hb) hs] at h
          rw [List.cons_append, skipBlank_of_not_blank _ (by simpa using hb) hs]
          obtain ⟨rfl, rfl⟩ := List.cons.inj h
          rfl
    · by_cases hn : d = '\n'
      · simp only [skipComment, hn, if_true, List.cons_append] at h ⊢
        exact ih.1 h
      · simp only [skipComment, hn, if_false, List.cons_append] at h ⊢
        exact ih.2 h

theorem skipBlank_append {cs r : List Char} {c : Char} (t : List Char) (h : skipBlank cs = c :: r) :
    skipBlank (cs ++ t) = c :: (r ++ t) :=
  (skipBlank_append_of_cons t cs).1 h

/-- A text of blanks and comments, then a line feed: a comment left open ends at the line feed. -/
theorem skipBlank_append_newline (t : List Char) (cs : List Char) :
    (skipBlank cs = [] → skipBlank (cs ++ '\n' :: t) = skipBlank t) ∧
      (skipComment cs = [] → skipComment (cs ++ '\n' :: t) = skipBlank t) := by
  induction cs with
  | nil => exact ⟨fun _ => by simp [skipBlank, isBlank], fun _ => by simp [skipComment]⟩
  | cons d cs ih =>
    refine ⟨fun h => ?_, fun h => ?_⟩
    · by_cases hb : isBlank d = true
      · simp only [skipBlank, hb, if_true, List.cons_append] at h ⊢
        exact ih.1 h
      · by_cases hs : d = ';'
        · subst hs
          simp only [skipBlank, hb, List.cons_append] at h ⊢
          exact ih.2 h
        · rw [skipBlank_of_not_blank _ (by simpa using hb) hs] at h
          cases h
    · by_cases hn : d = '\n'
      · simp only [skipComment, hn, if_true, List.cons_append] at h ⊢
        exact ih.1 h
      · simp only [skipComment, hn, if_false, List.cons_append] at h ⊢
        exact ih.2 h

theorem atDelimiter_append {r t : List Char} (ht : atDelimiter t = true) :
    atDelimiter (r ++ t) = atDelimiter r := by
  cases r with
  | nil => rw [List.nil_append, ht]; rfl
  | cons c r => rfl

/-- The text of an atom, and the text after it, in a longer text that starts with a delimiter. -/
theorem atomText_append_delimited (tok : List Char) {t : List Char} (ht : atDelimiter t = true)
    (cs : List Char) : atomText tok (cs ++ t) = ((atomText tok cs).1, (atomText tok cs).2 ++ t) := by
  induction cs with
  | nil =>
    cases t with
    | nil => rfl
    | cons d t =>
      have hd : isDelimiter d = true := ht
      simp [atomText, hd]
  | cons d cs ih =>
    simp only [atomText, Prod.mk.injEq] at ih
    have htake := List.append_cancel_left ih.1
    by_cases hd : isDelimiter d = true
    · simp [atomText, hd]
    · simp [atomText, hd, htake, ih.2]

theorem atom_extends (tok cs : List Char) : Extends (atom tok) cs := by
  intro t ht a r h
  obtain ⟨rfl, rfl⟩ := Step.Reads.of_ok h
  simp only [atom, atomText_append_delimited tok ht cs]
  exact ⟨rfl, rfl⟩

/-- A string reads the same before more text: its closing quote is inside `cs`. -/
theorem string_extends (cs : List Char) : Extends string cs := by
  intro t ht a r h
  rw [string] at h
  split at h
  · exact (Step.not_reads_fail h).elim
  · next q r₀ hq =>
    obtain ⟨rfl, rfl⟩ := Step.Reads.of_ok h
    have hlen : (cs.takeWhile (· ≠ '\"')).length ≠ cs.length := by
      have := congrArg List.length (List.takeWhile_append_dropWhile (p := (· ≠ '\"')) (l := cs))
      rw [List.length_append, hq, List.length_cons] at this
      omega
    have hdrop : (cs ++ t).dropWhile (· ≠ '\"') = q :: (r₀ ++ t) := by
      rw [List.dropWhile_append, hq]
      rfl
    have htake : (cs ++ t).takeWhile (· ≠ '\"') = cs.takeWhile (· ≠ '\"') := by
      rw [List.takeWhile_append, if_neg hlen]
    rw [string]
    split
    · next h' => rw [hdrop] at h'; cases h'
    · next q' r' h' =>
      rw [hdrop] at h'
      obtain ⟨rfl, rfl⟩ := List.cons.inj h'
      rw [htake]
      exact ⟨rfl, rfl⟩

theorem operatorEnd_extends (tok cs : List Char) : Extends (operatorEnd tok) cs := by
  intro t ht a r h
  unfold operatorEnd at h ⊢
  rw [atDelimiter_append ht]
  split at h
  · next hat =>
    rw [if_pos hat]
    obtain ⟨rfl, rfl⟩ := Step.Reads.of_ok h
    exact ⟨rfl, rfl⟩
  · next hat =>
    rw [if_neg hat]
    exact atom_extends tok cs t ht a r h

/-- An operator reads the same before more text: `cs ++ t` starts with `=` only when `cs` does,
since `t` starts with a delimiter. -/
theorem operator_extends (c : Char) (cs : List Char) : Extends (operator c) cs := by
  intro t ht a r h
  by_cases hlt : c = '<' ∧ ∃ r, cs = '=' :: r
  · obtain ⟨rfl, r₀, rfl⟩ := hlt
    rw [operator.eq_1] at h
    rw [List.cons_append, operator.eq_1]
    exact operatorEnd_extends _ r₀ t ht a r h
  · by_cases hgt : c = '>' ∧ ∃ r, cs = '=' :: r
    · obtain ⟨rfl, r₀, rfl⟩ := hgt
      rw [operator.eq_2] at h
      rw [List.cons_append, operator.eq_2]
      exact operatorEnd_extends _ r₀ t ht a r h
    · rw [operator.eq_3 c cs (fun r h₁ h₂ => hlt ⟨h₁, r, h₂⟩) (fun r h₁ h₂ => hgt ⟨h₁, r, h₂⟩)] at h
      have hpre : ∀ r', cs ++ t = '=' :: r' → ∃ r, cs = '=' :: r := by
        intro r' he
        cases cs with
        | nil =>
          rw [List.nil_append] at he
          subst he
          simp [atDelimiter, isDelimiter, isBlank] at ht
        | cons d cs' =>
          obtain ⟨rfl, -⟩ := List.cons.inj he
          exact ⟨cs', rfl⟩
      rw [operator.eq_3 c (cs ++ t) (fun r' h₁ h₂ => hlt ⟨h₁, hpre r' h₂⟩)
        (fun r' h₁ h₂ => hgt ⟨h₁, hpre r' h₂⟩)]
      exact operatorEnd_extends [c] cs t ht a r h

theorem expectClose_extends {form reason : String} {cs : List Char} :
    Extends (expectClose form reason) cs := by
  intro t _ a r h
  rw [expectClose] at h
  split at h
  · exact (Step.not_reads_fail h).elim
  · next c r₀ hs =>
    split at h
    · next hc =>
      subst hc
      obtain ⟨-, rfl⟩ := Step.Reads.of_ok h
      exact expectClose_close (skipBlank_append t hs)
    · exact (Step.not_reads_fail h).elim

/-! ### One step of the reading functions

The steps the lemmas of `ReadStep` leave out: a `define` of a procedure, a quotation and a binding of
a `let`. -/

theorem list_define {cs r r₁ r₂ : List Char} {c : Char} {x : Value} (h : skipBlank cs = c :: r)
    (hc : c ≠ ')') (hd : (datum c r).Reads x r₁) (hdef : x.symbol? = some "DEFINE")
    (h₂ : skipBlank r₁ = '(' :: r₂) {w : Value} {r' : List Char} :
    (list cs).Reads w r' ↔ (defineProc r₂).Reads w r' := by
  have hlam : x.symbol? ≠ some "LAMBDA" := by rw [hdef]; decide
  have hlet : x.symbol? ≠ some "LET" := by rw [hdef]; decide
  rw [list]
  split
  · next h' => rw [h] at h'; cases h'
  · next c' r₀ h' =>
    rw [h] at h'
    cases h'
    rw [if_neg hc, hd.eq]
    simp only [if_neg hlam, if_neg hlet, if_pos hdef]
    split
    · next r₃ h₃ =>
      rw [h₂] at h₃
      cases h₃
      exact Iff.rfl
    · next hn => exact absurd h₂ (hn r₂)

theorem quote_reads {keyword : String} {cs r r₁ : List Char} {c : Char} {v : Value}
    (h : skipBlank cs = c :: r) (hd : (datum c r).Reads v r₁) :
    (quote keyword cs).Reads (Value.ofList 0 [.sym keyword, v]) r₁ := by
  rw [quote]
  split
  · next h' => rw [h] at h'; cases h'
  · next c' r₀ h' =>
    rw [h] at h'
    cases h'
    rw [hd.eq]
    simp

theorem defineProc_reads {cs r r₁ r₂ r₃ : List Char} {c : Char} {name : String}
    {ps : List String} {b : Value} (h : skipBlank cs = c :: r) (hc : c ≠ ')')
    (hd : (datum c r).Reads (.sym name) r₁) (hp : (params "define" [] r₁).Reads ps r₂)
    (hb : (body "define" r₂).Reads b r₃) :
    (defineProc cs).Reads (Value.ofList 0 [.sym "DEFINE", .sym name, .closure 0 ps b none]) r₃ := by
  rw [defineProc]
  split
  · next h' => rw [h] at h'; cases h'
  · next c' r₀ h' =>
    rw [h] at h'
    cases h'
    rw [if_neg hc, hd.eq]
    simp only
    rw [hp.eq]
    simp only
    rw [hb.eq]
    simp

theorem bindings_item {names : List String} {inits : List Value} {cs r r₁ : List Char} {c : Char}
    {b e : Value} {n : String} (h : skipBlank cs = c :: r) (hc : c ≠ ')')
    (hd : (datum c r).Reads b r₁) (hl : b.listItems? = some [.sym n, e]) {w : List String × List Value}
    {r' : List Char} :
    (bindings names inits cs).Reads w r' ↔ (bindings (n :: names) (e :: inits) r₁).Reads w r' := by
  rw [bindings]
  split
  · next h' => rw [h] at h'; cases h'
  · next c' r₀ h' =>
    rw [h] at h'
    cases h'
    rw [if_neg hc, hd.eq]
    simp only [hl]
    exact Iff.rfl

theorem listTail_of_skipBlank_nil {items : List Value} {cs r : List Char} {w : Value}
    (h : skipBlank cs = []) : ¬ (listTail items cs).Reads w r := by
  rw [listTail]
  split
  · exact Step.not_reads_fail
  · next c r₀ h' => rw [h] at h'; cases h'

/-! ### Every reading function -/

/-- Every reading function, started on the text `cs`, reads the same from `cs` followed by a text
that starts with a delimiter. -/
structure ExtendsAll (cs : List Char) : Prop where
  datum : ∀ c, Extends (datum c) cs
  list : Extends list cs
  listTail : ∀ items, Extends (listTail items) cs
  hash : Extends hash cs
  vector : ∀ items, Extends (vector items) cs
  quote : ∀ keyword, Extends (quote keyword) cs
  lambda : Extends lambda cs
  params : ∀ form acc, Extends (params form acc) cs
  body : ∀ form, Extends (body form) cs
  defineProc : Extends defineProc cs
  letForm : Extends letForm cs
  bindings : ∀ names inits, Extends (bindings names inits) cs

section Functions
variable {cs : List Char} (ih : ∀ r : List Char, r.length < cs.length → ExtendsAll r)
include ih

/-- A list reads the same before more text; after a `DEFINE` head there is no `(`, and the elements
that follow are not at the end of the text. -/
theorem list_extends : Extends list cs := by
  intro t ht a rest h
  rw [list] at h
  split at h
  · exact (Step.not_reads_fail h).elim
  · next c r hs =>
    have hr := length_lt_of_skipBlank_eq_cons hs
    have hs' := skipBlank_append t hs
    split at h
    · next hc =>
      subst hc
      obtain ⟨rfl, rfl⟩ := Step.Reads.of_ok h
      exact list_nil hs'
    · next hc =>
      split at h
      · exact (Step.not_reads_fail h).elim
      · next head r₁ h₁ hd =>
        have hhead : (datum c (r ++ t)).Reads head (r₁ ++ t) :=
          (ih r hr).datum c t ht head r₁ (Step.Reads.of_eq hd)
        have ih₁ := ih r₁ (by omega)
        split at h
        · next hlam => exact (list_lambda hs' hc hhead hlam).mpr (ih₁.lambda t ht a rest h)
        · next hlam =>
          split at h
          · next hlet => exact (list_let hs' hc hhead hlet).mpr (ih₁.letForm t ht a rest h)
          · next hlet =>
            split at h
            · next hdef =>
              split at h
              · next r₂ h₂ =>
                have := length_lt_of_skipBlank_eq_cons h₂
                exact (list_define hs' hc hhead hdef (skipBlank_append t h₂)).mpr
                  ((ih r₂ (by omega)).defineProc t ht a rest h)
              · next hn =>
                have hne : ∀ r₂, skipBlank (r₁ ++ t) ≠ '(' :: r₂ := by
                  intro r₂ he
                  cases h₃ : skipBlank r₁ with
                  | nil => exact listTail_of_skipBlank_nil h₃ h
                  | cons c₃ r₃ =>
                    rw [skipBlank_append t h₃] at he
                    obtain ⟨rfl, -⟩ := List.cons.inj he
                    exact hn r₃ h₃
                exact (list_head hs' hc hhead hlam hlet fun _ => hne).mpr
                  (ih₁.listTail [head] t ht a rest h)
            · next hdef =>
              exact (list_head hs' hc hhead hlam hlet fun h' => absurd h' hdef).mpr
                (ih₁.listTail [head] t ht a rest h)

/-- The rest of a list reads the same before more text, at a dotted end (the last datum and the
closing parenthesis) and at a dot that starts an atom alike. -/
theorem listTail_extends (items : List Value) : Extends (listTail items) cs := by
  intro t ht a rest h
  rw [listTail] at h
  split at h
  · exact (Step.not_reads_fail h).elim
  · next c r hs =>
    have hr := length_lt_of_skipBlank_eq_cons hs
    have hs' := skipBlank_append t hs
    split at h
    · next hc =>
      subst hc
      obtain ⟨rfl, rfl⟩ := Step.Reads.of_ok h
      exact listTail_close hs'
    · next hc =>
      split at h
      · next hdot =>
        subst hdot
        split at h
        · next hat =>
          split at h
          · exact (Step.not_reads_fail h).elim
          · next c₂ r₂ hs₂ =>
            have hr₂ := length_lt_of_skipBlank_eq_cons hs₂
            split at h
            · exact (Step.not_reads_fail h).elim
            · next last r₃ h₃ hd =>
              split at h
              · exact (Step.not_reads_fail h).elim
              · next r₄ h₄ hcl =>
                obtain ⟨rfl, rfl⟩ := Step.Reads.of_ok h
                exact listTail_dotted hs' (by rw [atDelimiter_append ht]; exact hat)
                  (skipBlank_append t hs₂)
                  ((ih r₂ (by omega)).datum c₂ t ht last r₃ (Step.Reads.of_eq hd))
                  (expectClose_extends t ht () r₄ (Step.Reads.of_eq hcl))
        · next hat =>
          have hat' : atDelimiter (r ++ t) = false := by
            rw [atDelimiter_append ht]
            simpa using hat
          have := length_atomText_le ['.'] r
          rw [listTail_dotAtom hs' hat', atomText_append_delimited ['.'] ht r]
          exact (ih _ (by omega)).listTail _ t ht a rest h
      · next hdot =>
        split at h
        · exact (Step.not_reads_fail h).elim
        · next v r₁ h₁ hd =>
          have hv : (datum c (r ++ t)).Reads v (r₁ ++ t) :=
            (ih r hr).datum c t ht v r₁ (Step.Reads.of_eq hd)
          exact (listTail_item hs' hc hdot hv).mpr ((ih r₁ (by omega)).listTail _ t ht a rest h)

theorem vector_extends (items : List Value) : Extends (vector items) cs := by
  intro t ht a rest h
  rw [vector] at h
  split at h
  · exact (Step.not_reads_fail h).elim
  · next c r hs =>
    have hr := length_lt_of_skipBlank_eq_cons hs
    have hs' := skipBlank_append t hs
    split at h
    · next hc =>
      subst hc
      obtain ⟨rfl, rfl⟩ := Step.Reads.of_ok h
      exact vector_close hs'
    · next hc =>
      split at h
      · exact (Step.not_reads_fail h).elim
      · next v r₁ h₁ hd =>
        have hv : (datum c (r ++ t)).Reads v (r₁ ++ t) :=
          (ih r hr).datum c t ht v r₁ (Step.Reads.of_eq hd)
        exact (vector_item hs' hc hv).mpr ((ih r₁ (by omega)).vector _ t ht a rest h)

/-- A `#` form reads the same before more text: after `#` and one character, the character decides
the same way. -/
theorem hash_extends : Extends hash cs := by
  intro t ht a rest h
  match cs, ih with
  | [], _ =>
    rw [hash.eq_1] at h
    exact (Step.not_reads_fail h).elim
  | [c], ih =>
    cases t with
    | nil =>
      rw [List.append_nil, List.append_nil]
      exact h
    | cons d t =>
      rw [hash.eq_2] at h
      rw [List.singleton_append, hash.eq_3]
      by_cases h₁ : c = 't' ∨ c = 'T'
      · rw [if_pos h₁] at h ⊢
        obtain ⟨rfl, rfl⟩ := Step.Reads.of_ok h
        exact ⟨rfl, rfl⟩
      rw [if_neg h₁] at h ⊢
      by_cases h₂ : c = 'f' ∨ c = 'F'
      · rw [if_pos h₂] at h ⊢
        obtain ⟨rfl, rfl⟩ := Step.Reads.of_ok h
        exact ⟨rfl, rfl⟩
      rw [if_neg h₂] at h ⊢
      by_cases h₃ : c = '\\'
      · rw [if_pos h₃] at h
        exact (Step.not_reads_fail h).elim
      rw [if_neg h₃] at h ⊢
      by_cases h₄ : c = '('
      · rw [if_pos h₄] at h ⊢
        exact (ih [] (by simp)).vector [] (d :: t) ht a rest h
      rw [if_neg h₄] at h
      exact (Step.not_reads_fail h).elim
  | c :: d :: r, ih =>
    rw [hash.eq_3] at h
    rw [List.cons_append, List.cons_append, hash.eq_3]
    by_cases h₁ : c = 't' ∨ c = 'T'
    · rw [if_pos h₁] at h ⊢
      obtain ⟨rfl, rfl⟩ := Step.Reads.of_ok h
      exact ⟨rfl, rfl⟩
    rw [if_neg h₁] at h ⊢
    by_cases h₂ : c = 'f' ∨ c = 'F'
    · rw [if_pos h₂] at h ⊢
      obtain ⟨rfl, rfl⟩ := Step.Reads.of_ok h
      exact ⟨rfl, rfl⟩
    rw [if_neg h₂] at h ⊢
    by_cases h₃ : c = '\\'
    · rw [if_pos h₃] at h ⊢
      obtain ⟨rfl, rfl⟩ := Step.Reads.of_ok h
      exact ⟨rfl, rfl⟩
    rw [if_neg h₃] at h ⊢
    by_cases h₄ : c = '('
    · rw [if_pos h₄] at h ⊢
      exact (ih (d :: r) (by simp)).vector [] t ht a rest h
    rw [if_neg h₄] at h
    exact (Step.not_reads_fail h).elim

theorem quote_extends (keyword : String) : Extends (quote keyword) cs := by
  intro t ht a rest h
  rw [quote] at h
  split at h
  · exact (Step.not_reads_fail h).elim
  · next c r hs =>
    have hr := length_lt_of_skipBlank_eq_cons hs
    split at h
    · exact (Step.not_reads_fail h).elim
    · next v r₁ h₁ hd =>
      obtain ⟨rfl, rfl⟩ := Step.Reads.of_ok h
      exact quote_reads (skipBlank_append t hs) ((ih r hr).datum c t ht v r₁ (Step.Reads.of_eq hd))

theorem params_extends (form : String) (acc : List String) : Extends (params form acc) cs := by
  intro t ht a rest h
  rw [params] at h
  split at h
  · exact (Step.not_reads_fail h).elim
  · next c r hs =>
    have hr := length_lt_of_skipBlank_eq_cons hs
    have hs' := skipBlank_append t hs
    split at h
    · next hc =>
      subst hc
      obtain ⟨rfl, rfl⟩ := Step.Reads.of_ok h
      exact params_close hs'
    · next hc =>
      split at h
      · exact (Step.not_reads_fail h).elim
      · next v r₁ h₁ hd =>
        split at h
        · next p =>
          have hv : (datum c (r ++ t)).Reads (.sym p) (r₁ ++ t) :=
            (ih r hr).datum c t ht _ r₁ (Step.Reads.of_eq hd)
          exact (params_sym hs' hc hv).mpr ((ih r₁ (by omega)).params form _ t ht a rest h)
        · exact (Step.not_reads_fail h).elim

theorem body_extends (form : String) : Extends (body form) cs := by
  intro t ht a rest h
  rw [body] at h
  split at h
  · exact (Step.not_reads_fail h).elim
  · next c r hs =>
    have hr := length_lt_of_skipBlank_eq_cons hs
    split at h
    · exact (Step.not_reads_fail h).elim
    · next hc =>
      split at h
      · exact (Step.not_reads_fail h).elim
      · next b r₁ h₁ hd =>
        split at h
        · exact (Step.not_reads_fail h).elim
        · next r₂ h₂ hcl =>
          obtain ⟨rfl, rfl⟩ := Step.Reads.of_ok h
          exact body_reads (skipBlank_append t hs) hc
            ((ih r hr).datum c t ht b r₁ (Step.Reads.of_eq hd))
            (expectClose_extends t ht () r₂ (Step.Reads.of_eq hcl))

theorem lambda_extends : Extends lambda cs := by
  intro t ht a rest h
  rw [lambda] at h
  split at h
  · exact (Step.not_reads_fail h).elim
  · next c r hs =>
    have hr := length_lt_of_skipBlank_eq_cons hs
    split at h
    · next hc =>
      subst hc
      split at h
      · exact (Step.not_reads_fail h).elim
      · next ps r₁ h₁ hp =>
        split at h
        · exact (Step.not_reads_fail h).elim
        · next b r₂ h₂ hb =>
          obtain ⟨rfl, rfl⟩ := Step.Reads.of_ok h
          exact lambda_reads (skipBlank_append t hs)
            ((ih r hr).params "lambda" [] t ht ps r₁ (Step.Reads.of_eq hp))
            ((ih r₁ (by omega)).body "lambda" t ht b r₂ (Step.Reads.of_eq hb))
    · exact (Step.not_reads_fail h).elim

theorem defineProc_extends : Extends defineProc cs := by
  intro t ht a rest h
  rw [defineProc] at h
  split at h
  · exact (Step.not_reads_fail h).elim
  · next c r hs =>
    have hr := length_lt_of_skipBlank_eq_cons hs
    split at h
    · exact (Step.not_reads_fail h).elim
    · next hc =>
      split at h
      · exact (Step.not_reads_fail h).elim
      · next name r₁ h₁ hd =>
        split at h
        · exact (Step.not_reads_fail h).elim
        · next ps r₂ h₂ hp =>
          split at h
          · exact (Step.not_reads_fail h).elim
          · next b r₃ h₃ hb =>
            obtain ⟨rfl, rfl⟩ := Step.Reads.of_ok h
            exact defineProc_reads (skipBlank_append t hs) hc
              ((ih r hr).datum c t ht _ r₁ (Step.Reads.of_eq hd))
              ((ih r₁ (by omega)).params "define" [] t ht ps r₂ (Step.Reads.of_eq hp))
              ((ih r₂ (by omega)).body "define" t ht b r₃ (Step.Reads.of_eq hb))
      · exact (Step.not_reads_fail h).elim

theorem bindings_extends (names : List String) (inits : List Value) :
    Extends (bindings names inits) cs := by
  intro t ht a rest h
  rw [bindings] at h
  split at h
  · exact (Step.not_reads_fail h).elim
  · next c r hs =>
    have hr := length_lt_of_skipBlank_eq_cons hs
    have hs' := skipBlank_append t hs
    split at h
    · next hc =>
      subst hc
      obtain ⟨rfl, rfl⟩ := Step.Reads.of_ok h
      exact bindings_close hs'
    · next hc =>
      split at h
      · exact (Step.not_reads_fail h).elim
      · next b r₁ h₁ hd =>
        split at h
        · next n e hl =>
          have hb : (datum c (r ++ t)).Reads b (r₁ ++ t) :=
            (ih r hr).datum c t ht b r₁ (Step.Reads.of_eq hd)
          exact (bindings_item hs' hc hb hl).mpr ((ih r₁ (by omega)).bindings _ _ t ht a rest h)
        · exact (Step.not_reads_fail h).elim

theorem letForm_extends : Extends letForm cs := by
  intro t ht a rest h
  rw [letForm] at h
  split at h
  · exact (Step.not_reads_fail h).elim
  · next c r hs =>
    have hr := length_lt_of_skipBlank_eq_cons hs
    split at h
    · next hc =>
      subst hc
      split at h
      · exact (Step.not_reads_fail h).elim
      · next names inits r₁ h₁ hbs =>
        split at h
        · exact (Step.not_reads_fail h).elim
        · next b r₂ h₂ hb =>
          obtain ⟨rfl, rfl⟩ := Step.Reads.of_ok h
          exact letForm_reads (skipBlank_append t hs)
            ((ih r hr).bindings [] [] t ht _ r₁ (Step.Reads.of_eq hbs))
            ((ih r₁ (by omega)).body "let" t ht b r₂ (Step.Reads.of_eq hb))
    · exact (Step.not_reads_fail h).elim

end Functions

/-- A datum reads the same before more text: its first character decides, the same way in both
texts. -/
theorem datum_extends {cs : List Char} (hlist : Extends list cs) (hhash : Extends hash cs)
    (hquote : ∀ keyword, Extends (quote keyword) cs) (c : Char) : Extends (datum c) cs := by
  intro t ht a rest h
  rw [datum] at h
  rw [datum, atDelimiter_append ht]
  by_cases h₁ : c = '('
  · rw [if_pos h₁] at h ⊢
    exact hlist t ht a rest h
  rw [if_neg h₁] at h ⊢
  by_cases h₂ : c = ')'
  · rw [if_pos h₂] at h
    exact (Step.not_reads_fail h).elim
  rw [if_neg h₂] at h ⊢
  by_cases h₃ : c = '#'
  · rw [if_pos h₃] at h ⊢
    exact hhash t ht a rest h
  rw [if_neg h₃] at h ⊢
  by_cases h₄ : c = '\"'
  · rw [if_pos h₄] at h ⊢
    exact string_extends cs t ht a rest h
  rw [if_neg h₄] at h ⊢
  by_cases h₅ : c = '\''
  · rw [if_pos h₅] at h ⊢
    exact hquote _ t ht a rest h
  rw [if_neg h₅] at h ⊢
  by_cases h₆ : c = '\x60'
  · rw [if_pos h₆] at h ⊢
    exact hquote _ t ht a rest h
  rw [if_neg h₆] at h ⊢
  by_cases h₇ : isOperatorChar c = true
  · rw [if_pos h₇] at h ⊢
    exact operator_extends c cs t ht a rest h
  rw [if_neg h₇] at h ⊢
  by_cases h₈ : c = '.' ∧ atDelimiter cs = true
  · rw [if_pos h₈] at h
    exact (Step.not_reads_fail h).elim
  rw [if_neg h₈] at h ⊢
  exact atom_extends [c] cs t ht a rest h

/-- **Reading does not look past its datum.** Every reading function reads the same from a text
followed by a text that starts with a delimiter, by induction on the length of the text. -/
theorem extendsAll (cs : List Char) : ExtendsAll cs :=
  have ih : ∀ r : List Char, r.length < cs.length → ExtendsAll r := fun r _ => extendsAll r
  { datum := datum_extends (list_extends ih) (hash_extends ih) (quote_extends ih)
    list := list_extends ih
    listTail := listTail_extends ih
    hash := hash_extends ih
    vector := vector_extends ih
    quote := quote_extends ih
    lambda := lambda_extends ih
    params := params_extends ih
    body := body_extends ih
    defineProc := defineProc_extends ih
    letForm := letForm_extends ih
    bindings := bindings_extends ih }
termination_by cs.length

end Read

/-! ### Running a text in two parts -/

namespace Machine

variable {frame : Nat}

/-- A run looks at its text only after the blanks and comments before the first form. -/
theorem runForms_congr {last : Value} {cs cs' : List Char}
    (h : Read.skipBlank cs = Read.skipBlank cs') :
    runForms false frame last cs = runForms false frame last cs' := by
  cases hs : Read.skipBlank cs with
  | nil => rw [runForms_of_nil hs, runForms_of_nil (h ▸ hs)]
  | cons c r =>
    have hs' : Read.skipBlank cs' = c :: r := h ▸ hs
    cases hd : (Read.datum c r).result with
    | error e => rw [runForms_of_error hs hd, runForms_of_error hs' hd]
    | ok v => rw [runForms_of_ok hs ⟨hd, rfl⟩, runForms_of_ok hs' ⟨hd, rfl⟩]

/-- **A run continues across a line feed.** When the text `cs` reads without error, running it with
a line feed and `s` after it runs `cs`, then `s` after the value of the last form of `cs`: every
form of `cs` reads the same with the line feed after it, and a comment that ends `cs` ends at the
line feed. By induction on the length of `cs`, one form at a time. -/
theorem runForms_append (s : List Char) (cs : List Char) (hall : (Read.all cs).2 = none)
    (last : Value) :
    runForms false frame last (cs ++ '\n' :: s) =
      (runForms false frame last cs >>= fun v => runForms false frame v s) := by
  match hs : Read.skipBlank cs with
  | [] =>
    rw [runForms_congr ((Read.skipBlank_append_newline s cs).1 hs), runForms_of_nil hs, pure_bind]
  | c :: r =>
    have hr := Read.length_lt_of_skipBlank_eq_cons hs
    obtain ⟨v, hd⟩ : ∃ v, (Read.datum c r).result = .ok v := by
      cases hd : (Read.datum c r).result with
      | error e => rw [Read.all_of_error hs hd] at hall; cases hall
      | ok v => exact ⟨v, rfl⟩
    have hread : (Read.datum c r).Reads v (Read.datum c r).rest := ⟨hd, rfl⟩
    have hall₁ : (Read.all (Read.datum c r).rest).2 = none := by
      rw [Read.all_of_ok hs hread] at hall
      exact hall
    have hread' := (Read.extendsAll r).datum c ('\n' :: s) rfl v _ hread
    rw [runForms_of_ok (Read.skipBlank_append _ hs) hread', runForms_of_ok hs hread]
    simp only [bind_assoc]
    refine congrArg _ (funext fun form => congrArg _ (funext fun w => ?_))
    split
    · rfl
    · next hw =>
      have hlt : (Read.datum c r).rest.length < cs.length :=
        Nat.lt_of_le_of_lt (Read.datum c r).rest_le hr
      exact runForms_append s _ hall₁ w
termination_by cs.length

/-- The value of the form before a text matters only when the text holds no form. -/
theorem runForms_last {last last' : Value} {cs : List Char} (h : Read.skipBlank cs ≠ []) :
    runForms false frame last cs = runForms false frame last' cs := by
  obtain ⟨c, r, hs⟩ := List.exists_cons_of_ne_nil h
  cases hd : (Read.datum c r).result with
  | error e => rw [runForms_of_error hs hd, runForms_of_error hs hd]
  | ok v => rw [runForms_of_ok hs ⟨hd, rfl⟩, runForms_of_ok hs ⟨hd, rfl⟩]

end Machine

/-- **A program splits at a line feed between its forms.** When `s₁` reads without error, running
`s₁`, a line feed and `s₂` in a frame is running `s₁` and then, unless that failed, `s₂` in the same
frame, from the machine `s₁` left: the same store, the same output and the same outcome. The value
is that of `s₂`, or that of `s₁` when `s₂` holds no form, only blanks and comments. -/
theorem run_split (s₁ s₂ : String) (E : Nat) (h : (Read.all s₁.toList).2 = none) :
    Machine.run (s₁ ++ "\n" ++ s₂) E =
      (Machine.run s₁ E >>= fun v =>
        if Read.skipBlank s₂.toList = [] then pure v else Machine.run s₂ E) := by
  have htext : (s₁ ++ "\n" ++ s₂).toList = s₁.toList ++ '\n' :: s₂.toList := by simp
  rw [Machine.run, htext, Machine.runForms_append _ _ h, Machine.run]
  refine congrArg _ (funext fun v => ?_)
  by_cases hb : Read.skipBlank s₂.toList = []
  · rw [if_pos hb, Machine.runForms_of_nil hb]
  · rw [if_neg hb, Machine.run, Machine.runForms_last hb]

/-- A definition, a comment that runs to the end of its line, and a use of the definition. -/
theorem define_then_use_split :
    (Read.all "(define x 1) ; one".toList).2 = none ∧
      Machine.run ("(define x 1) ; one" ++ "\n" ++ "(* x 2)") 0 =
        (Machine.run "(define x 1) ; one" 0 >>= fun v =>
          if Read.skipBlank "(* x 2)".toList = [] then pure v else Machine.run "(* x 2)" 0) :=
  ⟨by decide +kernel, run_split _ _ 0 (by decide +kernel)⟩

end MiniScheme
