import MiniScheme.Proofs.RunSplit
import MiniScheme.Proofs.ReadPlain
import Mathlib.Tactic.SplitIfs
/-!
# The end of the text

What may follow the last datum of a text is blanks and comments (`Read.Blanks`): spaces, tabs,
carriage returns, line feeds, and comments from `;` through the next line feed or to the end of the
text. The reader reports the end of the text (`ReadError.eof`) there and nowhere else: `form` fails
with `eof` exactly when only blanks and comments are left, and then nothing is left; otherwise it
gives a datum or another error, and consumes at least one character.

No reading function that `form` calls gives `eof`: inside an open list, vector, `lambda`, `let` or
`define` the end of the text is `unterminatedList`, after a quote mark it is a malformed quote, and
after `#` a malformed hash. `Read.noEof` proves this for every reading function at once, by induction
on the length of the text, as `Read.readsPlain` does for the data they give.

Main statements: `eof_only_at_clean_end`, and `all_splits_at_line_feed`: the data of a text that
reads without error, a line feed and a second text are the data of the first and then those of the
second. `all` needs no argument for its termination beyond its definition: each datum it reads is
followed by a shorter text.
-/

namespace MiniScheme.Value

/-- No datum the reader gives is the end of the text. -/
theorem Plain.isEof_eq_false {v : Value} (h : v.Plain) : v.isEof = false := by
  cases v with
  | error e =>
    cases h with
    | leaf _ hp => simp [isError] at hp
  | _ => rfl

end MiniScheme.Value

namespace MiniScheme.Read

/-! ### Blanks and comments -/

/-- Text made only of blanks and comments; a comment runs from `;` through the next line feed, or to
the end of the text. -/
inductive Blanks : List Char → Prop
  | nil : Blanks []
  | blank {c : Char} {cs : List Char} : isBlank c = true → Blanks cs → Blanks (c :: cs)
  | comment {body cs : List Char} : '\n' ∉ body → Blanks cs → Blanks (';' :: (body ++ '\n' :: cs))
  | lastComment {body : List Char} : '\n' ∉ body → Blanks (';' :: body)

/-- A comment goes on over a character that is no line feed. -/
theorem Blanks.comment_cons {d : Char} {cs : List Char} (hd : d ≠ '\n') (h : Blanks (';' :: cs)) :
    Blanks (';' :: d :: cs) := by
  cases h with
  | blank hb _ => simp [isBlank] at hb
  | comment hbody hcs =>
    exact .comment (List.not_mem_cons_of_ne_of_not_mem (Ne.symm hd) hbody) hcs
  | lastComment hbody => exact .lastComment (List.not_mem_cons_of_ne_of_not_mem (Ne.symm hd) hbody)

theorem skipComment_append_newline {body : List Char} (h : '\n' ∉ body) (cs : List Char) :
    skipComment (body ++ '\n' :: cs) = skipBlank cs := by
  induction body with
  | nil => simp [skipComment]
  | cons d body ih =>
    have hd : d ≠ '\n' := fun h' => h (h' ▸ List.mem_cons_self)
    have hbody : '\n' ∉ body := fun h' => h (List.mem_cons_of_mem d h')
    simp only [List.cons_append, skipComment, if_neg hd]
    exact ih hbody

theorem skipComment_of_newline_free {body : List Char} (h : '\n' ∉ body) : skipComment body = [] := by
  induction body with
  | nil => simp [skipComment]
  | cons d body ih =>
    have hd : d ≠ '\n' := fun h' => h (h' ▸ List.mem_cons_self)
    have hbody : '\n' ∉ body := fun h' => h (List.mem_cons_of_mem d h')
    simp only [skipComment, if_neg hd]
    exact ih hbody

theorem blanks_of_skip (cs : List Char) :
    (skipBlank cs = [] → Blanks cs) ∧ (skipComment cs = [] → Blanks (';' :: cs)) := by
  induction cs with
  | nil => exact ⟨fun _ => .nil, fun _ => .lastComment List.not_mem_nil⟩
  | cons d cs ih =>
    refine ⟨fun h => ?_, fun h => ?_⟩
    · by_cases hb : isBlank d = true
      · simp only [skipBlank, hb, if_true] at h
        exact .blank hb (ih.1 h)
      · by_cases hs : d = ';'
        · subst hs
          simp only [skipBlank, hb, Bool.false_eq_true, if_false, if_true] at h
          exact ih.2 h
        · rw [skipBlank_of_not_blank _ (by simpa using hb) hs] at h
          cases h
    · by_cases hn : d = '\n'
      · subst hn
        simp only [skipComment, if_true] at h
        show Blanks (';' :: ([] ++ '\n' :: cs))
        exact .comment List.not_mem_nil (ih.1 h)
      · simp only [skipComment, if_neg hn] at h
        exact (ih.2 h).comment_cons hn

theorem skipBlank_of_blanks {cs : List Char} (h : Blanks cs) : skipBlank cs = [] := by
  induction h with
  | nil => simp [skipBlank]
  | blank hb _ ih => simp [skipBlank, hb, ih]
  | comment hbody _ ih =>
    simp only [skipBlank, isBlank]
    simp [skipComment_append_newline hbody, ih]
  | lastComment hbody =>
    simp only [skipBlank, isBlank]
    simp [skipComment_of_newline_free hbody]

/-- **Skipping leaves nothing exactly on blanks and comments.** -/
theorem skipBlank_eq_nil_iff {cs : List Char} : skipBlank cs = [] ↔ Blanks cs :=
  ⟨(blanks_of_skip cs).1, skipBlank_of_blanks⟩

/-! ### No reading function gives `eof` -/

/-- Every error the step gives passes `P`. -/
def Step.Errors {s : List Char} {α : Type} (P : ReadError → Prop) (st : Step s α) : Prop :=
  ∀ e, st.result = .error e → P e

section Steps
variable {s t : List Char} {α : Type} {P : ReadError → Prop}

theorem Step.errors_ok {a : α} {r : List Char} {h : r.length ≤ s.length} :
    (Step.ok a r h : Step s α).Errors P := by
  intro e he
  simp [Step.ok] at he

theorem Step.errors_fail {e : ReadError} {r : List Char} {h : r.length ≤ s.length} (he : P e) :
    (Step.fail e r h : Step s α).Errors P := by
  intro e' he'
  simp only [Step.fail, Except.error.injEq] at he'
  exact he' ▸ he

theorem Step.Errors.widen {st : Step t α} (hy : st.Errors P) (h : t.length ≤ s.length) :
    (st.widen h).Errors P :=
  hy

theorem Step.Errors.of_eq {st : Step s α} {res : Except ReadError α} {r : List Char}
    {h : r.length ≤ s.length} (hy : st.Errors P) (heq : st = ⟨res, r, h⟩) {e : ReadError}
    (he : res = .error e) : P e :=
  hy e (by rw [heq, he])

end Steps

/-- No reading function, started on the text `cs`, gives `eof`. -/
structure NoEof (cs : List Char) : Prop where
  datum : ∀ c, (datum c cs).Errors (· ≠ .eof)
  list : (list cs).Errors (· ≠ .eof)
  listTail : ∀ items, (listTail items cs).Errors (· ≠ .eof)
  hash : (hash cs).Errors (· ≠ .eof)
  vector : ∀ items, (vector items cs).Errors (· ≠ .eof)
  quote : ∀ keyword, (quote keyword cs).Errors (· ≠ .eof)
  lambda : (lambda cs).Errors (· ≠ .eof)
  params : ∀ form acc, (params form acc cs).Errors (· ≠ .eof)
  body : ∀ form, (body form cs).Errors (· ≠ .eof)
  defineProc : (defineProc cs).Errors (· ≠ .eof)
  letForm : (letForm cs).Errors (· ≠ .eof)
  bindings : ∀ names inits, (bindings names inits cs).Errors (· ≠ .eof)

theorem expectClose_noEof (form reason : String) (cs : List Char) :
    (expectClose form reason cs).Errors (· ≠ .eof) := by
  rw [expectClose]
  split
  · exact Step.errors_fail (by simp)
  · split
    · exact Step.errors_ok
    · exact Step.errors_fail (by simp)

theorem string_noEof (cs : List Char) : (string cs).Errors (· ≠ .eof) := by
  rw [string]
  split
  · exact Step.errors_fail (by simp)
  · exact Step.errors_ok

theorem atom_noEof (tok cs : List Char) : (atom tok cs).Errors (· ≠ .eof) :=
  Step.errors_ok

theorem operatorEnd_noEof (tok r : List Char) : (operatorEnd tok r).Errors (· ≠ .eof) := by
  unfold operatorEnd
  split
  · exact Step.errors_ok
  · exact atom_noEof tok r

theorem operator_noEof (c : Char) (cs : List Char) : (operator c cs).Errors (· ≠ .eof) := by
  by_cases hlt : c = '<' ∧ ∃ r, cs = '=' :: r
  · obtain ⟨rfl, r, rfl⟩ := hlt
    rw [operator.eq_1]
    exact (operatorEnd_noEof _ _).widen _
  · by_cases hgt : c = '>' ∧ ∃ r, cs = '=' :: r
    · obtain ⟨rfl, r, rfl⟩ := hgt
      rw [operator.eq_2]
      exact (operatorEnd_noEof _ _).widen _
    · rw [operator.eq_3 c cs (fun r h₁ h₂ => hlt ⟨h₁, r, h₂⟩) (fun r h₁ h₂ => hgt ⟨h₁, r, h₂⟩)]
      exact operatorEnd_noEof _ _

section Functions
variable {cs : List Char} (ih : ∀ r : List Char, r.length < cs.length → NoEof r)
include ih

theorem list_noEof : (list cs).Errors (· ≠ .eof) := by
  rw [list]
  split
  · exact Step.errors_fail (by simp)
  · next c r h =>
    have hr := length_lt_of_skipBlank_eq_cons h
    split
    · exact Step.errors_ok
    · split
      · next e r₁ h₁ hd => exact Step.errors_fail ((ih r hr).datum c |>.of_eq hd rfl)
      · next head r₁ h₁ hd =>
        have ih₁ := ih r₁ (by omega)
        split
        · exact ih₁.lambda
        · split
          · exact ih₁.letForm
          · split
            · split
              · next r₂ h₂ =>
                have := length_lt_of_skipBlank_eq_cons h₂
                exact (ih r₂ (by omega)).defineProc
              · exact ih₁.listTail [head]
            · exact ih₁.listTail [head]

theorem listTail_noEof (items : List Value) : (listTail items cs).Errors (· ≠ .eof) := by
  rw [listTail]
  split
  · exact Step.errors_fail (by simp)
  · next c r h =>
    have hr := length_lt_of_skipBlank_eq_cons h
    split
    · exact Step.errors_ok
    · split
      · split
        · split
          · exact Step.errors_fail (by simp)
          · next c₂ r₂ h₂ =>
            have hr₂ := length_lt_of_skipBlank_eq_cons h₂
            split
            · next e r₃ h₃ hd => exact Step.errors_fail ((ih r₂ (by omega)).datum c₂ |>.of_eq hd rfl)
            · split
              · next e r₄ h₄ hcl => exact Step.errors_fail (expectClose_noEof _ _ _ |>.of_eq hcl rfl)
              · exact Step.errors_ok
        · have := length_atomText_le ['.'] r
          exact ((ih _ (by omega)).listTail _).widen _
      · split
        · next e r₁ h₁ hd => exact Step.errors_fail ((ih r hr).datum c |>.of_eq hd rfl)
        · next v r₁ h₁ hd => exact ((ih r₁ (by omega)).listTail _).widen _

theorem vector_noEof (items : List Value) : (vector items cs).Errors (· ≠ .eof) := by
  rw [vector]
  split
  · exact Step.errors_fail (by simp)
  · next c r h =>
    have hr := length_lt_of_skipBlank_eq_cons h
    split
    · exact Step.errors_ok
    · split
      · next e r₁ h₁ hd => exact Step.errors_fail ((ih r hr).datum c |>.of_eq hd rfl)
      · next v r₁ h₁ hd => exact ((ih r₁ (by omega)).vector _).widen _

theorem hash_noEof : (hash cs).Errors (· ≠ .eof) := by
  rw [hash.eq_def]
  split
  · exact Step.errors_fail (by simp)
  · split_ifs
    · exact Step.errors_ok
    · exact Step.errors_ok
    · exact Step.errors_fail (by simp)
    · exact ((ih [] (by simp)).vector []).widen _
    · exact Step.errors_fail (by simp)
  · next d r =>
    split_ifs
    · exact Step.errors_ok
    · exact Step.errors_ok
    · exact Step.errors_ok
    · exact ((ih (d :: r) (by simp)).vector []).widen _
    · exact Step.errors_fail (by simp)

theorem quote_noEof (keyword : String) : (quote keyword cs).Errors (· ≠ .eof) := by
  rw [quote]
  split
  · exact Step.errors_fail (by simp)
  · next c r h =>
    have hr := length_lt_of_skipBlank_eq_cons h
    split
    · next e r₁ h₁ hd => exact Step.errors_fail ((ih r hr).datum c |>.of_eq hd rfl)
    · exact Step.errors_ok

theorem params_noEof (form : String) (acc : List String) : (params form acc cs).Errors (· ≠ .eof) := by
  rw [params]
  split
  · exact Step.errors_fail (by simp)
  · next c r h =>
    have hr := length_lt_of_skipBlank_eq_cons h
    split
    · exact Step.errors_ok
    · split
      · next e r₁ h₁ hd => exact Step.errors_fail ((ih r hr).datum c |>.of_eq hd rfl)
      · next v r₁ h₁ hd =>
        split
        · exact ((ih r₁ (by omega)).params form _).widen _
        · exact Step.errors_fail (by simp)

theorem body_noEof (form : String) : (body form cs).Errors (· ≠ .eof) := by
  rw [body]
  split
  · exact Step.errors_fail (by simp)
  · next c r h =>
    have hr := length_lt_of_skipBlank_eq_cons h
    split
    · exact Step.errors_fail (by simp)
    · split
      · next e r₁ h₁ hd => exact Step.errors_fail ((ih r hr).datum c |>.of_eq hd rfl)
      · split
        · next e r₂ h₂ hcl => exact Step.errors_fail (expectClose_noEof _ _ _ |>.of_eq hcl rfl)
        · exact Step.errors_ok

theorem lambda_noEof : (lambda cs).Errors (· ≠ .eof) := by
  rw [lambda]
  split
  · exact Step.errors_fail (by simp)
  · next c r h =>
    have hr := length_lt_of_skipBlank_eq_cons h
    split
    · split
      · next e r₁ h₁ hp => exact Step.errors_fail ((ih r hr).params _ _ |>.of_eq hp rfl)
      · next ps r₁ h₁ hp =>
        split
        · next e r₂ h₂ hb => exact Step.errors_fail ((ih r₁ (by omega)).body _ |>.of_eq hb rfl)
        · exact Step.errors_ok
    · exact Step.errors_fail (by simp)

theorem defineProc_noEof : (defineProc cs).Errors (· ≠ .eof) := by
  rw [defineProc]
  split
  · exact Step.errors_fail (by simp)
  · next c r h =>
    have hr := length_lt_of_skipBlank_eq_cons h
    split
    · exact Step.errors_fail (by simp)
    · split
      · next e r₁ h₁ hd => exact Step.errors_fail ((ih r hr).datum c |>.of_eq hd rfl)
      · next name r₁ h₁ hd =>
        split
        · next e r₂ h₂ hp => exact Step.errors_fail ((ih r₁ (by omega)).params _ _ |>.of_eq hp rfl)
        · next ps r₂ h₂ hp =>
          split
          · next e r₃ h₃ hb => exact Step.errors_fail ((ih r₂ (by omega)).body _ |>.of_eq hb rfl)
          · exact Step.errors_ok
      · exact Step.errors_fail (by simp)

theorem bindings_noEof (names : List String) (inits : List Value) :
    (bindings names inits cs).Errors (· ≠ .eof) := by
  rw [bindings]
  split
  · exact Step.errors_fail (by simp)
  · next c r h =>
    have hr := length_lt_of_skipBlank_eq_cons h
    split
    · exact Step.errors_ok
    · split
      · next e r₁ h₁ hd => exact Step.errors_fail ((ih r hr).datum c |>.of_eq hd rfl)
      · next b r₁ h₁ hd =>
        split
        · exact ((ih r₁ (by omega)).bindings _ _).widen _
        · exact Step.errors_fail (by simp)

theorem letForm_noEof : (letForm cs).Errors (· ≠ .eof) := by
  rw [letForm]
  split
  · exact Step.errors_fail (by simp)
  · next c r h =>
    have hr := length_lt_of_skipBlank_eq_cons h
    split
    · split
      · next e r₁ h₁ hbs => exact Step.errors_fail ((ih r hr).bindings _ _ |>.of_eq hbs rfl)
      · next names inits r₁ h₁ hbs =>
        split
        · next e r₂ h₂ hb => exact Step.errors_fail ((ih r₁ (by omega)).body _ |>.of_eq hb rfl)
        · exact Step.errors_ok
    · exact Step.errors_fail (by simp)

end Functions

theorem datum_noEof {cs : List Char} (hlist : (list cs).Errors (· ≠ .eof))
    (hhash : (hash cs).Errors (· ≠ .eof)) (hquote : ∀ keyword, (quote keyword cs).Errors (· ≠ .eof))
    (c : Char) : (datum c cs).Errors (· ≠ .eof) := by
  rw [datum]
  by_cases h₁ : c = '('
  · rw [if_pos h₁]
    exact hlist
  rw [if_neg h₁]
  by_cases h₂ : c = ')'
  · rw [if_pos h₂]
    exact Step.errors_fail (by simp)
  rw [if_neg h₂]
  by_cases h₃ : c = '#'
  · rw [if_pos h₃]
    exact hhash
  rw [if_neg h₃]
  by_cases h₄ : c = '\"'
  · rw [if_pos h₄]
    exact string_noEof cs
  rw [if_neg h₄]
  by_cases h₅ : c = '\''
  · rw [if_pos h₅]
    exact hquote _
  rw [if_neg h₅]
  by_cases h₆ : c = '\x60'
  · rw [if_pos h₆]
    exact hquote _
  rw [if_neg h₆]
  by_cases h₇ : isOperatorChar c = true
  · rw [if_pos h₇]
    exact operator_noEof c cs
  rw [if_neg h₇]
  by_cases h₈ : c = '.' ∧ atDelimiter cs = true
  · rw [if_pos h₈]
    exact Step.errors_fail (by simp)
  rw [if_neg h₈]
  exact atom_noEof [c] cs

/-- **No reading function gives `eof`**, on any text: by induction on the length of the text. -/
theorem noEof (cs : List Char) : NoEof cs :=
  have ih : ∀ r : List Char, r.length < cs.length → NoEof r := fun r _ => noEof r
  { datum := datum_noEof (list_noEof ih) (hash_noEof ih) (quote_noEof ih)
    list := list_noEof ih
    listTail := listTail_noEof ih
    hash := hash_noEof ih
    vector := vector_noEof ih
    quote := quote_noEof ih
    lambda := lambda_noEof ih
    params := params_noEof ih
    body := body_noEof ih
    defineProc := defineProc_noEof ih
    letForm := letForm_noEof ih
    bindings := bindings_noEof ih }
termination_by cs.length

/-! ### The first datum and every datum of a text -/

theorem form_of_nil {cs : List Char} (h : skipBlank cs = []) :
    (form cs).result = .error .eof ∧ (form cs).rest = [] := by
  rw [form]
  split
  · exact ⟨rfl, rfl⟩
  · next c r h' => rw [h] at h'; cases h'

theorem form_of_cons {cs r : List Char} {c : Char} (h : skipBlank cs = c :: r) :
    (form cs).result = (datum c r).result ∧ (form cs).rest = (datum c r).rest := by
  rw [form]
  split
  · next h' => rw [h] at h'; cases h'
  · next c' r' h' =>
    rw [h] at h'
    cases h'
    exact ⟨rfl, rfl⟩

/-- Reading every datum never stops at `eof`. -/
theorem all_ne_eof (cs : List Char) : (all cs).2 ≠ some .eof := by
  cases hs : skipBlank cs with
  | nil => rw [all_of_nil hs]; simp
  | cons c r =>
    have hr := length_lt_of_skipBlank_eq_cons hs
    cases hd : (datum c r).result with
    | error e =>
      rw [all_of_error hs hd]
      intro he
      exact (noEof r).datum c e hd (Option.some.inj he)
    | ok v =>
      have hlt : (datum c r).rest.length < cs.length := Nat.lt_of_le_of_lt (datum c r).rest_le hr
      rw [all_of_ok hs ⟨hd, rfl⟩]
      exact all_ne_eof (datum c r).rest
termination_by cs.length

theorem all_eq_nil_iff {cs : List Char} : all cs = ([], none) ↔ skipBlank cs = [] := by
  constructor
  · intro h
    cases hs : skipBlank cs with
    | nil => rfl
    | cons c r =>
      cases hd : (datum c r).result with
      | error e => rw [all_of_error hs hd] at h; cases h
      | ok v => rw [all_of_ok hs ⟨hd, rfl⟩] at h; cases h
  · exact all_of_nil

/-- **The end of the text is reported only at a clean end.** Reading the next datum fails with
`eof` exactly when only blanks and comments are left, and then nothing is left. Otherwise it gives a
datum or another error and consumes at least one character, so that an open form, or a quote mark at
the end, is never reported as the end. Reading every datum never stops at `eof`, never gives it as a
datum, and gives nothing at all exactly on blanks and comments. -/
theorem eof_only_at_clean_end (cs : List Char) :
    ((form cs).result = .error .eof ↔ Blanks cs) ∧ (Blanks cs → (form cs).rest = []) ∧
      (¬ Blanks cs → (form cs).result ≠ .error .eof ∧ (form cs).rest.length < cs.length) ∧
      (all cs).2 ≠ some .eof ∧ (∀ v ∈ (all cs).1, v.isEof = false) ∧
      (all cs = ([], none) ↔ Blanks cs) := by
  have hnext : ¬ Blanks cs → (form cs).result ≠ .error .eof ∧ (form cs).rest.length < cs.length := by
    intro hb
    obtain ⟨c, r, hs⟩ := List.exists_cons_of_ne_nil (mt skipBlank_eq_nil_iff.mp hb)
    obtain ⟨hres, hrest⟩ := form_of_cons hs
    refine ⟨fun he => (noEof r).datum c .eof (hres ▸ he) rfl, ?_⟩
    have hr := length_lt_of_skipBlank_eq_cons hs
    rw [hrest]
    exact Nat.lt_of_le_of_lt (datum c r).rest_le hr
  have heof : (form cs).result = .error .eof → Blanks cs := by
    intro he
    exact Classical.byContradiction fun hb => (hnext hb).1 he
  exact ⟨⟨heof, fun hb => (form_of_nil (skipBlank_eq_nil_iff.mpr hb)).1⟩,
    fun hb => (form_of_nil (skipBlank_eq_nil_iff.mpr hb)).2, hnext, all_ne_eof cs,
    fun v hv => (all_plain cs v hv).isEof_eq_false, all_eq_nil_iff.trans skipBlank_eq_nil_iff⟩

/-! ### Two texts read one after the other -/

/-- Reading every datum looks at a text only after its leading blanks and comments. -/
theorem all_congr {cs cs' : List Char} (h : skipBlank cs = skipBlank cs') : all cs = all cs' := by
  cases hs : skipBlank cs with
  | nil => rw [all_of_nil hs, all_of_nil (h ▸ hs)]
  | cons c r =>
    have hs' : skipBlank cs' = c :: r := h ▸ hs
    cases hd : (datum c r).result with
    | error e => rw [all_of_error hs hd, all_of_error hs' hd]
    | ok v => rw [all_of_ok hs ⟨hd, rfl⟩, all_of_ok hs' ⟨hd, rfl⟩]

/-- When `cs` reads without error, the data of `cs`, a line feed and `s` are those of `cs` and then
those of `s`: each datum of `cs` reads the same with more text after it (`extendsAll`), and what is
left of `cs` after its last datum, blanks and comments, ends at the line feed. By induction on the
length of `cs`, one datum at a time. -/
theorem all_append_newline (s : List Char) (cs : List Char) (hall : (all cs).2 = none) :
    all (cs ++ '\n' :: s) = ((all cs).1 ++ (all s).1, (all s).2) := by
  cases hs : skipBlank cs with
  | nil =>
    rw [all_congr ((skipBlank_append_newline s cs).1 hs), all_of_nil hs]
    rfl
  | cons c r =>
    have hr := length_lt_of_skipBlank_eq_cons hs
    obtain ⟨v, hd⟩ : ∃ v, (datum c r).result = .ok v := by
      cases hd : (datum c r).result with
      | error e => rw [all_of_error hs hd] at hall; cases hall
      | ok v => exact ⟨v, rfl⟩
    have hread : (datum c r).Reads v (datum c r).rest := ⟨hd, rfl⟩
    have hall₁ : (all (datum c r).rest).2 = none := by
      rw [all_of_ok hs hread] at hall
      exact hall
    have hread' := (extendsAll r).datum c ('\n' :: s) rfl v _ hread
    have hlt : (datum c r).rest.length < cs.length := Nat.lt_of_le_of_lt (datum c r).rest_le hr
    rw [all_of_ok (skipBlank_append _ hs) hread', all_of_ok hs hread, all_append_newline s _ hall₁]
    rfl
termination_by cs.length

/-- **Reading splits at a line feed between data.** When the text `s₁` reads without error, the data
of `s₁`, a line feed and `s₂` are the data of `s₁` followed by those of `s₂`, and reading stops at
the error of `s₂` if it has one. -/
theorem all_splits_at_line_feed (s₁ s₂ : String) (h : (all s₁.toList).2 = none) :
    all (s₁ ++ "\n" ++ s₂).toList = ((all s₁.toList).1 ++ (all s₂.toList).1, (all s₂.toList).2) := by
  have htext : (s₁ ++ "\n" ++ s₂).toList = s₁.toList ++ '\n' :: s₂.toList := by simp
  rw [htext]
  exact all_append_newline _ _ h

/-- A quoted symbol and a comment that runs to the end of its line, then a dotted pair. -/
theorem quote_then_pair_read_apart :
    (all "'a ; quoted".toList).2 = none ∧
      all ("'a ; quoted" ++ "\n" ++ "(b . c)").toList =
        ((all "'a ; quoted".toList).1 ++ (all "(b . c)".toList).1, (all "(b . c)".toList).2) :=
  have h : (all "'a ; quoted".toList).2 = none := by decide +kernel
  ⟨h, all_splits_at_line_feed _ _ h⟩

end MiniScheme.Read
