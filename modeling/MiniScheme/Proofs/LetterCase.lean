import MiniScheme.Proofs.UpperToken
import MiniScheme.Proofs.RunAgreement
/-!
# Letter case outside literals

Reading does not see the case of a letter outside a string or a character literal. A symbol is
upper-cased when it is read, and the heads `LAMBDA`, `LET` and `DEFINE` are recognised after that; a
numeral takes its radix prefix, its hexadecimal digits and its exponent mark in either case
(`classify_map_toUpper`); `#t` and `#T`, `#f` and `#F` are the same booleans. So every reading
function, on the text with every letter upper-cased, does what it does on the text (`Step.Upper`,
proved for every reading function at once by `caseBlind`): it gives the same datum and leaves the
upper case of the text it left. Errors are the same too, with one exception: the error for a `#`
followed by a letter other than `t` or `f` names the letter, and on the upper-cased text it names its
upper case (`ReadError.CaseVariant`).

The text may hold no double quote and no backslash (`Unquoted`): the characters of a string and the
character after `#\` are read as they are.

Main statement: `all_ignores_letter_case`.
-/

namespace MiniScheme

/-- An error on a text and the error on the text upper-cased: the same error, or the two errors for
a `#` followed by a lower-case letter and by its upper case. -/
inductive ReadError.CaseVariant : ReadError → ReadError → Prop
  | same (e : ReadError) : CaseVariant e e
  | hashLetter {c : Char} : c.isLower = true →
      CaseVariant (.malformedHash (String.singleton c)) (.malformedHash (String.singleton c.toUpper))

namespace Read

theorem toUpper_of_isLower_eq_false {c : Char} (h : c.isLower = false) : c.toUpper = c := by
  apply toUpper_of_not_lower
  rw [← isLower_iff, h]
  decide

/-- The error for `#` and a character, on the text and on the text upper-cased. -/
theorem caseVariant_malformedHash (c : Char) :
    (ReadError.malformedHash (String.singleton c)).CaseVariant
      (.malformedHash (String.singleton c.toUpper)) := by
  cases hl : c.isLower with
  | true => exact .hashLetter hl
  | false => rw [toUpper_of_isLower_eq_false hl]; exact .same _

/-- The result of a step on a text and of the same step on the text upper-cased: the same value, or
errors that differ only in case. -/
inductive CaseResult {α : Type} : Except ReadError α → Except ReadError α → Prop
  | ok (a : α) : CaseResult (.ok a) (.ok a)
  | error {e e' : ReadError} : e.CaseVariant e' → CaseResult (.error e) (.error e')

/-- The step `st'`, on the upper case of the text `s`, does what the step `st` does on `s`: the same
value or an error that differs only in case, and it leaves the upper case of what `st` leaves, a
suffix of `s`. -/
structure Step.Upper {s : List Char} {α : Type} (st' : Step (s.map Char.toUpper) α) (st : Step s α) :
    Prop where
  result : CaseResult st.result st'.result
  rest : st'.rest = st.rest.map Char.toUpper
  suffix : st.rest <:+ s

namespace Step.Upper

variable {s t r : List Char} {α β : Type} {e e' : ReadError}

theorem ok (a : α) (hr : r <:+ s) {h h'} :
    (Step.ok a (r.map Char.toUpper) h' : Step (s.map Char.toUpper) α).Upper (Step.ok a r h) :=
  ⟨.ok a, rfl, hr⟩

theorem fail (he : e.CaseVariant e') (hr : r <:+ s) {h h'} :
    (Step.fail e' (r.map Char.toUpper) h' : Step (s.map Char.toUpper) α).Upper (Step.fail e r h) :=
  ⟨.error he, rfl, hr⟩

theorem widen {st' : Step (t.map Char.toUpper) α} {st : Step t α} (U : st'.Upper st) (ht : t <:+ s)
    {h h'} : (st'.widen h' : Step (s.map Char.toUpper) α).Upper (st.widen h) :=
  ⟨U.result, U.rest, U.suffix.trans ht⟩

/-- `widen` for a step whose text is the upper-cased one only up to equality. -/
theorem widen_of_eq {u : List Char} {F : (x : List Char) → Step x α} (hu : u = t.map Char.toUpper)
    (U : (F (t.map Char.toUpper)).Upper (F t)) (ht : t <:+ s) {h h'} :
    ((F u).widen h' : Step (s.map Char.toUpper) α).Upper ((F t).widen h) := by
  subst hu
  exact U.widen ht

/-- The two ways a step and its counterpart on the upper-cased text go together: both fail, with
errors that differ only in case, or both read the same value; either way they leave the same text up
to case. -/
theorem elim {st' : Step (t.map Char.toUpper) α} {st : Step t α} (U : st'.Upper st) {P : Prop}
    (herr : ∀ e e' r₁ h₁ h₁', st = ⟨.error e, r₁, h₁⟩ →
      st' = ⟨.error e', r₁.map Char.toUpper, h₁'⟩ → e.CaseVariant e' → r₁ <:+ t → P)
    (hok : ∀ a r₁ h₁ h₁', st = ⟨.ok a, r₁, h₁⟩ →
      st' = ⟨.ok a, r₁.map Char.toUpper, h₁'⟩ → r₁ <:+ t → P) : P := by
  obtain ⟨res, r₁, h₁⟩ := st
  obtain ⟨res', r₁', h₁'⟩ := st'
  obtain ⟨hres, hrest, hsuf⟩ := U
  dsimp only at hres hrest hsuf
  subst hrest
  cases hres with
  | ok a => exact hok a r₁ h₁ h₁' rfl rfl hsuf
  | error he => exact herr _ _ r₁ h₁ h₁' rfl rfl he hsuf

end Step.Upper

/-! ### Blanks, atoms and operators -/

theorem skipBlank_suffix (cs : List Char) : skipBlank cs <:+ cs ∧ skipComment cs <:+ cs := by
  induction cs with
  | nil => exact ⟨List.nil_suffix, List.nil_suffix⟩
  | cons d cs ih =>
    have hd := List.suffix_cons d cs
    refine ⟨?_, ?_⟩
    · by_cases hb : isBlank d = true
      · simp only [skipBlank, hb, if_true]
        exact ih.1.trans hd
      · by_cases hs : d = ';'
        · subst hs
          simp only [skipBlank, hb]
          exact ih.2.trans hd
        · simp only [skipBlank_of_not_blank cs (by simpa using hb) hs, List.suffix_refl]
    · by_cases hn : d = '\n'
      · subst hn
        simp only [skipComment, if_true]
        exact ih.1.trans hd
      · simp only [skipComment, hn, if_false]
        exact ih.2.trans hd

theorem suffix_of_skipBlank_eq_cons {cs r : List Char} {c : Char} (h : skipBlank cs = c :: r) :
    c :: r <:+ cs :=
  h ▸ (skipBlank_suffix cs).1

theorem tail_suffix_of_skipBlank_eq_cons {cs r : List Char} {c : Char} (h : skipBlank cs = c :: r) :
    r <:+ cs :=
  (List.suffix_cons c r).trans (suffix_of_skipBlank_eq_cons h)

theorem skipBlank_upper_nil {cs : List Char} (h : skipBlank cs = []) :
    skipBlank (cs.map Char.toUpper) = [] := by
  rw [(skipBlank_map_toUpper cs).1, h, List.map_nil]

theorem skipBlank_upper_cons {cs r : List Char} {c : Char} (h : skipBlank cs = c :: r) :
    skipBlank (cs.map Char.toUpper) = c.toUpper :: r.map Char.toUpper := by
  rw [(skipBlank_map_toUpper cs).1, h, List.map_cons]

/-- Where blanks end in the upper-cased text: at the upper case of where they end in the text. -/
theorem skipBlank_of_upper_eq_cons {cs r' : List Char} {c' : Char}
    (h : skipBlank (cs.map Char.toUpper) = c' :: r') :
    ∃ c r, skipBlank cs = c :: r ∧ c' = c.toUpper ∧ r' = r.map Char.toUpper := by
  rw [(skipBlank_map_toUpper cs).1] at h
  cases hs : skipBlank cs with
  | nil => rw [hs] at h; cases h
  | cons c r =>
    rw [hs, List.map_cons] at h
    obtain ⟨rfl, rfl⟩ := List.cons.inj h
    exact ⟨c, r, rfl, rfl, rfl⟩

theorem atomText_suffix (tok cs : List Char) : (atomText tok cs).2 <:+ cs :=
  List.dropWhile_suffix _

theorem atom_upper (tok cs : List Char) :
    (atom (tok.map Char.toUpper) (cs.map Char.toUpper)).Upper (atom tok cs) := by
  simp only [atom, atomText_map_toUpper, classify_map_toUpper]
  exact .ok _ (atomText_suffix tok cs)

theorem operatorEnd_upper (tok : List Char) (htok : tok.map Char.toUpper = tok) (cs : List Char) :
    (operatorEnd tok (cs.map Char.toUpper)).Upper (operatorEnd tok cs) := by
  have hatom := atom_upper tok cs
  rw [htok] at hatom
  unfold operatorEnd
  rw [atDelimiter_map_toUpper]
  by_cases hd : atDelimiter cs = true
  · rw [if_pos hd, if_pos hd]
    exact .ok _ (List.suffix_refl cs)
  · rw [if_neg hd, if_neg hd]
    exact hatom

theorem toUpper_of_isOperatorChar {c : Char} (h : isOperatorChar c = true) : c.toUpper = c := by
  simp only [isOperatorChar, Bool.or_eq_true, decide_eq_true_eq] at h
  rcases h with ((((((rfl | rfl) | rfl) | rfl) | rfl) | rfl) | rfl) <;> decide

/-- An operator reads the same way upper-cased: the upper-cased text starts with `=` only where the
text does. -/
theorem operator_upper {c : Char} (hop : isOperatorChar c = true) (cs : List Char) :
    (operator c.toUpper (cs.map Char.toUpper)).Upper (operator c cs) := by
  rw [toUpper_of_isOperatorChar hop]
  by_cases hlt : c = '<' ∧ ∃ r, cs = '=' :: r
  · obtain ⟨rfl, r, rfl⟩ := hlt
    rw [operator.eq_1]
    show Step.Upper (s := '=' :: r) (operator '<' ('=' :: r.map Char.toUpper)) _
    rw [operator.eq_1]
    exact (operatorEnd_upper ['<', '='] (by decide) r).widen (List.suffix_cons '=' r)
  by_cases hgt : c = '>' ∧ ∃ r, cs = '=' :: r
  · obtain ⟨rfl, r, rfl⟩ := hgt
    rw [operator.eq_2]
    show Step.Upper (s := '=' :: r) (operator '>' ('=' :: r.map Char.toUpper)) _
    rw [operator.eq_2]
    exact (operatorEnd_upper ['>', '='] (by decide) r).widen (List.suffix_cons '=' r)
  have hpre : ∀ r', cs.map Char.toUpper = '=' :: r' → ∃ r, cs = '=' :: r := by
    intro r' he
    cases cs with
    | nil => cases he
    | cons d r =>
      obtain ⟨hd, -⟩ := List.cons.inj he
      exact ⟨r, by rw [(toUpper_eq_iff (by decide)).1 hd]⟩
  rw [operator.eq_3 c cs (fun r h₁ h₂ => hlt ⟨h₁, r, h₂⟩) (fun r h₁ h₂ => hgt ⟨h₁, r, h₂⟩),
    operator.eq_3 c _ (fun r' h₁ h₂ => hlt ⟨h₁, hpre r' h₂⟩) (fun r' h₁ h₂ => hgt ⟨h₁, hpre r' h₂⟩)]
  exact operatorEnd_upper [c] (by rw [List.map_singleton, toUpper_of_isOperatorChar hop]) cs

theorem expectClose_upper (form reason : String) (cs : List Char) :
    (expectClose form reason (cs.map Char.toUpper)).Upper (expectClose form reason cs) := by
  rw [expectClose.eq_1 form reason cs]
  split
  · next h =>
    rw [expectClose.eq_1]
    split
    · exact .fail (.same _) List.nil_suffix
    · next h' => rw [skipBlank_upper_nil h] at h'; cases h'
  · next c r h =>
    have hsuf := tail_suffix_of_skipBlank_eq_cons h
    rw [expectClose.eq_1]
    split
    · next h' => rw [skipBlank_upper_cons h] at h'; cases h'
    · next h' =>
      rw [skipBlank_upper_cons h] at h'
      cases h'
      simp only [toUpper_eq_iff (x := ')') (by decide)]
      by_cases hc : c = ')'
      · rw [if_pos hc, if_pos hc]
        exact .ok _ hsuf
      · rw [if_neg hc, if_neg hc]
        exact .fail (.same _) hsuf

/-! ### Every reading function -/

/-- A text with no string and no character literal in it. -/
def Unquoted (cs : List Char) : Prop := '\"' ∉ cs ∧ '\\' ∉ cs

theorem Unquoted.suffix {cs r : List Char} (hq : Unquoted cs) (hr : r <:+ cs) : Unquoted r :=
  ⟨fun h => hq.1 (hr.subset h), fun h => hq.2 (hr.subset h)⟩

/-- A datum of an unquoted text does not start with a double quote. -/
theorem Unquoted.head {cs r : List Char} {c : Char} (hq : Unquoted cs) (h : skipBlank cs = c :: r) :
    c ≠ '\"' := by
  rintro rfl
  exact hq.1 ((suffix_of_skipBlank_eq_cons h).subset List.mem_cons_self)

/-- Every reading function, on the upper case of `cs`, does what it does on `cs`. -/
structure CaseBlind (cs : List Char) : Prop where
  datum : ∀ c, c ≠ '\"' → (datum c.toUpper (cs.map Char.toUpper)).Upper (datum c cs)
  list : (list (cs.map Char.toUpper)).Upper (list cs)
  listTail : ∀ items, (listTail items (cs.map Char.toUpper)).Upper (listTail items cs)
  hash : (hash (cs.map Char.toUpper)).Upper (hash cs)
  vector : ∀ items, (vector items (cs.map Char.toUpper)).Upper (vector items cs)
  quote : ∀ keyword, (quote keyword (cs.map Char.toUpper)).Upper (quote keyword cs)
  lambda : (lambda (cs.map Char.toUpper)).Upper (lambda cs)
  params : ∀ form acc, (params form acc (cs.map Char.toUpper)).Upper (params form acc cs)
  body : ∀ form, (body form (cs.map Char.toUpper)).Upper (body form cs)
  defineProc : (defineProc (cs.map Char.toUpper)).Upper (defineProc cs)
  letForm : (letForm (cs.map Char.toUpper)).Upper (letForm cs)
  bindings : ∀ names inits,
    (bindings names inits (cs.map Char.toUpper)).Upper (bindings names inits cs)

section Step

variable {cs : List Char} (hq : Unquoted cs)
  (ih : ∀ r : List Char, r <:+ cs → r.length < cs.length → CaseBlind r)
include hq ih

theorem vector_upper (items : List Value) :
    (vector items (cs.map Char.toUpper)).Upper (vector items cs) := by
  rw [vector.eq_1 items cs]
  split
  · next h =>
    rw [vector.eq_1]
    split
    · exact .fail (.same _) List.nil_suffix
    · next h' => rw [skipBlank_upper_nil h] at h'; cases h'
  · next c r h =>
    have hr := length_lt_of_skipBlank_eq_cons h
    have hsuf := tail_suffix_of_skipBlank_eq_cons h
    rw [vector.eq_1 items (cs.map Char.toUpper)]
    split
    · next h' => rw [skipBlank_upper_cons h] at h'; cases h'
    · next h' =>
      rw [skipBlank_upper_cons h] at h'
      cases h'
      simp only [toUpper_eq_iff (x := ')') (by decide)]
      by_cases hc : c = ')'
      · rw [if_pos hc, if_pos hc]
        exact .ok _ hsuf
      rw [if_neg hc, if_neg hc]
      refine ((ih r hsuf hr).datum c (hq.head h)).elim (fun e e' r₁ h₁ h₁' hd hd' he hs₁ => ?_)
        (fun v r₁ h₁ h₁' hd hd' hs₁ => ?_)
      · rw [hd, hd']
        exact .fail he (hs₁.trans hsuf)
      · rw [hd, hd']
        exact ((ih r₁ (hs₁.trans hsuf) (by omega)).vector _).widen (hs₁.trans hsuf)

theorem quote_upper (keyword : String) :
    (quote keyword (cs.map Char.toUpper)).Upper (quote keyword cs) := by
  rw [quote.eq_1 keyword cs]
  split
  · next h =>
    rw [quote.eq_1]
    split
    · exact .fail (.same _) List.nil_suffix
    · next h' => rw [skipBlank_upper_nil h] at h'; cases h'
  · next c r h =>
    have hr := length_lt_of_skipBlank_eq_cons h
    have hsuf := tail_suffix_of_skipBlank_eq_cons h
    rw [quote.eq_1 keyword (cs.map Char.toUpper)]
    split
    · next h' => rw [skipBlank_upper_cons h] at h'; cases h'
    · next h' =>
      rw [skipBlank_upper_cons h] at h'
      cases h'
      refine ((ih r hsuf hr).datum c (hq.head h)).elim (fun e e' r₁ h₁ h₁' hd hd' he hs₁ => ?_)
        (fun v r₁ h₁ h₁' hd hd' hs₁ => ?_)
      · rw [hd, hd']
        exact .fail he (hs₁.trans hsuf)
      · rw [hd, hd']
        exact .ok _ (hs₁.trans hsuf)

/-- A `#` form reads the same way upper-cased; a character `#\x` is read as it is, from a text with
no backslash. -/
theorem hash_upper : (hash (cs.map Char.toUpper)).Upper (hash cs) := by
  rcases cs with _ | ⟨c, _ | ⟨d, r⟩⟩
  · show Step.Upper (s := []) (hash []) (hash [])
    rw [hash.eq_1]
    exact .fail (.same _) List.nil_suffix
  · show Step.Upper (s := [c]) (hash [c.toUpper]) (hash [c])
    rw [hash.eq_2, hash.eq_2]
    simp only [toUpper_eq_or_iff (l := 't') (u := 'T') (by decide) (by decide),
      toUpper_eq_or_iff (l := 'f') (u := 'F') (by decide) (by decide),
      toUpper_eq_iff (x := '\\') (by decide), toUpper_eq_iff (x := '(') (by decide)]
    by_cases h₁ : c = 't' ∨ c = 'T'
    · rw [if_pos h₁, if_pos h₁]
      exact .ok _ List.nil_suffix
    rw [if_neg h₁, if_neg h₁]
    by_cases h₂ : c = 'f' ∨ c = 'F'
    · rw [if_pos h₂, if_pos h₂]
      exact .ok _ List.nil_suffix
    rw [if_neg h₂, if_neg h₂]
    by_cases h₃ : c = '\\'
    · rw [if_pos h₃, if_pos h₃]
      exact .fail (.same _) List.nil_suffix
    rw [if_neg h₃, if_neg h₃]
    by_cases h₄ : c = '('
    · rw [if_pos h₄, if_pos h₄]
      exact ((ih [] List.nil_suffix (by simp)).vector []).widen List.nil_suffix
    rw [if_neg h₄, if_neg h₄]
    exact .fail (caseVariant_malformedHash c) List.nil_suffix
  · show Step.Upper (s := c :: d :: r) (hash (c.toUpper :: d.toUpper :: r.map Char.toUpper))
      (hash (c :: d :: r))
    rw [hash.eq_3, hash.eq_3]
    simp only [toUpper_eq_or_iff (l := 't') (u := 'T') (by decide) (by decide),
      toUpper_eq_or_iff (l := 'f') (u := 'F') (by decide) (by decide),
      toUpper_eq_iff (x := '\\') (by decide), toUpper_eq_iff (x := '(') (by decide)]
    have hr := List.suffix_cons c (d :: r)
    by_cases h₁ : c = 't' ∨ c = 'T'
    · rw [if_pos h₁, if_pos h₁]
      exact .ok _ hr
    rw [if_neg h₁, if_neg h₁]
    by_cases h₂ : c = 'f' ∨ c = 'F'
    · rw [if_pos h₂, if_pos h₂]
      exact .ok _ hr
    rw [if_neg h₂, if_neg h₂]
    have h₃ : c ≠ '\\' := by
      rintro rfl
      exact hq.2 List.mem_cons_self
    rw [if_neg h₃, if_neg h₃]
    by_cases h₄ : c = '('
    · rw [if_pos h₄, if_pos h₄]
      exact ((ih (d :: r) hr (by simp)).vector []).widen hr
    rw [if_neg h₄, if_neg h₄]
    exact .fail (caseVariant_malformedHash c) hr

theorem body_upper (form : String) : (body form (cs.map Char.toUpper)).Upper (body form cs) := by
  rw [body.eq_1 form cs]
  split
  · next h =>
    rw [body.eq_1]
    split
    · exact .fail (.same _) List.nil_suffix
    · next h' => rw [skipBlank_upper_nil h] at h'; cases h'
  · next c r h =>
    have hr := length_lt_of_skipBlank_eq_cons h
    have hsuf := tail_suffix_of_skipBlank_eq_cons h
    rw [body.eq_1 form (cs.map Char.toUpper)]
    split
    · next h' => rw [skipBlank_upper_cons h] at h'; cases h'
    · next h' =>
      rw [skipBlank_upper_cons h] at h'
      cases h'
      simp only [toUpper_eq_iff (x := ')') (by decide)]
      by_cases hc : c = ')'
      · rw [if_pos hc, if_pos hc]
        exact .fail (.same _) (suffix_of_skipBlank_eq_cons h)
      rw [if_neg hc, if_neg hc]
      refine ((ih r hsuf hr).datum c (hq.head h)).elim (fun e e' r₁ h₁ h₁' hd hd' he hs₁ => ?_)
        (fun b r₁ h₁ h₁' hd hd' hs₁ => ?_)
      · rw [hd, hd']
        exact .fail he (hs₁.trans hsuf)
      rw [hd, hd']
      dsimp only
      have hs₁' := hs₁.trans hsuf
      refine (expectClose_upper form bodyReason r₁).elim
        (fun e e' r₂ h₂ h₂' hc hc' he hs₂ => ?_) (fun u r₂ h₂ h₂' hc hc' hs₂ => ?_)
      · rw [hc, hc']
        exact .fail he (hs₂.trans hs₁')
      · cases u
        rw [hc, hc']
        exact .ok _ (hs₂.trans hs₁')

/-- Parameters read the same way upper-cased: each side reads the same datum, and a symbol goes on
while anything else is refused alike. -/
theorem params_upper (form : String) (acc : List String) :
    (params form acc (cs.map Char.toUpper)).Upper (params form acc cs) := by
  rw [params.eq_1 form acc cs]
  split
  · next h =>
    rw [params.eq_1]
    split
    · exact .fail (.same _) List.nil_suffix
    · next h' => rw [skipBlank_upper_nil h] at h'; cases h'
  · next c r h =>
    have hr := length_lt_of_skipBlank_eq_cons h
    have hsuf := tail_suffix_of_skipBlank_eq_cons h
    rw [params.eq_1 form acc (cs.map Char.toUpper)]
    split
    · next h' => rw [skipBlank_upper_cons h] at h'; cases h'
    · next h' =>
      rw [skipBlank_upper_cons h] at h'
      cases h'
      simp only [toUpper_eq_iff (x := ')') (by decide)]
      by_cases hc : c = ')'
      · rw [if_pos hc, if_pos hc]
        exact .ok _ hsuf
      rw [if_neg hc, if_neg hc]
      refine ((ih r hsuf hr).datum c (hq.head h)).elim (fun e e' r₁ h₁ h₁' hd hd' he hs₁ => ?_)
        (fun v r₁ h₁ h₁' hd hd' hs₁ => ?_)
      · rw [hd, hd']
        exact .fail he (hs₁.trans hsuf)
      rw [hd, hd']
      dsimp only
      have hs₁' := hs₁.trans hsuf
      cases v
      case sym name => exact ((ih r₁ hs₁' (by omega)).params form (name :: acc)).widen hs₁'
      all_goals exact .fail (.same _) hs₁'

omit hq in
theorem lambda_upper : (lambda (cs.map Char.toUpper)).Upper (lambda cs) := by
  rw [lambda.eq_1 cs]
  split
  · next h =>
    rw [lambda.eq_1]
    split
    · exact .fail (.same _) List.nil_suffix
    · next h' => rw [skipBlank_upper_nil h] at h'; cases h'
  · next c r h =>
    have hr := length_lt_of_skipBlank_eq_cons h
    have hsuf := tail_suffix_of_skipBlank_eq_cons h
    rw [lambda.eq_1 (cs.map Char.toUpper)]
    split
    · next h' => rw [skipBlank_upper_cons h] at h'; cases h'
    · next h' =>
      rw [skipBlank_upper_cons h] at h'
      cases h'
      simp only [toUpper_eq_iff (x := '(') (by decide)]
      by_cases hc : c = '('
      · rw [if_pos hc, if_pos hc]
        refine ((ih r hsuf hr).params "lambda" []).elim
          (fun e e' r₁ h₁ h₁' hp hp' he hs₁ => ?_) (fun ps r₁ h₁ h₁' hp hp' hs₁ => ?_)
        · rw [hp, hp']
          exact .fail he (hs₁.trans hsuf)
        rw [hp, hp']
        dsimp only
        have hs₁' := hs₁.trans hsuf
        refine ((ih r₁ hs₁' (by omega)).body "lambda").elim
          (fun e e' r₂ h₂ h₂' hb hb' he hs₂ => ?_) (fun b r₂ h₂ h₂' hb hb' hs₂ => ?_)
        · rw [hb, hb']
          exact .fail he (hs₂.trans hs₁')
        · rw [hb, hb']
          exact .ok _ (hs₂.trans hs₁')
      · rw [if_neg hc, if_neg hc]
        exact .fail (.same _) hsuf

/-- Bindings read the same way upper-cased: each side reads the same datum, and a binding goes on
while anything else is refused alike. -/
theorem bindings_upper (names : List String) (inits : List Value) :
    (bindings names inits (cs.map Char.toUpper)).Upper (bindings names inits cs) := by
  rw [bindings.eq_1 names inits cs]
  split
  · next h =>
    rw [bindings.eq_1]
    split
    · exact .fail (.same _) List.nil_suffix
    · next h' => rw [skipBlank_upper_nil h] at h'; cases h'
  · next c r h =>
    have hr := length_lt_of_skipBlank_eq_cons h
    have hsuf := tail_suffix_of_skipBlank_eq_cons h
    rw [bindings.eq_1 names inits (cs.map Char.toUpper)]
    split
    · next h' => rw [skipBlank_upper_cons h] at h'; cases h'
    · next h' =>
      rw [skipBlank_upper_cons h] at h'
      cases h'
      simp only [toUpper_eq_iff (x := ')') (by decide)]
      by_cases hc : c = ')'
      · rw [if_pos hc, if_pos hc]
        exact .ok _ hsuf
      rw [if_neg hc, if_neg hc]
      refine ((ih r hsuf hr).datum c (hq.head h)).elim (fun e e' r₁ h₁ h₁' hd hd' he hs₁ => ?_)
        (fun b r₁ h₁ h₁' hd hd' hs₁ => ?_)
      · rw [hd, hd']
        exact .fail he (hs₁.trans hsuf)
      rw [hd, hd']
      dsimp only
      have hs₁' := hs₁.trans hsuf
      split
      · next _ n e _ => exact ((ih r₁ hs₁' (by omega)).bindings (n :: names) (e :: inits)).widen hs₁'
      · exact .fail (.same _) hs₁'

/-- A procedure definition reads the same way upper-cased: each side reads the same datum as its
name, and a name goes on while anything else is refused alike. -/
theorem defineProc_upper : (defineProc (cs.map Char.toUpper)).Upper (defineProc cs) := by
  rw [defineProc.eq_1 cs]
  split
  · next h =>
    rw [defineProc.eq_1]
    split
    · exact .fail (.same _) List.nil_suffix
    · next h' => rw [skipBlank_upper_nil h] at h'; cases h'
  · next c r h =>
    have hr := length_lt_of_skipBlank_eq_cons h
    have hsuf := tail_suffix_of_skipBlank_eq_cons h
    rw [defineProc.eq_1 (cs.map Char.toUpper)]
    split
    · next h' => rw [skipBlank_upper_cons h] at h'; cases h'
    · next h' =>
      rw [skipBlank_upper_cons h] at h'
      cases h'
      simp only [toUpper_eq_iff (x := ')') (by decide)]
      by_cases hc : c = ')'
      · rw [if_pos hc, if_pos hc]
        exact .fail (.same _) (suffix_of_skipBlank_eq_cons h)
      rw [if_neg hc, if_neg hc]
      refine ((ih r hsuf hr).datum c (hq.head h)).elim (fun e e' r₁ h₁ h₁' hd hd' he hs₁ => ?_)
        (fun v r₁ h₁ h₁' hd hd' hs₁ => ?_)
      · rw [hd, hd']
        exact .fail he (hs₁.trans hsuf)
      rw [hd, hd']
      have hs₁' := hs₁.trans hsuf
      cases v
      case sym name =>
        dsimp only
        refine ((ih r₁ hs₁' (by omega)).params "define" []).elim
          (fun e e' r₂ h₂ h₂' hp hp' he hs₂ => ?_) (fun ps r₂ h₂ h₂' hp hp' hs₂ => ?_)
        · rw [hp, hp']
          exact .fail he (hs₂.trans hs₁')
        rw [hp, hp']
        dsimp only
        have hs₂' := hs₂.trans hs₁'
        refine ((ih r₂ hs₂' (by omega)).body "define").elim
          (fun e e' r₃ h₃ h₃' hb hb' he hs₃ => ?_) (fun b r₃ h₃ h₃' hb hb' hs₃ => ?_)
        · rw [hb, hb']
          exact .fail he (hs₃.trans hs₂')
        · rw [hb, hb']
          exact .ok _ (hs₃.trans hs₂')
      all_goals exact .fail (.same _) hs₁'

/-- A list reads the same way upper-cased: the head is the same datum on both sides, so both take
the same branch, and after `(define (` both go on to a procedure definition or neither does. -/
theorem list_upper : (list (cs.map Char.toUpper)).Upper (list cs) := by
  rw [list.eq_1 cs]
  split
  · next h =>
    rw [list.eq_1]
    split
    · exact .fail (.same _) List.nil_suffix
    · next h' => rw [skipBlank_upper_nil h] at h'; cases h'
  · next c r h =>
    have hr := length_lt_of_skipBlank_eq_cons h
    have hsuf := tail_suffix_of_skipBlank_eq_cons h
    rw [list.eq_1 (cs.map Char.toUpper)]
    split
    · next h' => rw [skipBlank_upper_cons h] at h'; cases h'
    · next h' =>
      rw [skipBlank_upper_cons h] at h'
      cases h'
      simp only [toUpper_eq_iff (x := ')') (by decide)]
      by_cases hc : c = ')'
      · rw [if_pos hc, if_pos hc]
        exact .ok _ hsuf
      rw [if_neg hc, if_neg hc]
      refine ((ih r hsuf hr).datum c (hq.head h)).elim (fun e e' r₁ h₁ h₁' hd hd' he hs₁ => ?_)
        (fun v r₁ h₁ h₁' hd hd' hs₁ => ?_)
      · rw [hd, hd']
        exact .fail he (hs₁.trans hsuf)
      rw [hd, hd']
      dsimp only
      have hs₁' := hs₁.trans hsuf
      have ih₁ := ih r₁ hs₁' (by omega)
      by_cases hlam : v.symbol? = some "LAMBDA"
      · rw [if_pos hlam, if_pos hlam]
        exact ih₁.lambda.widen hs₁'
      rw [if_neg hlam, if_neg hlam]
      by_cases hlet : v.symbol? = some "LET"
      · rw [if_pos hlet, if_pos hlet]
        exact ih₁.letForm.widen hs₁'
      rw [if_neg hlet, if_neg hlet]
      by_cases hdef : v.symbol? = some "DEFINE"
      · rw [if_pos hdef, if_pos hdef]
        split
        · next r₂' h₂' =>
          obtain ⟨d, r₂, h₂, hd, rfl⟩ := skipBlank_of_upper_eq_cons h₂'
          obtain rfl : d = '(' := (toUpper_eq_iff (by decide)).1 hd.symm
          split
          · next r₃ h₃ =>
            rw [h₂] at h₃
            cases h₃
            have hr₂ := length_lt_of_skipBlank_eq_cons h₂
            have hs₂ := (tail_suffix_of_skipBlank_eq_cons h₂).trans hs₁'
            exact (ih r₂ hs₂ (by omega)).defineProc.widen hs₂
          · next hno => exact (hno r₂ h₂).elim
        · next hno =>
          split
          · next r₂ h₂ => exact (hno _ (skipBlank_upper_cons h₂)).elim
          · exact (ih₁.listTail [v]).widen hs₁'
      rw [if_neg hdef, if_neg hdef]
      exact (ih₁.listTail [v]).widen hs₁'

omit hq in
theorem letForm_upper : (letForm (cs.map Char.toUpper)).Upper (letForm cs) := by
  rw [letForm.eq_1 cs]
  split
  · next h =>
    rw [letForm.eq_1]
    split
    · exact .fail (.same _) List.nil_suffix
    · next h' => rw [skipBlank_upper_nil h] at h'; cases h'
  · next c r h =>
    have hr := length_lt_of_skipBlank_eq_cons h
    have hsuf := tail_suffix_of_skipBlank_eq_cons h
    rw [letForm.eq_1 (cs.map Char.toUpper)]
    split
    · next h' => rw [skipBlank_upper_cons h] at h'; cases h'
    · next h' =>
      rw [skipBlank_upper_cons h] at h'
      cases h'
      simp only [toUpper_eq_iff (x := '(') (by decide)]
      by_cases hc : c = '('
      · rw [if_pos hc, if_pos hc]
        refine ((ih r hsuf hr).bindings [] []).elim
          (fun e e' r₁ h₁ h₁' hb hb' he hs₁ => ?_) (fun p r₁ h₁ h₁' hb hb' hs₁ => ?_)
        · rw [hb, hb']
          exact .fail he (hs₁.trans hsuf)
        obtain ⟨names, inits⟩ := p
        rw [hb, hb']
        dsimp only
        have hs₁' := hs₁.trans hsuf
        refine ((ih r₁ hs₁' (by omega)).body "let").elim
          (fun e e' r₂ h₂ h₂' hd hd' he hs₂ => ?_) (fun b r₂ h₂ h₂' hd hd' hs₂ => ?_)
        · rw [hd, hd']
          exact .fail he (hs₂.trans hs₁')
        · rw [hd, hd']
          exact .ok _ (hs₂.trans hs₁')
      · rw [if_neg hc, if_neg hc]
        exact .fail (.same _) hsuf

/-- The rest of a list reads the same way upper-cased. At a dotted end, blanks are skipped on the
upper-cased side first and the text's side is reduced at each end of the form; a dot that begins an
atom gives the same atom on both sides. -/
theorem listTail_upper (items : List Value) :
    (listTail items (cs.map Char.toUpper)).Upper (listTail items cs) := by
  rw [listTail.eq_1 items cs]
  split
  · next h =>
    rw [listTail.eq_1]
    split
    · exact .fail (.same _) List.nil_suffix
    · next h' => rw [skipBlank_upper_nil h] at h'; cases h'
  · next c r h =>
    have hr := length_lt_of_skipBlank_eq_cons h
    have hsuf := tail_suffix_of_skipBlank_eq_cons h
    rw [listTail.eq_1 items (cs.map Char.toUpper)]
    split
    · next h' => rw [skipBlank_upper_cons h] at h'; cases h'
    · next h' =>
      rw [skipBlank_upper_cons h] at h'
      cases h'
      simp only [toUpper_eq_iff (x := ')') (by decide), toUpper_eq_iff (x := '.') (by decide),
        atDelimiter_map_toUpper]
      by_cases hc : c = ')'
      · rw [if_pos hc, if_pos hc]
        exact .ok _ hsuf
      rw [if_neg hc, if_neg hc]
      by_cases hdot : c = '.'
      · rw [if_pos hdot, if_pos hdot]
        by_cases hat : atDelimiter r = true
        · rw [if_pos hat, if_pos hat]
          split
          · next h₂' =>
            split
            · exact .fail (.same _) List.nil_suffix
            · next c₂ r₂ h₂ => rw [skipBlank_upper_cons h₂] at h₂'; cases h₂'
          · next c₂' r₂' h₂' =>
            obtain ⟨c₂, r₂, h₂, rfl, rfl⟩ := skipBlank_of_upper_eq_cons h₂'
            have hr₂ := length_lt_of_skipBlank_eq_cons h₂
            have hs₂ := (tail_suffix_of_skipBlank_eq_cons h₂).trans hsuf
            refine ((ih r₂ hs₂ (by omega)).datum c₂ ((hq.suffix hsuf).head h₂)).elim
              (fun e e' r₃ h₃ h₃' hd hd' he hs₃ => ?_) (fun last r₃ h₃ h₃' hd hd' hs₃ => ?_)
            · rw [hd']
              dsimp only
              split
              · next h₄ => rw [h₂] at h₄; cases h₄
              · next h₄ =>
                rw [h₂] at h₄
                cases h₄
                rw [hd]
                exact .fail he (hs₃.trans hs₂)
            have hs₃' := hs₃.trans hs₂
            refine (expectClose_upper "dotted list" "expected ) after the tail" r₃).elim
              (fun e e' r₄ h₄ h₄' hc hc' he hs₄ => ?_) (fun u r₄ h₄ h₄' hc hc' hs₄ => ?_)
            · rw [hd']
              dsimp only
              rw [hc']
              dsimp only
              split
              · next h₅ => rw [h₂] at h₅; cases h₅
              · next h₅ =>
                rw [h₂] at h₅
                cases h₅
                rw [hd]
                dsimp only
                rw [hc]
                exact .fail he (hs₄.trans hs₃')
            · cases u
              rw [hd']
              dsimp only
              rw [hc']
              dsimp only
              split
              · next h₅ => rw [h₂] at h₅; cases h₅
              · next h₅ =>
                rw [h₂] at h₅
                cases h₅
                rw [hd]
                dsimp only
                rw [hc]
                exact .ok _ (hs₄.trans hs₃')
        · rw [if_neg hat, if_neg hat]
          have htext : atomText ['.'] (r.map Char.toUpper) =
              ((atomText ['.'] r).1.map Char.toUpper, (atomText ['.'] r).2.map Char.toUpper) :=
            atomText_map_toUpper ['.'] r
          have hs₂ := (atomText_suffix ['.'] r).trans hsuf
          have := length_atomText_le ['.'] r
          simp only [htext, classify_map_toUpper]
          exact .widen_of_eq (congrArg Prod.snd htext) ((ih _ hs₂ (by omega)).listTail _) hs₂
      rw [if_neg hdot, if_neg hdot]
      refine ((ih r hsuf hr).datum c (hq.head h)).elim (fun e e' r₁ h₁ h₁' hd hd' he hs₁ => ?_)
        (fun v r₁ h₁ h₁' hd hd' hs₁ => ?_)
      · rw [hd, hd']
        exact .fail he (hs₁.trans hsuf)
      · rw [hd, hd']
        exact ((ih r₁ (hs₁.trans hsuf) (by omega)).listTail _).widen (hs₁.trans hsuf)

theorem datum_upper (c : Char) (hc : c ≠ '\"') :
    (datum c.toUpper (cs.map Char.toUpper)).Upper (datum c cs) := by
  rw [datum.eq_1 c cs, datum.eq_1 c.toUpper]
  simp only [toUpper_eq_iff (x := '(') (by decide), toUpper_eq_iff (x := ')') (by decide),
    toUpper_eq_iff (x := '#') (by decide), toUpper_eq_iff (x := '\"') (by decide),
    toUpper_eq_iff (x := '\'') (by decide), toUpper_eq_iff (x := '\x60') (by decide),
    toUpper_eq_iff (x := '.') (by decide), isOperatorChar_toUpper, atDelimiter_map_toUpper]
  by_cases h₁ : c = '('
  · rw [if_pos h₁, if_pos h₁]
    exact list_upper hq ih
  rw [if_neg h₁, if_neg h₁]
  by_cases h₂ : c = ')'
  · rw [if_pos h₂, if_pos h₂]
    exact .fail (.same _) (List.suffix_refl cs)
  rw [if_neg h₂, if_neg h₂]
  by_cases h₃ : c = '#'
  · rw [if_pos h₃, if_pos h₃]
    exact hash_upper hq ih
  rw [if_neg h₃, if_neg h₃, if_neg hc, if_neg hc]
  by_cases h₄ : c = '\''
  · rw [if_pos h₄, if_pos h₄]
    exact quote_upper hq ih "QUOTE"
  rw [if_neg h₄, if_neg h₄]
  by_cases h₅ : c = '\x60'
  · rw [if_pos h₅, if_pos h₅]
    exact quote_upper hq ih "QUASIQUOTE"
  rw [if_neg h₅, if_neg h₅]
  by_cases h₆ : isOperatorChar c = true
  · rw [if_pos h₆, if_pos h₆]
    exact operator_upper h₆ cs
  rw [if_neg h₆, if_neg h₆]
  by_cases h₇ : c = '.' ∧ atDelimiter cs = true
  · rw [if_pos h₇, if_pos h₇]
    exact .fail (.same _) (List.suffix_refl cs)
  rw [if_neg h₇, if_neg h₇]
  exact atom_upper [c] cs

end Step

/-- **Every reading function ignores letter case** on an unquoted text: by induction on the length of
the text. -/
theorem caseBlind (cs : List Char) (hq : Unquoted cs) : CaseBlind cs :=
  have ih : ∀ r : List Char, r <:+ cs → r.length < cs.length → CaseBlind r :=
    fun r hr _ => caseBlind r (hq.suffix hr)
  { datum := datum_upper hq ih
    list := list_upper hq ih
    listTail := listTail_upper hq ih
    hash := hash_upper hq ih
    vector := vector_upper hq ih
    quote := quote_upper hq ih
    lambda := lambda_upper ih
    params := params_upper hq ih
    body := body_upper hq ih
    defineProc := defineProc_upper hq ih
    letForm := letForm_upper ih
    bindings := bindings_upper hq ih }
termination_by cs.length

/-! ### Every datum of a text -/

/-- The data of the upper-cased text are those of the text, and reading stops at an error of the same
kind, or at neither: one datum at a time, by induction on the length of the text. -/
theorem all_upper (cs : List Char) (hq : Unquoted cs) :
    (all (cs.map Char.toUpper)).1 = (all cs).1 ∧
      Option.Rel ReadError.CaseVariant (all cs).2 (all (cs.map Char.toUpper)).2 := by
  cases hs : skipBlank cs with
  | nil =>
    rw [all_of_nil hs, all_of_nil (skipBlank_upper_nil hs)]
    exact ⟨rfl, .none⟩
  | cons c r =>
    have hr := length_lt_of_skipBlank_eq_cons hs
    have hsuf := tail_suffix_of_skipBlank_eq_cons hs
    have hs' := skipBlank_upper_cons hs
    refine ((caseBlind r (hq.suffix hsuf)).datum c (hq.head hs)).elim
      (fun e e' r₁ h₁ h₁' hd hd' he _ => ?_) (fun v r₁ h₁ h₁' hd hd' hs₁ => ?_)
    · rw [all_of_error hs (by rw [hd]), all_of_error hs' (by rw [hd'])]
      exact ⟨rfl, .some he⟩
    · rw [all_of_ok hs (Step.Reads.of_eq hd), all_of_ok hs' (Step.Reads.of_eq hd')]
      have hlt : r₁.length < cs.length := by omega
      obtain ⟨hvals, herr⟩ := all_upper r₁ (hq.suffix (hs₁.trans hsuf))
      exact ⟨by rw [hvals], herr⟩
termination_by cs.length

/-- **Reading ignores letter case outside literals.** In a text with no double quote and no backslash,
so with no string and no character literal, upper-casing every letter leaves every datum read the
same; reading stops at an error on the one text exactly when it does on the other, and the two errors
are the same but for a `#` followed by a lower-case letter, which the second names in upper case. -/
theorem all_ignores_letter_case (s : String) (hq : '\"' ∉ s.toList) (hb : '\\' ∉ s.toList) :
    (all (s.map Char.toUpper).toList).1 = (all s.toList).1 ∧
      Option.Rel ReadError.CaseVariant (all s.toList).2 (all (s.map Char.toUpper).toList).2 := by
  rw [String.toList_map]
  exact all_upper s.toList ⟨hq, hb⟩

/-- A definition, a hexadecimal numeral and a malformed `#` read alike in either case. -/
theorem define_and_hex_read_alike_upper_cased :
    (all ("(define (f x) (+ x #x1f)) #q".map Char.toUpper).toList).1 =
        (all "(define (f x) (+ x #x1f)) #q".toList).1 ∧
      Option.Rel ReadError.CaseVariant (all "(define (f x) (+ x #x1f)) #q".toList).2
        (all ("(define (f x) (+ x #x1f)) #q".map Char.toUpper).toList).2 :=
  all_ignores_letter_case _ (by decide) (by decide)

end Read

end MiniScheme
