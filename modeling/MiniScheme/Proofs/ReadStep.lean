import MiniScheme.Read.Datum
/-!
# The reader, one step at a time

The reader's functions start by skipping blanks and comments, then look at the next character. The
lemmas here unfold each of them once, for one branch, with what `skipBlank` leaves as the
hypothesis: later proofs follow the text through these lemmas and never unfold a reader function
themselves. `Step.Reads st a r` says that the step `st` succeeded with `a` and left `r`; since the
rest of a step carries only a proof besides, this pins the step down (`Step.Reads.eq`).
-/

namespace MiniScheme.Read

/-- The step succeeded with `a` and left the text `r`. -/
def Step.Reads {s : List Char} {α : Type} (st : Step s α) (a : α) (r : List Char) : Prop :=
  st.result = .ok a ∧ st.rest = r

theorem Step.Reads.eq {s : List Char} {α : Type} {st : Step s α} {a : α} {r : List Char}
    (h : st.Reads a r) : st = ⟨.ok a, r, h.2 ▸ st.rest_le⟩ := by
  obtain ⟨res, rest, hle⟩ := st
  obtain ⟨h1, h2⟩ := h
  simp only at h1 h2
  subst h1 h2
  rfl

theorem Step.eta {s : List Char} {α : Type} (st : Step s α) : st = ⟨st.result, st.rest, st.rest_le⟩ :=
  rfl

@[simp] theorem Step.reads_widen {s t : List Char} {α : Type} (h : t.length ≤ s.length)
    (st : Step t α) (a : α) (r : List Char) : (st.widen h).Reads a r ↔ st.Reads a r :=
  Iff.rfl

@[simp] theorem Step.reads_ok {s : List Char} {α : Type} (a : α) (r : List Char)
    (h : r.length ≤ s.length) : (Step.ok a r h : Step s α).Reads a r :=
  ⟨rfl, rfl⟩

theorem Step.not_reads_fail {s : List Char} {α : Type} {e : ReadError} {r r' : List Char}
    {h : r.length ≤ s.length} {a : α} : ¬ (Step.fail e r h : Step s α).Reads a r' :=
  fun h' => nomatch h'.1

theorem Step.Reads.of_ok {s : List Char} {α : Type} {a b : α} {r r' : List Char}
    {h : r.length ≤ s.length} (hr : (Step.ok b r h : Step s α).Reads a r') : b = a ∧ r = r' := by
  obtain ⟨h₁, h₂⟩ := hr
  exact ⟨Except.ok.inj h₁, h₂⟩

theorem Step.Reads.of_eq {s : List Char} {α : Type} {st : Step s α} {a : α} {r : List Char}
    {h : r.length ≤ s.length} (heq : st = ⟨.ok a, r, h⟩) : st.Reads a r := by
  subst heq
  exact ⟨rfl, rfl⟩

/-! ### Blanks -/

theorem skipBlank_of_not_blank {c : Char} (r : List Char) (hb : isBlank c = false) (hs : c ≠ ';') :
    skipBlank (c :: r) = c :: r := by
  simp [skipBlank, hb, hs]

@[simp] theorem skipBlank_space (r : List Char) : skipBlank (' ' :: r) = skipBlank r := by
  simp [skipBlank, isBlank]

mutual
/-- The text after its blanks starts with no blank. -/
theorem skipBlank_skipBlank : ∀ cs : List Char, skipBlank (skipBlank cs) = skipBlank cs
  | [] => by simp [skipBlank]
  | c :: cs => by
    by_cases hb : isBlank c = true
    · have h : skipBlank (c :: cs) = skipBlank cs := by simp [skipBlank, hb]
      rw [h]
      exact skipBlank_skipBlank cs
    · by_cases hs : c = ';'
      · have h : skipBlank (c :: cs) = skipComment cs := by subst hs; simp [skipBlank, isBlank]
        rw [h]
        exact skipComment_skipBlank cs
      · rw [skipBlank_of_not_blank cs (by simpa using hb) hs]
        exact skipBlank_of_not_blank cs (by simpa using hb) hs

theorem skipComment_skipBlank : ∀ cs : List Char, skipBlank (skipComment cs) = skipComment cs
  | [] => by simp [skipComment, skipBlank]
  | c :: cs => by
    by_cases hn : c = '\n'
    · simp only [skipComment, hn, if_true]
      exact skipBlank_skipBlank cs
    · simp only [skipComment, hn, if_false]
      exact skipComment_skipBlank cs
end

/-! ### Atoms -/

/-- The text of an atom runs to the first delimiter. -/
theorem atomText_append (tok : List Char) {cs rest : List Char}
    (hcs : ∀ c ∈ cs, isDelimiter c = false) (hr : atDelimiter rest = true) :
    atomText tok (cs ++ rest) = (tok ++ cs, rest) := by
  have hpos : ∀ c ∈ cs, (!isDelimiter c) = true := fun c hc => by simp [hcs c hc]
  have hrest : rest.takeWhile (fun c => !isDelimiter c) = [] ∧
      rest.dropWhile (fun c => !isDelimiter c) = rest := by
    cases rest <;> simp_all [atDelimiter]
  simp [atomText, List.takeWhile_append_of_pos hpos, List.dropWhile_append_of_pos hpos, hrest]

theorem atom_reads (tok : List Char) {cs rest : List Char} (hcs : ∀ c ∈ cs, isDelimiter c = false)
    (hr : atDelimiter rest = true) : (atom tok (cs ++ rest)).Reads (classify (tok ++ cs)) rest := by
  simp [atom, Step.Reads, Step.ok, atomText_append tok hcs hr]

/-- An operator token ends at a delimiter as a symbol, and otherwise starts an atom; either way
`tok ++ cs` is classified, when the lone token is classified as its symbol. -/
theorem operatorEnd_reads {tok cs rest : List Char} (hcs : ∀ c ∈ cs, isDelimiter c = false)
    (hr : atDelimiter rest = true) (htok : classify tok = .sym (Text.upper (String.ofList tok))) :
    (operatorEnd tok (cs ++ rest)).Reads (classify (tok ++ cs)) rest := by
  unfold operatorEnd
  cases cs with
  | nil => simp [hr, htok, Step.Reads, Step.ok]
  | cons c cs =>
    have hc : isDelimiter c = false := hcs c List.mem_cons_self
    have hat : atDelimiter (c :: (cs ++ rest)) = false := by simp [atDelimiter, hc]
    rw [if_neg (by simp [hat])]
    exact atom_reads tok hcs hr

theorem classify_of_not_numeral {tok : List Char} (hi : integerLiteral tok = none)
    (hd : decimalLiteral tok = none) : classify tok = .sym (Text.upper (String.ofList tok)) := by
  simp [classify, hi, hd]

/-- An operator character starts a symbol or an atom, and either way the whole token is
classified. -/
theorem operator_reads {c : Char} {cs rest : List Char} (hop : isOperatorChar c = true)
    (hcs : ∀ d ∈ cs, isDelimiter d = false) (hr : atDelimiter rest = true) :
    (operator c (cs ++ rest)).Reads (classify (c :: cs)) rest := by
  have hone : classify [c] = .sym (Text.upper (String.ofList [c])) := by
    simp only [isOperatorChar, Bool.or_eq_true, decide_eq_true_eq] at hop
    apply classify_of_not_numeral <;>
      rcases hop with (((((rfl | rfl) | rfl) | rfl) | rfl) | rfl) | rfl <;> decide
  by_cases hle : (c = '<' ∨ c = '>') ∧ ∃ r, cs ++ rest = '=' :: r
  · obtain ⟨hc, r, h⟩ := hle
    cases cs with
    | nil => subst h; simp [atDelimiter, isDelimiter, isBlank] at hr
    | cons d cs' =>
      simp only [List.cons_append, List.cons.injEq] at h
      obtain ⟨rfl, rfl⟩ := h
      have hcs' : ∀ x ∈ cs', isDelimiter x = false := fun x hx => hcs x (List.mem_cons_of_mem _ hx)
      rcases hc with rfl | rfl
      · rw [List.cons_append, operator.eq_1]
        exact operatorEnd_reads hcs' hr (classify_of_not_numeral (by decide) (by decide))
      · rw [List.cons_append, operator.eq_2]
        exact operatorEnd_reads hcs' hr (classify_of_not_numeral (by decide) (by decide))
  · rw [operator.eq_3 c _ (fun r h1 h2 => hle ⟨.inl h1, r, h2⟩) (fun r h1 h2 => hle ⟨.inr h1, r, h2⟩)]
    exact operatorEnd_reads hcs hr hone

/-- A token that starts with none of the characters that open another kind of datum is read as
an atom: it is classified whole. -/
theorem datum_token {c : Char} {cs rest : List Char} (htok : ∀ d ∈ c :: cs, isDelimiter d = false)
    (hc : c ≠ '#' ∧ c ≠ '"' ∧ c ≠ '\'' ∧ c ≠ '\x60') (hdot : cs = [] → c ≠ '.')
    (hr : atDelimiter rest = true) : (datum c (cs ++ rest)).Reads (classify (c :: cs)) rest := by
  have hcd : isDelimiter c = false := htok c List.mem_cons_self
  have hcs : ∀ d ∈ cs, isDelimiter d = false := fun d hd => htok d (List.mem_cons_of_mem c hd)
  have hlp : c ≠ '(' := by rintro rfl; simp [isDelimiter] at hcd
  have hrp : c ≠ ')' := by rintro rfl; simp [isDelimiter] at hcd
  obtain ⟨h1, h2, h3, h4⟩ := hc
  rw [datum, if_neg hlp, if_neg hrp, if_neg h1, if_neg h2, if_neg h3, if_neg h4]
  by_cases hop : isOperatorChar c = true
  · rw [if_pos hop]
    exact operator_reads hop hcs hr
  · rw [if_neg hop]
    have hnd : ¬(c = '.' ∧ atDelimiter (cs ++ rest) = true) := by
      rintro ⟨rfl, hat⟩
      cases cs with
      | nil => exact hdot rfl rfl
      | cons d cs' => simp [atDelimiter, hcs d List.mem_cons_self] at hat
    rw [if_neg hnd]
    exact atom_reads [c] hcs hr

@[simp] theorem datum_lparen (cs : List Char) : datum '(' cs = list cs := by
  rw [datum]; simp

@[simp] theorem datum_hash (cs : List Char) : datum '#' cs = hash cs := by
  rw [datum]; simp

@[simp] theorem datum_dquote (cs : List Char) : datum '"' cs = string cs := by
  rw [datum]; simp

/-! ### Hash data and strings -/

theorem hash_true (r : List Char) : (hash ('T' :: r)).Reads (.bool true) r := by
  cases r <;> simp [hash, Step.Reads, Step.ok]

theorem hash_false (r : List Char) : (hash ('F' :: r)).Reads (.bool false) r := by
  cases r <;> simp [hash, Step.Reads, Step.ok]

theorem hash_char (c : Char) (r : List Char) : (hash ('\\' :: c :: r)).Reads (.char c) r := by
  simp [hash, Step.Reads, Step.ok]

theorem hash_vector {d : Char} {r r' : List Char} {w : Value} :
    (hash ('(' :: d :: r)).Reads w r' ↔ (vector [] (d :: r)).Reads w r' := by
  simp [hash]

theorem string_reads {s : List Char} (hs : '"' ∉ s) (r : List Char) :
    (string (s ++ '"' :: r)).Reads (.str (String.ofList s)) r := by
  have hpos : ∀ c ∈ s, decide (c ≠ '"') = true := fun c hc =>
    decide_eq_true fun h => hs (h ▸ hc)
  have hd : (s ++ '"' :: r).dropWhile (· ≠ '"') = '"' :: r := by
    rw [List.dropWhile_append_of_pos hpos]
    simp
  have ht : (s ++ '"' :: r).takeWhile (· ≠ '"') = s := by
    rw [List.takeWhile_append_of_pos hpos]
    simp
  unfold string
  split
  · rename_i h
    rw [hd] at h
    cases h
  · rename_i c r' h
    rw [hd] at h
    injection h with _ h2
    subst h2
    rw [ht]
    exact ⟨rfl, rfl⟩

/-! ### Lists -/

theorem list_nil {cs r : List Char} (h : skipBlank cs = ')' :: r) : (list cs).Reads .nil r := by
  rw [list]
  split
  · next h' => rw [h] at h'; cases h'
  · next c r' h' =>
    rw [h] at h'
    cases h'
    simp

/-- A list whose head is no `lambda` or `let`, and no `define` before a parenthesis, is read as its
elements. -/
theorem list_head {cs r r₁ : List Char} {c : Char} {x : Value} (h : skipBlank cs = c :: r)
    (hc : c ≠ ')') (hd : (datum c r).Reads x r₁) (hlam : x.symbol? ≠ some "LAMBDA")
    (hlet : x.symbol? ≠ some "LET") (hdef : x.symbol? = some "DEFINE" → ∀ r₂, skipBlank r₁ ≠ '(' :: r₂)
    {w : Value} {r' : List Char} : (list cs).Reads w r' ↔ (listTail [x] r₁).Reads w r' := by
  rw [list]
  split
  · next h' => rw [h] at h'; cases h'
  · next c' r₀ h' =>
    rw [h] at h'
    cases h'
    rw [if_neg hc, hd.eq]
    simp only [if_neg hlam, if_neg hlet]
    by_cases hx : x.symbol? = some "DEFINE"
    · rw [if_pos hx]
      split
      · rename_i r₂ h₂
        exact absurd h₂ (hdef hx r₂)
      · exact Iff.rfl
    · rw [if_neg hx]
      exact Iff.rfl

theorem list_lambda {cs r r₁ : List Char} {c : Char} {x : Value} (h : skipBlank cs = c :: r)
    (hc : c ≠ ')') (hd : (datum c r).Reads x r₁) (hlam : x.symbol? = some "LAMBDA")
    {w : Value} {r' : List Char} : (list cs).Reads w r' ↔ (lambda r₁).Reads w r' := by
  rw [list]
  split
  · next h' => rw [h] at h'; cases h'
  · next c' r₀ h' =>
    rw [h] at h'
    cases h'
    rw [if_neg hc, hd.eq]
    simp only [if_pos hlam]
    exact Iff.rfl

theorem listTail_close {acc : List Value} {cs r : List Char} (h : skipBlank cs = ')' :: r) :
    (listTail acc cs).Reads (Value.ofList 0 acc.reverse) r := by
  rw [listTail]
  split
  · next h' => rw [h] at h'; cases h'
  · next c r' h' =>
    rw [h] at h'
    cases h'
    simp

theorem listTail_item {acc : List Value} {cs r r₁ : List Char} {c : Char} {v : Value}
    (h : skipBlank cs = c :: r) (hc : c ≠ ')') (hdot : c ≠ '.') (hd : (datum c r).Reads v r₁)
    {w : Value} {r' : List Char} :
    (listTail acc cs).Reads w r' ↔ (listTail (v :: acc) r₁).Reads w r' := by
  rw [listTail]
  split
  · next h' => rw [h] at h'; cases h'
  · next c' r₀ h' =>
    rw [h] at h'
    cases h'
    rw [if_neg hc, if_neg hdot, hd.eq]
    exact Iff.rfl

/-- Inside a list, a dot that starts an atom is read as that atom. -/
theorem listTail_dotAtom {acc : List Value} {cs r : List Char} (h : skipBlank cs = '.' :: r)
    (hr : atDelimiter r = false) {w : Value} {r' : List Char} :
    (listTail acc cs).Reads w r' ↔
      (listTail (classify (atomText ['.'] r).1 :: acc) (atomText ['.'] r).2).Reads w r' := by
  rw [listTail]
  split
  · next h' => rw [h] at h'; cases h'
  · next c r₀ h' =>
    rw [h] at h'
    cases h'
    rw [if_neg (by decide : ('.' : Char) ≠ ')'), if_pos rfl, if_neg (by simp [hr])]
    exact Iff.rfl

theorem listTail_dotted {acc : List Value} {cs r r₂ r₃ r₄ : List Char} {c₂ : Char} {last : Value}
    (h : skipBlank cs = '.' :: r) (hr : atDelimiter r = true) (h₂ : skipBlank r = c₂ :: r₂)
    (hd : (datum c₂ r₂).Reads last r₃)
    (hcl : (expectClose "dotted list" "expected ) after the tail" r₃).Reads () r₄) :
    (listTail acc cs).Reads (Value.dotted 0 last acc.reverse) r₄ := by
  rw [listTail]
  split
  · next h' => rw [h] at h'; cases h'
  · next c r₀ h' =>
    rw [h] at h'
    cases h'
    rw [if_neg (by decide : ('.' : Char) ≠ ')'), if_pos rfl, if_pos hr]
    split
    · next h'' => rw [h₂] at h''; cases h''
    · next c' r' h'' =>
      rw [h₂] at h''
      cases h''
      rw [hd.eq]
      simp only
      rw [hcl.eq]
      simp

theorem expectClose_close {form reason : String} {cs r : List Char} (h : skipBlank cs = ')' :: r) :
    (expectClose form reason cs).Reads () r := by
  rw [expectClose]
  split
  · next h' => rw [h] at h'; cases h'
  · next c r' h' =>
    rw [h] at h'
    cases h'
    simp

/-! ### Vectors -/

theorem vector_close {acc : List Value} {cs r : List Char} (h : skipBlank cs = ')' :: r) :
    (vector acc cs).Reads (.vector acc.reverse) r := by
  rw [vector]
  split
  · next h' => rw [h] at h'; cases h'
  · next c r' h' =>
    rw [h] at h'
    cases h'
    simp

theorem vector_item {acc : List Value} {cs r r₁ : List Char} {c : Char} {v : Value}
    (h : skipBlank cs = c :: r) (hc : c ≠ ')') (hd : (datum c r).Reads v r₁) {w : Value}
    {r' : List Char} : (vector acc cs).Reads w r' ↔ (vector (v :: acc) r₁).Reads w r' := by
  rw [vector]
  split
  · next h' => rw [h] at h'; cases h'
  · next c' r₀ h' =>
    rw [h] at h'
    cases h'
    rw [if_neg hc, hd.eq]
    exact Iff.rfl

/-! ### Lambda forms -/

theorem params_close {form : String} {acc : List String} {cs r : List Char}
    (h : skipBlank cs = ')' :: r) : (params form acc cs).Reads acc.reverse r := by
  rw [params]
  split
  · next h' => rw [h] at h'; cases h'
  · next c r' h' =>
    rw [h] at h'
    cases h'
    simp

theorem params_sym {form : String} {acc : List String} {cs r r₁ : List Char} {c : Char}
    {s : String} (h : skipBlank cs = c :: r) (hc : c ≠ ')') (hd : (datum c r).Reads (.sym s) r₁)
    {w : List String} {r' : List Char} :
    (params form acc cs).Reads w r' ↔ (params form (s :: acc) r₁).Reads w r' := by
  rw [params]
  split
  · next h' => rw [h] at h'; cases h'
  · next c' r₀ h' =>
    rw [h] at h'
    cases h'
    rw [if_neg hc, hd.eq]
    exact Iff.rfl

theorem body_reads {form : String} {cs r r₁ r₂ : List Char} {c : Char} {b : Value}
    (h : skipBlank cs = c :: r) (hc : c ≠ ')') (hd : (datum c r).Reads b r₁)
    (hcl : (expectClose form bodyReason r₁).Reads () r₂) : (body form cs).Reads b r₂ := by
  rw [body]
  split
  · next h' => rw [h] at h'; cases h'
  · next c' r₀ h' =>
    rw [h] at h'
    cases h'
    rw [if_neg hc, hd.eq]
    simp only
    rw [hcl.eq]
    simp

theorem lambda_reads {cs r r₁ r₂ : List Char} {ps : List String} {b : Value}
    (h : skipBlank cs = '(' :: r) (hp : (params "lambda" [] r).Reads ps r₁)
    (hb : (body "lambda" r₁).Reads b r₂) : (lambda cs).Reads (.closure 0 ps b none) r₂ := by
  rw [lambda]
  split
  · next h' => rw [h] at h'; cases h'
  · next c r' h' =>
    rw [h] at h'
    cases h'
    simp only [if_true]
    rw [hp.eq]
    simp only
    rw [hb.eq]
    simp

/-! ### A whole datum -/

theorem form_reads {cs r : List Char} {c : Char} (h : skipBlank cs = c :: r) {v : Value}
    {r' : List Char} : (form cs).Reads v r' ↔ (datum c r).Reads v r' := by
  rw [form]
  split
  · next h' => rw [h] at h'; cases h'
  · next c' r₀ h' =>
    rw [h] at h'
    cases h'
    exact Iff.rfl

end MiniScheme.Read
