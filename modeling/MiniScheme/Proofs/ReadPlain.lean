import MiniScheme.Proofs.Leaves
import MiniScheme.Read.Datum
import Mathlib.Tactic.SplitIfs
/-!
# The reader gives plain data

Text spells atoms, lists, vectors and the closures of `lambda` forms, and nothing else: no datum the
reader gives holds an error or a frame (`Value.Plain`). A failed read is an error of the step, never
a value inside a datum.

The reading functions call each other on shorter texts, or go from `datum` to a list, a vector, a
quotation or a `#` form on the same text. So `ReadsPlain cs` gathers what every reading function
gives on the text `cs`, each lemma below proves one function's part from `ReadsPlain` of the shorter
texts, and `readsPlain` ties them together by induction on the length of the text.
-/

namespace MiniScheme.Read

open Value

/-- Every result the step gives passes `P`. -/
def Step.Yields {s : List Char} {α : Type} (P : α → Prop) (st : Step s α) : Prop :=
  ∀ a, st.result = .ok a → P a

section Steps
variable {s t : List Char} {α : Type} {P : α → Prop}

theorem Step.yields_ok {a : α} {r : List Char} {h : r.length ≤ s.length} (ha : P a) :
    (Step.ok a r h : Step s α).Yields P := by
  intro b hb
  simp only [Step.ok, Except.ok.injEq] at hb
  exact hb ▸ ha

theorem Step.yields_fail {e : ReadError} {r : List Char} {h : r.length ≤ s.length} :
    (Step.fail e r h : Step s α).Yields P := by
  intro b hb
  simp [Step.fail] at hb

theorem Step.Yields.widen {st : Step t α} (hy : st.Yields P) (h : t.length ≤ s.length) :
    (st.widen h).Yields P :=
  hy

theorem Step.Yields.of_eq {st : Step s α} {res : Except ReadError α} {r : List Char}
    {h : r.length ≤ s.length} (hy : st.Yields P) (heq : st = ⟨res, r, h⟩) {a : α}
    (ha : res = .ok a) : P a :=
  hy a (by rw [heq, ha])

end Steps

/-! ### Atoms -/

theorem plain_classify (token : List Char) : (classify token).Plain := by
  unfold classify
  split
  · exact Leaves.leaf rfl ⟨rfl, rfl⟩
  · split
    · exact Leaves.leaf rfl ⟨rfl, rfl⟩
    · exact Leaves.leaf rfl ⟨rfl, rfl⟩

theorem atom_plain (tok cs : List Char) : (atom tok cs).Yields Plain :=
  Step.yields_ok (plain_classify _)

theorem string_plain (cs : List Char) : (string cs).Yields Plain := by
  rw [string]
  split
  · exact Step.yields_fail
  · exact Step.yields_ok (Leaves.leaf rfl ⟨rfl, rfl⟩)

theorem operatorEnd_plain (tok r : List Char) : (operatorEnd tok r).Yields Plain := by
  unfold operatorEnd
  split
  · exact Step.yields_ok (Leaves.leaf rfl ⟨rfl, rfl⟩)
  · exact atom_plain tok r

theorem operator_plain (c : Char) (cs : List Char) : (operator c cs).Yields Plain := by
  by_cases hlt : c = '<' ∧ ∃ r, cs = '=' :: r
  · obtain ⟨rfl, r, rfl⟩ := hlt
    rw [operator.eq_1]
    exact (operatorEnd_plain _ _).widen _
  · by_cases hgt : c = '>' ∧ ∃ r, cs = '=' :: r
    · obtain ⟨rfl, r, rfl⟩ := hgt
      rw [operator.eq_2]
      exact (operatorEnd_plain _ _).widen _
    · rw [operator.eq_3 c cs (fun r h₁ h₂ => hlt ⟨h₁, r, h₂⟩) (fun r h₁ h₂ => hgt ⟨h₁, r, h₂⟩)]
      exact operatorEnd_plain _ _

/-! ### Lists -/

theorem plain_nil : nil.Plain :=
  Leaves.leaf rfl ⟨rfl, rfl⟩

theorem plain_ofList (a : Nat) {xs : List Value} (hxs : ∀ x ∈ xs, x.Plain) : (ofList a xs).Plain :=
  leaves_ofList a ⟨rfl, rfl⟩ hxs

theorem plain_reverse {xs : List Value} (hxs : ∀ x ∈ xs, x.Plain) : ∀ x ∈ xs.reverse, x.Plain :=
  fun x hx => hxs x (List.mem_reverse.mp hx)

/-- The elements of a proper list pass when the list does. -/
theorem Leaves.listItems {p : Value → Prop} {v : Value} {xs : List Value} (h : v.Leaves p)
    (hl : v.listItems? = some xs) : ∀ x ∈ xs, x.Leaves p := by
  cases v with
  | nil =>
    simp only [listItems?, Option.some.injEq] at hl
    simp [← hl]
  | cons a x d =>
    simp only [listItems?] at hl
    split at hl
    · cases hl
      exact h.items
    · cases hl
  | _ => simp [listItems?] at hl

/-! ### The reading functions -/

/-- Every reading function, started on the text `cs`, gives only plain data. -/
structure ReadsPlain (cs : List Char) : Prop where
  datum : ∀ c, (datum c cs).Yields Plain
  list : (list cs).Yields Plain
  listTail : ∀ items : List Value, (∀ x ∈ items, x.Plain) → (listTail items cs).Yields Plain
  hash : (hash cs).Yields Plain
  vector : ∀ items : List Value, (∀ x ∈ items, x.Plain) → (vector items cs).Yields Plain
  quote : ∀ keyword, (quote keyword cs).Yields Plain
  lambda : (lambda cs).Yields Plain
  body : ∀ form, (body form cs).Yields Plain
  defineProc : (defineProc cs).Yields Plain
  letForm : (letForm cs).Yields Plain
  bindings : ∀ names inits, (∀ x ∈ inits, x.Plain) →
    (bindings names inits cs).Yields fun r => ∀ x ∈ r.2, x.Plain

section Functions
variable {cs : List Char} (ih : ∀ r : List Char, r.length < cs.length → ReadsPlain r)
include ih

theorem list_plain : (list cs).Yields Plain := by
  rw [list]
  split
  · exact Step.yields_fail
  · next c r h =>
    have hr := length_lt_of_skipBlank_eq_cons h
    split
    · exact Step.yields_ok plain_nil
    · split
      · exact Step.yields_fail
      · next head r₁ h₁ hd =>
        have hhead : head.Plain := (ih r hr).datum c |>.of_eq hd rfl
        have ih₁ := ih r₁ (by omega)
        split
        · exact ih₁.lambda
        · split
          · exact ih₁.letForm
          · split
            · split
              · next r₂ h₂ =>
                have := length_lt_of_skipBlank_eq_cons h₂
                exact (ih r₂ (by omega)).defineProc
              · exact ih₁.listTail [head] (List.forall_mem_cons.2 ⟨hhead, by simp⟩)
            · exact ih₁.listTail [head] (List.forall_mem_cons.2 ⟨hhead, by simp⟩)

/-- The rest of a list read after plain elements is plain: a token that starts with a dot is an
element like any other. -/
theorem listTail_plain {items : List Value} (hitems : ∀ x ∈ items, x.Plain) :
    (listTail items cs).Yields Plain := by
  rw [listTail]
  split
  · exact Step.yields_fail
  · next c r h =>
    have hr := length_lt_of_skipBlank_eq_cons h
    split
    · exact Step.yields_ok (plain_ofList 0 (plain_reverse hitems))
    · split
      · split
        · split
          · exact Step.yields_fail
          · next c₂ r₂ h₂ =>
            have hr₂ := length_lt_of_skipBlank_eq_cons h₂
            split
            · exact Step.yields_fail
            · next last r₃ h₃ hd =>
              have hlast : last.Plain := (ih r₂ (by omega)).datum c₂ |>.of_eq hd rfl
              split
              · exact Step.yields_fail
              · exact Step.yields_ok (leaves_dotted 0 ⟨rfl, rfl⟩ hlast (plain_reverse hitems))
        · have := length_atomText_le ['.'] r
          exact ((ih _ (by omega)).listTail _ (List.forall_mem_cons.2 ⟨plain_classify _, hitems⟩)).widen _
      · split
        · exact Step.yields_fail
        · next v r₁ h₁ hd =>
          have hv : v.Plain := (ih r hr).datum c |>.of_eq hd rfl
          exact (ih r₁ (by omega)).listTail _ (List.forall_mem_cons.2 ⟨hv, hitems⟩)

theorem vector_plain {items : List Value} (hitems : ∀ x ∈ items, x.Plain) :
    (vector items cs).Yields Plain := by
  rw [vector]
  split
  · exact Step.yields_fail
  · next c r h =>
    have hr := length_lt_of_skipBlank_eq_cons h
    split
    · exact Step.yields_ok (Leaves.vector (plain_reverse hitems))
    · split
      · exact Step.yields_fail
      · next v r₁ h₁ hd =>
        have hv : v.Plain := (ih r hr).datum c |>.of_eq hd rfl
        exact (ih r₁ (by omega)).vector _ (List.forall_mem_cons.2 ⟨hv, hitems⟩)

theorem hash_plain : (hash cs).Yields Plain := by
  rw [hash.eq_def]
  split
  · exact Step.yields_fail
  · split_ifs
    · exact Step.yields_ok (Leaves.leaf rfl ⟨rfl, rfl⟩)
    · exact Step.yields_ok (Leaves.leaf rfl ⟨rfl, rfl⟩)
    · exact Step.yields_fail
    · exact (ih [] (by simp)).vector [] (by simp)
    · exact Step.yields_fail
  · next d r =>
    split_ifs
    · exact Step.yields_ok (Leaves.leaf rfl ⟨rfl, rfl⟩)
    · exact Step.yields_ok (Leaves.leaf rfl ⟨rfl, rfl⟩)
    · exact Step.yields_ok (Leaves.leaf rfl ⟨rfl, rfl⟩)
    · exact (ih (d :: r) (by simp)).vector [] (by simp)
    · exact Step.yields_fail

theorem quote_plain (keyword : String) : (quote keyword cs).Yields Plain := by
  rw [quote]
  split
  · exact Step.yields_fail
  · next c r h =>
    have hr := length_lt_of_skipBlank_eq_cons h
    split
    · exact Step.yields_fail
    · next v r₁ h₁ hd =>
      have hv : v.Plain := (ih r hr).datum c |>.of_eq hd rfl
      have hsym : (sym keyword).Plain := Leaves.leaf rfl ⟨rfl, rfl⟩
      exact Step.yields_ok (plain_ofList 0 (by simp [hsym, hv]))

theorem body_plain (form : String) : (body form cs).Yields Plain := by
  rw [body]
  split
  · exact Step.yields_fail
  · next c r h =>
    have hr := length_lt_of_skipBlank_eq_cons h
    split
    · exact Step.yields_fail
    · split
      · exact Step.yields_fail
      · next b r₁ h₁ hd =>
        have hb : b.Plain := (ih r hr).datum c |>.of_eq hd rfl
        split
        · exact Step.yields_fail
        · exact Step.yields_ok hb

theorem lambda_plain : (lambda cs).Yields Plain := by
  rw [lambda]
  split
  · exact Step.yields_fail
  · next c r h =>
    have hr := length_lt_of_skipBlank_eq_cons h
    split
    · split
      · exact Step.yields_fail
      · next ps r₁ h₁ _ =>
        split
        · exact Step.yields_fail
        · next b r₂ h₂ hb =>
          have hb : b.Plain := (ih r₁ (by omega)).body "lambda" |>.of_eq hb rfl
          exact Step.yields_ok (Leaves.closure hb)
    · exact Step.yields_fail

theorem defineProc_plain : (defineProc cs).Yields Plain := by
  rw [defineProc]
  split
  · exact Step.yields_fail
  · next c r h =>
    have hr := length_lt_of_skipBlank_eq_cons h
    split
    · exact Step.yields_fail
    · split
      · exact Step.yields_fail
      · next name r₁ h₁ _ =>
        split
        · exact Step.yields_fail
        · next ps r₂ h₂ _ =>
          split
          · exact Step.yields_fail
          · next b r₃ h₃ hb =>
            have hb : b.Plain := (ih r₂ (by omega)).body "define" |>.of_eq hb rfl
            have hdef : (sym "DEFINE").Plain := Leaves.leaf rfl ⟨rfl, rfl⟩
            have hname : (sym name).Plain := Leaves.leaf rfl ⟨rfl, rfl⟩
            have hclo : (closure 0 ps b none).Plain := Leaves.closure hb
            exact Step.yields_ok (plain_ofList 0 (by simp [hdef, hname, hclo]))
      · exact Step.yields_fail

theorem bindings_plain {names : List String} {inits : List Value} (hinits : ∀ x ∈ inits, x.Plain) :
    (bindings names inits cs).Yields fun r => ∀ x ∈ r.2, x.Plain := by
  rw [bindings]
  split
  · exact Step.yields_fail
  · next c r h =>
    have hr := length_lt_of_skipBlank_eq_cons h
    split
    · exact Step.yields_ok (plain_reverse hinits)
    · split
      · exact Step.yields_fail
      · next b r₁ h₁ hd =>
        have hb : b.Plain := (ih r hr).datum c |>.of_eq hd rfl
        split
        · next n e hl =>
          have he : e.Plain := Leaves.listItems hb hl e (by simp)
          exact (ih r₁ (by omega)).bindings _ _ (List.forall_mem_cons.2 ⟨he, hinits⟩)
        · exact Step.yields_fail

theorem letForm_plain : (letForm cs).Yields Plain := by
  rw [letForm]
  split
  · exact Step.yields_fail
  · next c r h =>
    have hr := length_lt_of_skipBlank_eq_cons h
    split
    · split
      · exact Step.yields_fail
      · next names inits r₁ h₁ hbs =>
        have hinits : ∀ x ∈ inits, x.Plain :=
          (ih r hr).bindings [] [] (by simp) |>.of_eq hbs rfl
        split
        · exact Step.yields_fail
        · next b r₂ h₂ hb =>
          have hb : b.Plain := (ih r₁ (by omega)).body "let" |>.of_eq hb rfl
          exact Step.yields_ok (Leaves.cons (Leaves.closure hb) (plain_ofList 0 hinits))
    · exact Step.yields_fail

end Functions

theorem datum_plain {cs : List Char} (hlist : (list cs).Yields Plain) (hhash : (hash cs).Yields Plain)
    (hquote : ∀ keyword, (quote keyword cs).Yields Plain) (c : Char) :
    (datum c cs).Yields Plain := by
  rw [datum]
  split_ifs
  · exact hlist
  · exact Step.yields_fail
  · exact hhash
  · exact string_plain cs
  · exact hquote _
  · exact hquote _
  · exact operator_plain c cs
  · exact Step.yields_fail
  · exact atom_plain [c] cs

/-- Every reading function gives only plain data, on every text. -/
theorem readsPlain (cs : List Char) : ReadsPlain cs :=
  have ih : ∀ r : List Char, r.length < cs.length → ReadsPlain r := fun r _ => readsPlain r
  { datum := datum_plain (list_plain ih) (hash_plain ih) (quote_plain ih)
    list := list_plain ih
    listTail := fun _ => listTail_plain ih
    hash := hash_plain ih
    vector := fun _ => vector_plain ih
    quote := quote_plain ih
    lambda := lambda_plain ih
    body := body_plain ih
    defineProc := defineProc_plain ih
    letForm := letForm_plain ih
    bindings := fun _ _ => bindings_plain ih }
termination_by cs.length

/-- The datum read first from a text is plain. -/
theorem form_plain (cs : List Char) : (form cs).Yields Plain := by
  rw [form]
  split
  · exact Step.yields_fail
  · next c r _ => exact (readsPlain r).datum c

/-- Every datum of a text is plain. -/
theorem all_plain (cs : List Char) : ∀ v ∈ (all cs).1, v.Plain := by
  rw [all]
  split
  · simp
  · next c r h =>
    have := length_lt_of_skipBlank_eq_cons h
    split
    · simp
    · next v r₁ h₁ hd =>
      have hv : v.Plain := (readsPlain r).datum c |>.of_eq hd rfl
      exact List.forall_mem_cons.2 ⟨hv, all_plain r₁⟩
termination_by cs.length

end MiniScheme.Read
