import MiniScheme.Eval.Primitive
/-!
# Integer arithmetic is exact or fails

An arithmetic primitive whose first argument is an integer folds the operation over its arguments
from the left in 64-bit integers, checking each step. This module compares that fold with the same
fold over unbounded integers (`Arith.exact`, division truncating toward zero): the fold succeeds
exactly when every argument is an integer, no divisor is zero and every partial result lies in the
64-bit range (`Arith.Fits`), and then it gives the exact result. Otherwise the first step that goes
wrong decides the error, whatever the later arguments are: an argument that is no integer, a zero
divisor, or an exact partial result out of range, reported with the two operands of that step. No
result ever wraps around.

Main statement:

* `int_fold_exact_or_fails`: the success condition and the error of the first failing step, for
  every operation and every argument list starting with an integer.

The step is described once, by `onInt_cases`; the fold over a prefix of steps that fit is
`foldInt_append_of_fits`, by induction on the prefix.
-/

namespace MiniScheme

/-- Whether an integer lies in the 64-bit range `[-2⁶³, 2⁶³ - 1]`. -/
def InInt64 (v : Int) : Prop :=
  -9223372036854775808 ≤ v ∧ v ≤ 9223372036854775807

instance (v : Int) : Decidable (InInt64 v) :=
  inferInstanceAs (Decidable (_ ∧ _))

/-- The range test the checked steps make is `InInt64`. -/
theorem inInt64_iff_bounds (v : Int) :
    InInt64 v ↔ Int64.minValue.toInt ≤ v ∧ v ≤ Int64.maxValue.toInt := by
  have hmin : Int64.minValue.toInt = -9223372036854775808 := by decide
  have hmax : Int64.maxValue.toInt = 9223372036854775807 := by decide
  rw [hmin, hmax, InInt64]

theorem inInt64_toInt (a : Int64) : InInt64 a.toInt :=
  (inInt64_iff_bounds _).2 ⟨a.minValue_le_toInt, a.toInt_le⟩

/-- A 64-bit integer made from an integer in range stands for it. -/
theorem toInt_ofInt_of_inInt64 {v : Int} (h : InInt64 v) : (Int64.ofInt v).toInt = v := by
  obtain ⟨hlo, hhi⟩ := h
  exact Int64.toInt_ofInt_of_le (by omega) (by omega)

namespace Arith

/-- The operation on unbounded integers; division truncates toward zero. -/
def exact : Arith → Int → Int → Int
  | add, a, b => a + b
  | sub, a, b => a - b
  | mul, a, b => a * b
  | div, a, b => a.tdiv b

/-- Whether `b` may stand right of the operation: division refuses zero, the others take any
integer. -/
def Admits (op : Arith) (b : Int) : Prop :=
  op = div → b ≠ 0

/-- The exact fold from `a` over `bs` meets no failing step: every divisor is admitted, and every
partial result `a`, `a op b₁`, `(a op b₁) op b₂`, … lies in the 64-bit range. -/
def Fits (op : Arith) (a : Int) (bs : List Int) : Prop :=
  (∀ b ∈ bs, op.Admits b) ∧ ∀ v ∈ bs.scanl op.exact a, InInt64 v

theorem fits_nil {op : Arith} {a : Int} : op.Fits a [] ↔ InInt64 a := by
  simp [Fits]

theorem fits_cons {op : Arith} {a b : Int} {bs : List Int} :
    op.Fits a (b :: bs) ↔ InInt64 a ∧ op.Admits b ∧ op.Fits (op.exact a b) bs := by
  simp only [Fits, List.mem_cons, forall_eq_or_imp, List.scanl_cons]
  exact ⟨fun ⟨⟨hb, hbs⟩, ha, hs⟩ => ⟨ha, hb, hbs, hs⟩, fun ⟨ha, hb, hbs, hs⟩ => ⟨⟨hb, hbs⟩, ha, hs⟩⟩

/-- A fold that fits starts in range. -/
theorem Fits.start {op : Arith} {a : Int} {bs : List Int} (h : op.Fits a bs) : InInt64 a :=
  h.2 a (by cases bs <;> simp)

/-- A fold that fits ends in range: its exact result is the last partial result. -/
theorem Fits.result {op : Arith} {a : Int} {bs : List Int} (h : op.Fits a bs) :
    InInt64 (bs.foldl op.exact a) := by
  apply h.2
  rw [← List.getLast_scanl List.scanl_ne_nil]
  exact List.getLast_mem _

/-! ### One step -/

theorem checked_of_inInt64 {name : String} {a b : Int64} {r : Int} (h : InInt64 r) :
    checked name a b r = .ok (Int64.ofInt r) := by
  rw [checked, if_pos ((inInt64_iff_bounds r).1 h)]

theorem checked_of_not_inInt64 {name : String} {a b : Int64} {r : Int} (h : ¬ InInt64 r) :
    checked name a b r = .error (.numericOverflow name a b) := by
  rw [checked, if_neg (fun h' => h ((inInt64_iff_bounds r).2 h'))]

/-- Past the divisor check, a step is the exact operation checked against the 64-bit range. -/
theorem onInt_of_admits {op : Arith} {a b : Int64} (hb : op.Admits b.toInt) :
    op.onInt a b = checked op.name a b (op.exact a.toInt b.toInt) := by
  cases op with
  | div => exact if_neg (hb rfl)
  | add | sub | mul => rfl

/-- Every step a checked operation can take. An admitted divisor with an exact result in range
gives that result; division by zero fails as such; an admitted divisor whose exact result is out of
range overflows, naming both operands. Only division refuses a divisor, and only zero. -/
theorem onInt_cases (op : Arith) (a b : Int64) :
    (op.Admits b.toInt ∧ InInt64 (op.exact a.toInt b.toInt) ∧
        op.onInt a b = .ok (Int64.ofInt (op.exact a.toInt b.toInt))) ∨
      (¬ op.Admits b.toInt ∧ op.onInt a b = .error (.divisionByZero "/")) ∨
      (op.Admits b.toInt ∧ ¬ InInt64 (op.exact a.toInt b.toInt) ∧
        op.onInt a b = .error (.numericOverflow op.name a b)) := by
  by_cases hb : op.Admits b.toInt
  · rw [onInt_of_admits hb]
    by_cases hr : InInt64 (op.exact a.toInt b.toInt)
    · exact .inl ⟨hb, hr, checked_of_inInt64 hr⟩
    · exact .inr (.inr ⟨hb, hr, checked_of_not_inInt64 hr⟩)
  · have hdiv : op = div ∧ b.toInt = 0 := by
      simp only [Admits, Classical.not_imp, Decidable.not_not] at hb
      exact hb
    obtain ⟨rfl, h0⟩ := hdiv
    exact .inr (.inl ⟨hb, by rw [onInt, if_pos h0]⟩)

theorem onInt_of_fits {op : Arith} {a b : Int64} (hb : op.Admits b.toInt)
    (hr : InInt64 (op.exact a.toInt b.toInt)) :
    op.onInt a b = .ok (Int64.ofInt (op.exact a.toInt b.toInt)) := by
  rcases onInt_cases op a b with ⟨-, -, h⟩ | ⟨hb', -⟩ | ⟨-, hr', -⟩
  · exact h
  · exact absurd hb hb'
  · exact absurd hr hr'

/-! ### The fold -/

theorem foldInt_int_of_ok {op : Arith} {acc b c : Int64} {rest : List Value} {i : Nat}
    (h : op.onInt acc b = .ok c) : foldInt op acc (.int b :: rest) i = foldInt op c rest (i + 1) := by
  rw [foldInt.eq_2, h]
  rfl

theorem foldInt_int_of_error {op : Arith} {acc b : Int64} {rest : List Value} {i : Nat}
    {e : EvalError} (h : op.onInt acc b = .error e) : foldInt op acc (.int b :: rest) i = .error e := by
  rw [foldInt.eq_2, h]
  rfl

/-- Integer arguments whose steps all fit are folded exactly: the fold goes on after them from the
exact partial result, at the position after them. -/
theorem foldInt_append_of_fits {op : Arith} (more : List Value) :
    ∀ {acc : Int64} {bs : List Int64} {i : Nat}, op.Fits acc.toInt (bs.map Int64.toInt) →
      foldInt op acc (bs.map .int ++ more) i =
        foldInt op (Int64.ofInt ((bs.map Int64.toInt).foldl op.exact acc.toInt)) more
          (i + bs.length)
  | acc, [], i, _ => by
    simp only [List.map_nil, List.nil_append, List.foldl_nil, Int64.ofInt_toInt,
      List.length_nil, Nat.add_zero]
  | acc, b :: bs, i, h => by
    obtain ⟨-, hb, hrest⟩ := fits_cons.1 h
    have hstep : InInt64 (op.exact acc.toInt b.toInt) := hrest.start
    have hacc : (Int64.ofInt (op.exact acc.toInt b.toInt)).toInt = op.exact acc.toInt b.toInt :=
      toInt_ofInt_of_inInt64 hstep
    rw [← hacc] at hrest
    rw [List.map_cons, List.cons_append, foldInt_int_of_ok (onInt_of_fits hb hstep),
      foldInt_append_of_fits more hrest, hacc]
    simp only [List.map_cons, List.foldl_cons, List.length_cons, Nat.add_assoc, Nat.add_comm 1]

/-- A fold that succeeds read only integers, and each of its steps fit. -/
theorem fits_of_foldInt_ok {op : Arith} :
    ∀ {acc : Int64} {rest : List Value} {i : Nat} {r : Int64}, foldInt op acc rest i = .ok r →
      ∃ bs : List Int64, rest = bs.map .int ∧ op.Fits acc.toInt (bs.map Int64.toInt) ∧
        r = Int64.ofInt ((bs.map Int64.toInt).foldl op.exact acc.toInt)
  | acc, [], i, r, h => by
    rw [foldInt.eq_1] at h
    cases h
    exact ⟨[], rfl, fits_nil.2 (inInt64_toInt acc), (Int64.ofInt_toInt acc).symm⟩
  | acc, v :: rest, i, r, h => by
    by_cases hv : ∃ b, v = .int b
    · obtain ⟨b, rfl⟩ := hv
      rcases onInt_cases op acc b with ⟨hb, hr, hs⟩ | ⟨-, hs⟩ | ⟨-, -, hs⟩
      · rw [foldInt_int_of_ok hs] at h
        obtain ⟨bs, rfl, hfits, rfl⟩ := fits_of_foldInt_ok h
        rw [toInt_ofInt_of_inInt64 hr] at hfits ⊢
        exact ⟨b :: bs, rfl, fits_cons.2 ⟨inInt64_toInt acc, hb, hfits⟩, rfl⟩
      · rw [foldInt_int_of_error hs] at h
        cases h
      · rw [foldInt_int_of_error hs] at h
        cases h
    · rw [foldInt.eq_3 _ _ _ _ _ (fun b hb => hv ⟨b, hb⟩)] at h
      cases h

/-! ### The primitive -/

section
variable (op : Arith) (a : Int64)

/-- The fold over an integer first argument succeeds exactly when the exact fold fits, with the
exact result. -/
theorem fold_int_eq_ok_iff (rest : List Value) (r : Int64) :
    op.fold (.int a :: rest) = .ok (.int r) ↔
      ∃ bs : List Int64, rest = bs.map .int ∧ op.Fits a.toInt (bs.map Int64.toInt) ∧
        r.toInt = (bs.map Int64.toInt).foldl op.exact a.toInt := by
  constructor
  · intro h
    cases hf : foldInt op a rest 1 with
    | error e =>
      rw [fold, hf] at h
      cases h
    | ok r' =>
      rw [fold, hf] at h
      cases h
      obtain ⟨bs, rfl, hfits, rfl⟩ := fits_of_foldInt_ok hf
      exact ⟨bs, rfl, hfits, toInt_ofInt_of_inInt64 hfits.result⟩
  · rintro ⟨bs, rfl, hfits, hr⟩
    have h := foldInt_append_of_fits [] (i := 1) hfits
    rw [List.append_nil, foldInt.eq_1] at h
    rw [fold, h, ← hr, Int64.ofInt_toInt]
    rfl

/-- After a prefix that fits, an argument that is no integer fails the fold with its position. -/
theorem fold_int_type_error (bs : List Int64) (v : Value) (more : List Value)
    (hfits : op.Fits a.toInt (bs.map Int64.toInt)) (hv : ∀ b, v ≠ .int b) :
    op.fold (.int a :: (bs.map .int ++ v :: more)) =
      .error (.invalidArgumentType op.name "integer" (bs.length + 1) v.typeName) := by
  rw [fold, foldInt_append_of_fits _ hfits, foldInt.eq_3 _ _ _ _ _ hv, Nat.add_comm]
  rfl

/-- After a prefix that fits, a divisor the operation refuses fails the fold as a division by
zero. -/
theorem fold_int_division_by_zero (bs : List Int64) (b : Int64) (more : List Value)
    (hfits : op.Fits a.toInt (bs.map Int64.toInt)) (hb : ¬ op.Admits b.toInt) :
    op.fold (.int a :: (bs.map .int ++ .int b :: more)) = .error (.divisionByZero "/") := by
  have hstep : op.onInt (Int64.ofInt ((bs.map Int64.toInt).foldl op.exact a.toInt)) b =
      .error (.divisionByZero "/") := by
    rcases onInt_cases op (Int64.ofInt ((bs.map Int64.toInt).foldl op.exact a.toInt)) b with
      ⟨hb', -⟩ | ⟨-, h⟩ | ⟨hb', -⟩
    · exact absurd hb' hb
    · exact h
    · exact absurd hb' hb
  rw [fold, foldInt_append_of_fits _ hfits, foldInt_int_of_error hstep]
  rfl

/-- After a prefix that fits, a step whose exact result leaves the range fails the fold as an
overflow of the exact partial result and the argument. -/
theorem fold_int_overflow (bs : List Int64) (b : Int64) (more : List Value)
    (hfits : op.Fits a.toInt (bs.map Int64.toInt)) (hb : op.Admits b.toInt)
    (hr : ¬ InInt64 (op.exact ((bs.map Int64.toInt).foldl op.exact a.toInt) b.toInt)) :
    op.fold (.int a :: (bs.map .int ++ .int b :: more)) =
      .error (.numericOverflow op.name
        (Int64.ofInt ((bs.map Int64.toInt).foldl op.exact a.toInt)) b) := by
  have hacc : InInt64 ((bs.map Int64.toInt).foldl op.exact a.toInt) := hfits.result
  have hstep : op.onInt (Int64.ofInt ((bs.map Int64.toInt).foldl op.exact a.toInt)) b =
      .error (.numericOverflow op.name
        (Int64.ofInt ((bs.map Int64.toInt).foldl op.exact a.toInt)) b) := by
    rw [← toInt_ofInt_of_inInt64 hacc] at hr
    rcases onInt_cases op (Int64.ofInt ((bs.map Int64.toInt).foldl op.exact a.toInt)) b with
      ⟨-, hr', -⟩ | ⟨hb', -⟩ | ⟨-, -, h⟩
    · exact absurd hr' hr
    · exact absurd hb hb'
    · exact h
  rw [fold, foldInt_append_of_fits _ hfits, foldInt_int_of_error hstep]
  rfl

end

/-- **Integer arithmetic is exact or fails.** Take an arithmetic operation and arguments whose first
is the integer `a`. The fold gives `r` exactly when every other argument is an integer, every divisor
is admitted and every exact partial result lies in the 64-bit range, and `r` is then the exact
result. Otherwise the first failing step decides: after a prefix of steps that fit, an argument that
is no integer fails with its position, a zero divisor fails as division by zero, and an exact result
out of range fails as an overflow of the partial result and the argument. Without arguments the
primitive fails on their number. -/
theorem int_fold_exact_or_fails (op : Arith) (a : Int64) :
    (∀ (rest : List Value) (r : Int64), op.fold (.int a :: rest) = .ok (.int r) ↔
      ∃ bs : List Int64, rest = bs.map .int ∧ op.Fits a.toInt (bs.map Int64.toInt) ∧
        r.toInt = (bs.map Int64.toInt).foldl op.exact a.toInt) ∧
    (∀ (bs : List Int64) (v : Value) (more : List Value), op.Fits a.toInt (bs.map Int64.toInt) →
      (∀ b, v ≠ .int b) →
      op.fold (.int a :: (bs.map .int ++ v :: more)) =
        .error (.invalidArgumentType op.name "integer" (bs.length + 1) v.typeName)) ∧
    (∀ (bs : List Int64) (b : Int64) (more : List Value), op.Fits a.toInt (bs.map Int64.toInt) →
      ¬ op.Admits b.toInt →
      op.fold (.int a :: (bs.map .int ++ .int b :: more)) = .error (.divisionByZero "/")) ∧
    (∀ (bs : List Int64) (b : Int64) (more : List Value), op.Fits a.toInt (bs.map Int64.toInt) →
      op.Admits b.toInt →
      ¬ InInt64 (op.exact ((bs.map Int64.toInt).foldl op.exact a.toInt) b.toInt) →
      op.fold (.int a :: (bs.map .int ++ .int b :: more)) =
        .error (.numericOverflow op.name
          (Int64.ofInt ((bs.map Int64.toInt).foldl op.exact a.toInt)) b)) ∧
    op.fold [] = .error (.invalidNumberOfArguments op.name "1 or more" 0) :=
  ⟨fold_int_eq_ok_iff op a, fold_int_type_error op a, fold_int_division_by_zero op a,
    fold_int_overflow op a, rfl⟩

/-- The smallest integer divided by `-1` overflows: its exact quotient `2⁶³` is out of range. -/
theorem min_div_neg_one_overflows :
    Arith.div.Fits Int64.minValue.toInt [] ∧ Arith.div.Admits (-1 : Int64).toInt ∧
      ¬ InInt64 (Arith.div.exact Int64.minValue.toInt (-1 : Int64).toInt) ∧
      Arith.div.fold [.int Int64.minValue, .int (-1)] =
        .error (.numericOverflow "/" Int64.minValue (-1)) := by
  have hfits : Arith.div.Fits Int64.minValue.toInt [] := fits_nil.2 (inInt64_toInt _)
  have hb : Arith.div.Admits (-1 : Int64).toInt := fun _ => by decide
  have hr : ¬ InInt64 (Arith.div.exact Int64.minValue.toInt (-1 : Int64).toInt) := by decide
  refine ⟨hfits, hb, hr, ?_⟩
  have h := (int_fold_exact_or_fails .div Int64.minValue).2.2.2.1 [] (-1) [] hfits hb hr
  simp only [List.map_nil, List.nil_append, List.foldl_nil, Int64.ofInt_toInt] at h
  exact h

end Arith

end MiniScheme
