import MiniScheme.Proofs.ListEquality
/-!
# Equality of values is a partial equivalence

`Value.equal` is symmetric and transitive on all values, and it fails to be reflexive exactly at the
values that hand a NaN float to the comparison: a NaN itself, or a vector holding one directly or
through nested vectors (`ExposedNaN`). A cell is equal to itself through the identity test `same`
and a closure through its address, whatever they hold, so a NaN inside a list never makes the list
unequal to itself. A copy of a datum built apart, every cell and closure of it at a new address
(`BuiltApart`), is compared element by element instead, and a NaN anywhere inside makes the copy
unequal to the datum it copies.

The floats come first: IEEE equality of unpacked floats (`Binary64.UnpackedEq`) relates the two
zeros, and every other number to itself only, so `==` on floats is symmetric and transitive.

Main statement: `equal_partial_equivalence`.
-/

namespace MiniScheme

/-! ### IEEE equality of floats -/

namespace Binary64

open Float.Model

/-- IEEE equality of unpacked floats: the two zeros are equal, every other number is equal to
itself only, and a NaN to nothing. -/
inductive UnpackedEq : UnpackedFloat → UnpackedFloat → Prop
  | zero (s t : UnpackedFloat.Sign) : UnpackedEq (.zero s) (.zero t)
  | infinity (s : UnpackedFloat.Sign) : UnpackedEq (.infinity s) (.infinity s)
  | finite (s : UnpackedFloat.Sign) (m : Nat) (e : Int) (h : 0 < m) :
      UnpackedEq (.finite s m e h) (.finite s m e h)

namespace UnpackedEq

theorem symm {u v : UnpackedFloat} (h : UnpackedEq u v) : UnpackedEq v u := by
  cases h with
  | zero s t => exact .zero t s
  | infinity s => exact .infinity s
  | finite s m e hm => exact .finite s m e hm

theorem trans {u v w : UnpackedFloat} (h₁ : UnpackedEq u v) (h₂ : UnpackedEq v w) :
    UnpackedEq u w := by
  cases h₁ with
  | zero s _ =>
    cases h₂ with
    | zero _ t => exact .zero s t
  | infinity | finite => exact h₂

end UnpackedEq

/-- Two finite floats of one sign compare equal only with the same exponent and mantissa. -/
theorem exponent_mantissa_eq {e e' : Int} {m m' : Nat}
    (h : (compare e e').then (compare m m') = .eq) : e = e' ∧ m = m' := by
  rwa [Ordering.then_eq_eq, Std.LawfulEqCmp.compare_eq_iff_eq, Std.LawfulEqCmp.compare_eq_iff_eq] at h

/-- Two floats of different kinds, or of different signs, compare as unequal outright. -/
theorem unpackedEq_of_beq {u v : UnpackedFloat} (h : u.beq v = true) : UnpackedEq u v := by
  cases u with
  | notANumber => cases h
  | zero s =>
    cases v with
    | zero t => exact .zero s t
    | infinity t => cases t <;> cases h
    | notANumber => cases h
    | finite t => cases t <;> cases h
  | infinity s =>
    cases v with
    | infinity t =>
      cases s <;> cases t
      · exact .infinity _
      · cases h
      · cases h
      · exact .infinity _
    | _ => cases s <;> cases h
  | finite s m e hm =>
    cases v with
    | finite t m' e' hm' =>
      cases s <;> cases t
      · change (some ((compare e e').then (compare m m')).swap == some .eq) = true at h
        obtain ⟨rfl, rfl⟩ := exponent_mantissa_eq (Ordering.swap_eq_eq.mp (by simpa using h))
        exact .finite _ _ _ _
      · cases h
      · cases h
      · change (some ((compare e e').then (compare m m')) == some .eq) = true at h
        obtain ⟨rfl, rfl⟩ := exponent_mantissa_eq (by simpa using h)
        exact .finite _ _ _ _
    | infinity t => cases s <;> cases t <;> cases h
    | _ => cases s <;> cases h

theorem beq_of_unpackedEq {u v : UnpackedFloat} (h : UnpackedEq u v) : u.beq v = true := by
  cases h with
  | zero => rfl
  | infinity s => cases s <;> rfl
  | finite => exact unpacked_beq_self _

/-- `==` on floats is IEEE equality. -/
theorem beq_iff_unpackedEq (x y : Float) :
    (x == y) = true ↔ UnpackedEq x.toModel.unpack y.toModel.unpack :=
  ⟨unpackedEq_of_beq, beq_of_unpackedEq⟩

theorem beq_comm (x y : Float) : (x == y) = (y == x) :=
  Bool.eq_iff_iff.mpr
    ⟨fun h => (beq_iff_unpackedEq y x).2 ((beq_iff_unpackedEq x y).1 h).symm,
      fun h => (beq_iff_unpackedEq x y).2 ((beq_iff_unpackedEq y x).1 h).symm⟩

theorem beq_trans {x y z : Float} (h₁ : (x == y) = true) (h₂ : (y == z) = true) :
    (x == z) = true :=
  (beq_iff_unpackedEq x z).2
    (((beq_iff_unpackedEq x y).1 h₁).trans ((beq_iff_unpackedEq y z).1 h₂))

end Binary64

namespace Value

/-! ### The identity test -/

mutual
theorem same_self : ∀ v : Value, v.same v = true
  | cons a x d => by
    rw [same, same_self x, same_self d, beq_self_eq_true]
    rfl
  | vector xs => sameAll_self xs
  | closure a ps b s => by
    rw [same, same_self b, beq_self_eq_true, beq_self_eq_true, beq_self_eq_true]
    rfl
  | unspecified | nil => rfl
  | float x => beq_self_eq_true x.toBits
  | bool _ | int _ | char _ | str _ | sym _ | prim _ | env _ | error _ => beq_self_eq_true _

theorem sameAll_self : ∀ xs : List Value, sameAll xs xs = true
  | [] => rfl
  | x :: xs => by rw [sameAll, same_self x, sameAll_self xs]; rfl
end

theorem same_comm (v w : Value) : v.same w = w.same v :=
  Bool.eq_iff_iff.mpr
    ⟨fun h => by cases eq_of_same h; exact h, fun h => by cases eq_of_same h; exact h⟩

theorem same_cons_of_ne {a b : Nat} (hab : a ≠ b) (x d y e : Value) :
    (cons a x d).same (cons b y e) = false := by
  rw [same, beq_eq_false_iff_ne.mpr hab, Bool.false_and, Bool.false_and]

/-- Whether `equal` compares the value whole, as `same` does: every value but a float, a cell, a
vector or a closure. -/
def comparesWhole : Value → Bool
  | float _ | cons .. | vector _ | closure .. => false
  | _ => true

theorem equal_eq_same_left {v : Value} (hv : v.comparesWhole = true) (w : Value) :
    v.equal w = v.same w := by
  cases v with
  | float | cons | vector | closure => cases hv
  | _ => cases w <;> rfl

theorem equal_eq_same_right {w : Value} (hw : w.comparesWhole = true) (v : Value) :
    v.equal w = v.same w := by
  cases w with
  | float | cons | vector | closure => cases hw
  | _ => cases v <;> rfl

/-! ### Symmetry and transitivity -/

mutual
/-- Equality of values is symmetric. -/
theorem equal_comm : ∀ v w : Value, v.equal w = w.equal v
  | cons a x d, w => by
    cases w with
    | cons b y e => rw [equal, equal, same_comm, equal_comm x y, equal_comm d e]
    | _ => rfl
  | vector xs, w => by
    cases w with
    | vector ys => exact equalAll_comm xs ys
    | _ => rfl
  | float x, w => by
    cases w with
    | float y => exact Binary64.beq_comm x y
    | _ => rfl
  | closure a .., w => by
    cases w with
    | closure b => exact BEq.comm
    | _ => rfl
  | unspecified, w | bool _, w | int _, w | char _, w | str _, w | sym _, w | nil, w | prim _, w
  | env _, w | error _, w => by
    rw [equal_eq_same_left rfl, equal_eq_same_right rfl, same_comm]

theorem equalAll_comm : ∀ xs ys : List Value, equalAll xs ys = equalAll ys xs
  | [], [] => rfl
  | x :: xs, y :: ys => by rw [equalAll, equalAll, equal_comm x y, equalAll_comm xs ys]
  | [], _ :: _ | _ :: _, [] => rfl
end

mutual
/-- Equality of values is transitive. The identity test on either side leaves the other comparison
as it was, and a value compared whole is equal only to itself. -/
theorem equal_trans : ∀ {u v w : Value}, u.equal v = true → v.equal w = true → u.equal w = true
  | cons a x d, v, w, h₁, h₂ => by
    cases v with
    | cons b y e =>
      cases w with
      | cons c z f =>
        rw [equal, Bool.or_eq_true, Bool.and_eq_true] at h₁ h₂ ⊢
        rcases h₁ with hs | ⟨hx, hd⟩
        · cases eq_of_same hs
          exact h₂
        · rcases h₂ with hs | ⟨hy, he⟩
          · cases eq_of_same hs
            exact .inr ⟨hx, hd⟩
          · exact .inr ⟨equal_trans hx hy, equal_trans hd he⟩
      | _ => cases h₂
    | _ => cases h₁
  | vector xs, v, w, h₁, h₂ => by
    cases v with
    | vector ys =>
      cases w with
      | vector zs => exact equalAll_trans h₁ h₂
      | _ => cases h₂
    | _ => cases h₁
  | float x, v, w, h₁, h₂ => by
    cases v with
    | float y =>
      cases w with
      | float z => exact Binary64.beq_trans h₁ h₂
      | _ => cases h₂
    | _ => cases h₁
  | closure a .., v, w, h₁, h₂ => by
    cases v with
    | closure b =>
      cases w with
      | closure c =>
        rw [equal, beq_iff_eq] at h₁ h₂ ⊢
        exact h₁.trans h₂
      | _ => cases h₂
    | _ => cases h₁
  | unspecified, v, w, h₁, h₂ | bool _, v, w, h₁, h₂ | int _, v, w, h₁, h₂
  | char _, v, w, h₁, h₂ | str _, v, w, h₁, h₂ | sym _, v, w, h₁, h₂ | nil, v, w, h₁, h₂
  | prim _, v, w, h₁, h₂ | env _, v, w, h₁, h₂ | error _, v, w, h₁, h₂ => by
    rw [equal_eq_same_left rfl] at h₁
    cases eq_of_same h₁
    exact h₂

theorem equalAll_trans : ∀ {xs ys zs : List Value}, equalAll xs ys = true → equalAll ys zs = true →
    equalAll xs zs = true
  | [], [], [], _, _ => rfl
  | x :: xs, y :: ys, z :: zs, h₁, h₂ => by
    rw [equalAll, Bool.and_eq_true] at h₁ h₂ ⊢
    exact ⟨equal_trans h₁.1 h₂.1, equalAll_trans h₁.2 h₂.2⟩
  | [], _ :: _, _, h₁, _ | _ :: _, [], _, h₁, _ => by cases h₁
  | [], [], _ :: _, _, h₂ | _ :: _, _ :: _, [], _, h₂ => by cases h₂
end

/-! ### Where reflexivity fails -/

/-- A NaN float, or a vector holding one directly or through nested vectors: the values whose
comparison with themselves reaches a NaN. -/
inductive ExposedNaN : Value → Prop
  | float {x : Float} : x.isNaN = true → ExposedNaN (float x)
  | vector {xs : List Value} {x : Value} : x ∈ xs → ExposedNaN x → ExposedNaN (vector xs)

theorem exposedNaN_vector_iff {xs : List Value} : (vector xs).ExposedNaN ↔ ∃ x ∈ xs, x.ExposedNaN := by
  constructor
  · intro h
    cases h with
    | vector hx h => exact ⟨_, hx, h⟩
  · rintro ⟨x, hx, h⟩
    exact .vector hx h

mutual
/-- A value is unequal to itself exactly when it exposes a NaN. The identity test answers first. -/
theorem equal_self_eq_false_iff : ∀ v : Value, v.equal v = false ↔ v.ExposedNaN
  | float x => by
    rw [equal, Binary64.beq_self, Bool.not_eq_false']
    exact ⟨.float, fun h => by cases h with | float h => exact h⟩
  | vector xs => by
    rw [equal, exposedNaN_vector_iff]
    exact equalAll_self_eq_false_iff xs
  | cons a x d => by
    rw [equal, same_self, Bool.true_or]
    exact iff_of_false (Bool.false_ne_true ∘ Eq.symm) (by rintro ⟨⟩)
  | closure a .. => by
    rw [equal, beq_self_eq_true]
    exact iff_of_false (Bool.false_ne_true ∘ Eq.symm) (by rintro ⟨⟩)
  | unspecified | bool _ | int _ | char _ | str _ | sym _ | nil | prim _ | env _ | error _ => by
    rw [equal_eq_same_left rfl, same_self]
    exact iff_of_false (Bool.false_ne_true ∘ Eq.symm) (by rintro ⟨⟩)

theorem equalAll_self_eq_false_iff : ∀ xs : List Value,
    equalAll xs xs = false ↔ ∃ x ∈ xs, x.ExposedNaN
  | [] => iff_of_false (Bool.false_ne_true ∘ Eq.symm) (by simp)
  | x :: xs => by
    rw [equalAll, Bool.and_eq_false_iff, equal_self_eq_false_iff x, equalAll_self_eq_false_iff xs]
    simp only [List.mem_cons, or_and_right, exists_or, exists_eq_left]
end

/-! ### Copies built apart -/

/-- `BuiltApart p q`: `q` is a copy of `p` built apart from it, with the same shape and the same
leaves, and every cell and closure of `q` at an address other than its counterpart's in `p`. -/
inductive BuiltApart : Value → Value → Prop
  | cons {a b : Nat} {x d y e : Value} : a ≠ b → BuiltApart x y → BuiltApart d e →
      BuiltApart (cons a x d) (cons b y e)
  | vector {xs ys : List Value} : List.Forall₂ BuiltApart xs ys → BuiltApart (vector xs) (vector ys)
  | closure {a b : Nat} {ps : List String} {body body' : Value} {s : Option Nat} : a ≠ b →
      BuiltApart body body' → BuiltApart (closure a ps body s) (closure b ps body' s)
  | leaf {v : Value} : v.holdsValues = false → BuiltApart v v

/-- A leaf that holds a NaN is a NaN. -/
theorem exposedNaN_of_leaf {v : Value} (hv : v.holdsValues = false) (hn : ¬ v.NaNFree) :
    v.ExposedNaN := by
  rw [NaNFree, leaves_leaf_iff hv, Bool.not_eq_false] at hn
  cases v with
  | float x => exact .float hn
  | _ => cases hn

mutual
/-- A datum holding a NaN anywhere is unequal to a copy of it built apart. -/
theorem equal_eq_false_of_builtApart : ∀ {p q : Value}, p.BuiltApart q → ¬ p.NaNFree →
    p.equal q = false
  | cons a x d, _, h, hn => by
    cases h with
    | cons hab hx hd =>
      rw [NaNFree, leaves_cons_iff, not_and_or] at hn
      rw [equal, same_cons_of_ne hab, Bool.false_or]
      rcases hn with hn | hn
      · rw [equal_eq_false_of_builtApart hx hn, Bool.false_and]
      · rw [equal_eq_false_of_builtApart hd hn, Bool.and_false]
    | leaf hv => cases hv
  | vector xs, _, h, hn => by
    cases h with
    | vector hxs =>
      rw [NaNFree, leaves_vector_iff, not_forall] at hn
      obtain ⟨x, hx⟩ := hn
      rw [Classical.not_imp] at hx
      exact equalAll_eq_false_of_builtApart hxs hx.1 hx.2
    | leaf hv => cases hv
  | closure a .., _, h, _ => by
    cases h with
    | closure hab _ => exact beq_eq_false_iff_ne.mpr hab
    | leaf hv => cases hv
  | unspecified, _, h, hn | bool _, _, h, hn | int _, _, h, hn | float _, _, h, hn
  | char _, _, h, hn | str _, _, h, hn | sym _, _, h, hn | nil, _, h, hn | prim _, _, h, hn
  | env _, _, h, hn | error _, _, h, hn => by
    cases h with
    | leaf hv => exact (equal_self_eq_false_iff _).2 (exposedNaN_of_leaf hv hn)

theorem equalAll_eq_false_of_builtApart : ∀ {xs ys : List Value} {x : Value},
    List.Forall₂ BuiltApart xs ys → x ∈ xs → ¬ x.NaNFree → equalAll xs ys = false
  | x' :: xs, y :: ys, x, .cons hxy hrest, hx, hn => by
    rw [equalAll]
    rcases List.mem_cons.mp hx with rfl | hx
    · rw [equal_eq_false_of_builtApart hxy hn, Bool.false_and]
    · rw [equalAll_eq_false_of_builtApart hrest hx hn, Bool.and_false]
end

/-- **Equality of values is a partial equivalence.** It is symmetric and transitive. A value is
unequal to itself exactly when it exposes a NaN: a NaN float, or a vector holding one directly or
through nested vectors. A cell is always equal to itself, through the identity test, whatever it
holds; and a datum that holds a NaN anywhere is unequal to a copy of it built apart. -/
theorem equal_partial_equivalence :
    (∀ v w : Value, v.equal w = true → w.equal v = true) ∧
    (∀ u v w : Value, u.equal v = true → v.equal w = true → u.equal w = true) ∧
    (∀ v : Value, v.equal v = false ↔ v.ExposedNaN) ∧
    (∀ (a : Nat) (x d : Value),
      (cons a x d).same (cons a x d) = true ∧ (cons a x d).equal (cons a x d) = true) ∧
    (∀ p q : Value, p.BuiltApart q → ¬ p.NaNFree → p.equal q = false) := by
  refine ⟨fun v w h => ?_, fun _ _ _ => equal_trans, equal_self_eq_false_iff, fun a x d => ?_,
    fun _ _ => equal_eq_false_of_builtApart⟩
  · rwa [equal_comm]
  · have hs : (cons a x d).same (cons a x d) = true := same_self _
    refine ⟨hs, ?_⟩
    rw [equal, hs, Bool.true_or]

/-- The list `(NaN)` is equal to itself, and unequal to the list `(NaN)` built apart. -/
theorem nan_list_unequal_to_copy :
    (ofList 1 [float (Float.ofBits 0x7FF8000000000000)]).equal
        (ofList 1 [float (Float.ofBits 0x7FF8000000000000)]) = true ∧
      (ofList 1 [float (Float.ofBits 0x7FF8000000000000)]).BuiltApart
        (ofList 2 [float (Float.ofBits 0x7FF8000000000000)]) ∧
      ¬ (ofList 1 [float (Float.ofBits 0x7FF8000000000000)]).NaNFree ∧
      (ofList 1 [float (Float.ofBits 0x7FF8000000000000)]).equal
        (ofList 2 [float (Float.ofBits 0x7FF8000000000000)]) = false := by
  have hb : (ofList 1 [float (Float.ofBits 0x7FF8000000000000)]).BuiltApart
      (ofList 2 [float (Float.ofBits 0x7FF8000000000000)]) :=
    .cons (by decide) (.leaf rfl) (.leaf rfl)
  have hn : ¬ (ofList 1 [float (Float.ofBits 0x7FF8000000000000)]).NaNFree := by
    rw [ofList, dotted, NaNFree, leaves_cons_iff, leaves_leaf_iff rfl]
    intro h
    exact absurd h.1 (by decide)
  exact ⟨(equal_partial_equivalence.2.2.2.1 1 _ _).2, hb, hn,
    equal_partial_equivalence.2.2.2.2 _ _ hb hn⟩

end Value

end MiniScheme
