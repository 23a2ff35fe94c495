import MiniScheme.Proofs.RoundTrip
import MiniScheme.Proofs.Leaves
import MiniScheme.Value.Equal
import MiniScheme.Eval.Primitive
import Mathlib.Data.List.Forall2
/-!
# Lists compare by their elements

A list has one spelling in `Value`: a cell's tail is `nil` exactly where the list ends, so the empty
tail of a dotted list, `(x . ())`, is the proper list `(x)` itself. This is the shape the program's
own pairs, with their optional slots, keep (`Stored.AllCanonical`). On that representation the
equality programs see, `Value.equal`, compares lists by their views: two lists are equal exactly
when their elements (`items`) are equal one by one and their terminators (`terminator?`) are both
absent or both present and equal. The identity shortcut of `equal` (the
very same datum is equal to itself) changes nothing there as long as no NaN float is held, since
`same` is identity (`eq_of_same`) and every NaN-free datum is equal to itself (`equal_self`).

Main statement:

* `lists_equal_by_items`: equality of lists is equality of their views; a list has its elements
  listed exactly when it has no terminator; and `CONS` of `x` and the empty list equals `LIST` of
  `x`.
-/

namespace MiniScheme

/-! ### Floats -/

namespace Binary64

open Float.Model in
theorem unpacked_beq_self (u : UnpackedFloat) : u.beq u = !u.isNaN := by
  cases u with
  | infinity s => cases s <;> rfl
  | notANumber => rfl
  | zero s => rfl
  | finite s m e h =>
    have he : compare e e = .eq := Std.ReflCmp.compare_self
    have hm : compare m m = .eq := Std.ReflCmp.compare_self
    cases s
    · show (some ((compare e e).then (compare m m)).swap == some .eq) = !false
      rw [he, hm]
      rfl
    · show (some ((compare e e).then (compare m m)) == some .eq) = !false
      rw [he, hm]
      rfl

/-- A float is equal to itself exactly when it is a number. -/
theorem beq_self (x : Float) : (x == x) = !x.isNaN :=
  unpacked_beq_self x.toModel.unpack

/-- Floats with the same bits are the same float. -/
theorem eq_of_toBits_eq {x y : Float} (h : x.toBits = y.toBits) : x = y := by
  rcases x with ⟨⟨bx, hx⟩⟩
  rcases y with ⟨⟨bx', hy⟩⟩
  change bx = bx' at h
  subst h
  rfl

end Binary64

namespace Value

/-! ### The identity shortcut -/

/-- Whether a value is a NaN float. -/
def isNaN : Value → Bool
  | float x => x.isNaN
  | _ => false

/-- No NaN float is held inside the value, nor is it one. -/
def NaNFree (v : Value) : Prop :=
  v.Leaves fun w => w.isNaN = false

/-- Whether a value is a pair of the program: a cell or the empty list. -/
def isPair : Value → Bool
  | nil | cons .. => true
  | _ => false

mutual
/-- `same` is identity. -/
theorem eq_of_same : ∀ {v w : Value}, v.same w = true → v = w
  | cons a x d, w, h => by
    cases w with
    | cons b y e =>
      simp only [same, Bool.and_eq_true, beq_iff_eq] at h
      rw [h.1.1, eq_of_same h.1.2, eq_of_same h.2]
    | _ => simp [same] at h
  | vector xs, w, h => by
    cases w with
    | vector ys =>
      rw [same] at h
      rw [eq_of_sameAll h]
    | _ => simp [same] at h
  | closure a ps b s, w, h => by
    cases w with
    | closure a' ps' b' s' =>
      simp only [same, Bool.and_eq_true, beq_iff_eq] at h
      rw [h.1.1.1, h.1.1.2, eq_of_same h.1.2, h.2]
    | _ => simp [same] at h
  | float a, w, h => by
    cases w with
    | float b =>
      simp only [same, beq_iff_eq] at h
      rw [Binary64.eq_of_toBits_eq h]
    | _ => simp [same] at h
  | unspecified, w, h | bool _, w, h | int _, w, h | char _, w, h | str _, w, h | sym _, w, h
  | nil, w, h | prim _, w, h | env _, w, h | error _, w, h => by
    cases w <;> simp_all [same]

theorem eq_of_sameAll : ∀ {xs ys : List Value}, sameAll xs ys = true → xs = ys
  | [], [], _ => rfl
  | x :: xs, y :: ys, h => by
    simp only [sameAll, Bool.and_eq_true] at h
    rw [eq_of_same h.1, eq_of_sameAll h.2]
  | [], _ :: _, h | _ :: _, [], h => by simp [sameAll] at h
end

mutual
/-- A value that holds no NaN float is equal to itself. -/
theorem equal_self : ∀ {v : Value}, v.NaNFree → v.equal v = true
  | cons a x d, h => by
    rw [NaNFree, leaves_cons_iff] at h
    rw [equal, Bool.or_eq_true, Bool.and_eq_true]
    exact .inr ⟨equal_self h.1, equal_self h.2⟩
  | vector xs, h => by
    rw [NaNFree, leaves_vector_iff] at h
    rw [equal]
    exact equalAll_self h
  | float x, h => by
    rw [NaNFree, leaves_leaf_iff rfl] at h
    rw [equal, Binary64.beq_self]
    simpa [isNaN] using h
  | closure a .., _ | unspecified, _ | bool _, _ | int _, _ | char _, _ | str _, _ | sym _, _
  | nil, _ | prim _, _ | env _, _ | error _, _ => by
    simp [equal]

theorem equalAll_self : ∀ {xs : List Value}, (∀ x ∈ xs, x.Leaves fun w => w.isNaN = false) →
    equalAll xs xs = true
  | [], _ => rfl
  | x :: xs, h => by
    rw [equalAll, Bool.and_eq_true]
    exact ⟨equal_self (h x List.mem_cons_self), equalAll_self fun y hy => h y (List.mem_cons_of_mem x hy)⟩
end

/-- Two cells are equal exactly when their elements and their tails are, where the first holds no
NaN float. -/
theorem equal_cons_cons_iff {a b : Nat} {x d y e : Value} (hn : (cons a x d).NaNFree) :
    (cons a x d).equal (cons b y e) = true ↔ x.equal y = true ∧ d.equal e = true := by
  rw [equal, Bool.or_eq_true, Bool.and_eq_true]
  constructor
  · rintro (h | h)
    · cases eq_of_same h
      rw [NaNFree, leaves_cons_iff] at hn
      exact ⟨equal_self hn.1, equal_self hn.2⟩
    · exact h
  · exact .inr

/-! ### Ends of lists -/

theorem equal_cons_right {v : Value} (hv : ∀ a x d, v ≠ cons a x d) (b : Nat) (y e : Value) :
    v.equal (cons b y e) = false := by
  cases v with
  | cons a x d => exact absurd rfl (hv a x d)
  | _ => rfl

theorem equal_cons_left {w : Value} (hw : ∀ b y e, w ≠ cons b y e) (a : Nat) (x d : Value) :
    (cons a x d).equal w = false := by
  cases w with
  | cons b y e => exact absurd rfl (hw b y e)
  | _ => rfl

theorem equal_nil_left {w : Value} (hw : NotList w) : nil.equal w = false := by
  cases w with
  | cons b y e => exact absurd rfl (hw.1 b y e)
  | nil => exact absurd rfl hw.2
  | _ => rfl

theorem equal_nil_right {v : Value} (hv : NotList v) : v.equal nil = false := by
  cases v with
  | cons a x d => exact absurd rfl (hv.1 a x d)
  | nil => exact absurd rfl hv.2
  | _ => rfl

/-- Where no NaN float is held, two values are equal exactly when the elements of their proper parts
are equal one by one and what stands at their ends is equal. Two cells compare by their heads, then
by their tails under the same law. -/
theorem equal_iff_items_listEnd {v : Value} (w : Value) (hn : v.NaNFree) :
    v.equal w = true ↔ List.Forall₂ (fun x y => x.equal y = true) v.items w.items ∧
      (Read.listEnd v).equal (Read.listEnd w) = true := by
  rcases nil_or_cons_or_notList v with rfl | ⟨a, x, d, rfl⟩ | hv <;>
    rcases nil_or_cons_or_notList w with rfl | ⟨b, y, e, rfl⟩ | hw
  · exact ⟨fun _ => ⟨.nil, rfl⟩, fun _ => rfl⟩
  · rw [equal_cons_right (fun _ _ _ h => by cases h)]
    simp [items]
  · rw [Read.items_notList hw, Read.listEnd_notList hw, Read.listEnd_nil]
    simp [items]
  · rw [equal_cons_left (fun _ _ _ h => by cases h)]
    simp [items]
  · have hd : d.NaNFree := (leaves_cons_iff.1 hn).2
    rw [equal_cons_cons_iff hn, items_cons, items_cons, List.forall₂_cons, Read.listEnd_cons,
      Read.listEnd_cons, equal_iff_items_listEnd e hd, and_assoc]
  · rw [equal_cons_left hw.1, Read.items_notList hw]
    simp
  · rw [Read.items_notList hv, Read.listEnd_notList hv, Read.listEnd_nil]
    simp [items]
  · rw [equal_cons_right hv.1, Read.items_notList hv]
    simp
  · rw [Read.items_notList hv, Read.items_notList hw, Read.listEnd_notList hv,
      Read.listEnd_notList hw]
    simp
termination_by v

/-- What stands at the end of a list is the empty list or no list. -/
theorem listEnd_nil_or_notList (v : Value) : Read.listEnd v = nil ∨ NotList (Read.listEnd v) := by
  rcases nil_or_cons_or_notList v with rfl | ⟨a, x, d, rfl⟩ | hv
  · exact .inl Read.listEnd_nil
  · rw [Read.listEnd_cons]
    exact listEnd_nil_or_notList d
  · rw [Read.listEnd_notList hv]
    exact .inr hv
termination_by v

/-- A list that ends in the empty list has no terminator. -/
theorem terminator?_of_listEnd_nil {p : Value} (h : Read.listEnd p = nil) : p.terminator? = none := by
  rcases nil_or_cons_or_notList p with rfl | ⟨a, x, d, rfl⟩ | hp
  · simp [terminator?]
  · rw [Read.listEnd_cons] at h
    rcases nil_or_cons_or_notList d with rfl | ⟨b, y, e, rfl⟩ | hd
    · simp [terminator?]
    · rw [terminator?]
      exact terminator?_of_listEnd_nil (Read.listEnd_cons b y e ▸ h)
    · rw [Read.listEnd_notList hd] at h
      exact absurd h hd.2
  · rw [Read.listEnd_notList hp] at h
    exact absurd h hp.2
termination_by p

/-- A pair has a terminator exactly when its end is no list, and the terminator is that end. -/
theorem terminator?_pair {p : Value} (hp : p.isPair = true) :
    (Read.listEnd p = nil ∧ p.terminator? = none) ∨
      (NotList (Read.listEnd p) ∧ p.terminator? = some (Read.listEnd p)) := by
  rcases listEnd_nil_or_notList p with h | h
  · exact .inl ⟨h, terminator?_of_listEnd_nil h⟩
  · refine .inr ⟨h, ?_⟩
    cases p with
    | cons a x d =>
      rw [Read.listEnd_cons] at h ⊢
      exact Read.terminator?_cons a x d h.2
    | nil => exact absurd Read.listEnd_nil h.2
    | _ => cases hp

/-- The terminators of two pairs are related exactly when their ends are equal. -/
theorem rel_terminator?_iff {p q : Value} (hp : p.isPair = true) (hq : q.isPair = true) :
    Option.Rel (fun x y => x.equal y = true) p.terminator? q.terminator? ↔
      (Read.listEnd p).equal (Read.listEnd q) = true := by
  rcases terminator?_pair hp with ⟨hpe, hpt⟩ | ⟨hpe, hpt⟩ <;>
    rcases terminator?_pair hq with ⟨hqe, hqt⟩ | ⟨hqe, hqt⟩ <;> rw [hpt, hqt]
  · rw [hpe, hqe]
    exact ⟨fun _ => rfl, fun _ => .none⟩
  · rw [hpe, equal_nil_left hqe]
    exact iff_of_false (fun h => by cases h) Bool.false_ne_true
  · rw [hqe, equal_nil_right hpe]
    exact iff_of_false (fun h => by cases h) Bool.false_ne_true
  · constructor
    · intro h
      cases h with
      | some h => exact h
    · intro h
      exact .some h

/-! ### Lists -/

/-- **Lists compare by their elements.** Two pairs, the first holding no NaN float, are equal
exactly when their elements are equal one by one, as many on each side, and their terminators are
both absent or both present and equal. A pair has its elements listed exactly when it has no
terminator. And `CONS` of `x` and the empty list builds the list `LIST` builds of `x`: the empty
tail leaves no trace. -/
theorem lists_equal_by_items :
    (∀ p q : Value, p.isPair = true → q.isPair = true → p.NaNFree →
      (p.equal q = true ↔ List.Forall₂ (fun x y => x.equal y = true) p.items q.items ∧
        Option.Rel (fun x y => x.equal y = true) p.terminator? q.terminator?)) ∧
    (∀ p : Value, p.isPair = true → (p.listItems?.isSome ↔ p.terminator? = none)) ∧
    (∀ (a b : Nat) (x : Value), x.NaNFree →
      ∃ c, Primitive.makeCell a [x, nil] = .ok c ∧ c.equal (ofList b [x]) = true) := by
  refine ⟨fun p q hp hq hn => ?_, fun p hp => ?_, fun a b x hx => ?_⟩
  · rw [equal_iff_items_listEnd q hn, rel_terminator?_iff hp hq]
  · cases p with
    | nil => simp [listItems?, terminator?]
    | cons a x d =>
      rw [listItems?]
      cases h : (cons a x d).terminator? <;> simp
    | _ => cases hp
  · refine ⟨cons a x nil, rfl, ?_⟩
    have hn : (cons a x nil).NaNFree := leaves_cons_iff.2 ⟨hx, .leaf rfl rfl⟩
    exact (equal_cons_cons_iff hn).2 ⟨equal_self hx, rfl⟩

end Value

end MiniScheme
