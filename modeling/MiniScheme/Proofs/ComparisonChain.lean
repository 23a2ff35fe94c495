import MiniScheme.Eval.Primitive
import Mathlib.Data.List.Chain
/-!
# Comparison chains

A comparison primitive first turns every argument into a number of the kind its first argument
has, failing at the first argument of another kind, and only then compares neighbours. So a type
error anywhere in the chain wins over any comparison, and an integer chain holds exactly when every
two neighbours are related. For the five comparisons, all transitive, that is the order of the whole
sequence: all equal, strictly increasing, non-decreasing, strictly decreasing, non-increasing
(`List.Pairwise` of `Relation.holds`).

Main statement:

* `chain_checks_types_then_neighbours`: an integer chain gives the order of its whole sequence; the
  first argument of the wrong kind fails the chain with its position, for integer and float chains;
  no arguments fail on their number.
-/

namespace MiniScheme

namespace Relation

/-- The comparison on unbounded integers. -/
def holds : Relation → Int → Int → Prop
  | eq, a, b => a = b
  | lt, a, b => a < b
  | le, a, b => a ≤ b
  | gt, a, b => a > b
  | ge, a, b => a ≥ b

instance (rel : Relation) : DecidableRel rel.holds := fun a b =>
  match rel with
  | eq => inferInstanceAs (Decidable (a = b))
  | lt => inferInstanceAs (Decidable (a < b))
  | le => inferInstanceAs (Decidable (a ≤ b))
  | gt => inferInstanceAs (Decidable (a > b))
  | ge => inferInstanceAs (Decidable (a ≥ b))

theorem holds_trans (rel : Relation) {a b c : Int} (hab : rel.holds a b) (hbc : rel.holds b c) :
    rel.holds a c := by
  cases rel <;> simp only [holds] at hab hbc ⊢ <;> omega

/-- The comparison of 64-bit integers is that of the integers they stand for. -/
theorem onInt_iff (rel : Relation) (a b : Int64) : rel.onInt a b = true ↔ rel.holds a.toInt b.toInt := by
  cases rel <;> simp [onInt, holds]

/-- Neighbours related by a test is the chain of the relation the test decides. -/
theorem adjacent_iff_isChain {α : Type} {r : α → α → Bool} :
    ∀ {l : List α}, adjacent r l = true ↔ l.IsChain fun x y => r x y = true
  | [] => by simp [adjacent]
  | [x] => by simp [adjacent]
  | x :: y :: rest => by
    rw [adjacent, Bool.and_eq_true, adjacent_iff_isChain, List.isChain_cons_cons]

/-- For a transitive comparison, related neighbours are a sequence in order. -/
theorem adjacent_onInt (rel : Relation) (ns : List Int64) :
    adjacent rel.onInt ns = decide ((ns.map Int64.toInt).Pairwise rel.holds) := by
  have htrans : Trans rel.holds rel.holds rel.holds := ⟨rel.holds_trans⟩
  have hchain : adjacent rel.onInt ns = true ↔ (ns.map Int64.toInt).Pairwise rel.holds := by
    rw [adjacent_iff_isChain, ← List.isChain_iff_pairwise, List.isChain_map]
    simp only [onInt_iff]
  rw [Bool.eq_iff_iff, hchain, decide_eq_true_iff]

/-! ### Checking the arguments -/

/-- Integer arguments are taken as they are; checking goes on after them, at the position after
them. -/
theorem ints_append (name : String) (more : List Value) :
    ∀ (ns : List Int64) (i : Nat),
      ints name (ns.map .int ++ more) i = (ns ++ ·) <$> ints name more (i + ns.length)
  | [], i => by
    simp only [List.map_nil, List.nil_append, List.length_nil, Nat.add_zero]
    cases ints name more i <;> rfl
  | n :: ns, i => by
    have hidx : i + (n :: ns).length = i + 1 + ns.length := by
      rw [List.length_cons, Nat.add_assoc, Nat.add_comm ns.length 1]
    rw [List.map_cons, List.cons_append, ints, ints_append name more ns (i + 1), hidx]
    cases ints name more (i + 1 + ns.length) <;> rfl

/-- Float arguments are taken as they are; checking goes on after them, at the position after
them. -/
theorem floats_append (name : String) (more : List Value) :
    ∀ (xs : List Float) (i : Nat),
      floats name (xs.map .float ++ more) i = (xs ++ ·) <$> floats name more (i + xs.length)
  | [], i => by
    simp only [List.map_nil, List.nil_append, List.length_nil, Nat.add_zero]
    cases floats name more i <;> rfl
  | x :: xs, i => by
    have hidx : i + (x :: xs).length = i + 1 + xs.length := by
      rw [List.length_cons, Nat.add_assoc, Nat.add_comm xs.length 1]
    rw [List.map_cons, List.cons_append, floats, floats_append name more xs (i + 1), hidx]
    cases floats name more (i + 1 + xs.length) <;> rfl

theorem ints_map_int (name : String) (ns : List Int64) (i : Nat) :
    ints name (ns.map .int) i = .ok ns := by
  have h := ints_append name [] ns i
  rw [List.append_nil] at h
  rw [h, ints]
  exact congrArg Except.ok (List.append_nil ns)

/-! ### The primitive -/

section
variable (rel : Relation)

/-- An integer chain holds exactly when its whole sequence is in the relation's order. -/
theorem chain_ints (a : Int64) (ns : List Int64) :
    rel.chain (.int a :: ns.map .int) =
      .ok (.bool (decide (((a :: ns).map Int64.toInt).Pairwise rel.holds))) := by
  rw [chain.eq_2, ← List.map_cons, ints_map_int, ← adjacent_onInt]
  rfl

/-- The first argument of an integer chain that is no integer fails it with its position. -/
theorem chain_int_type_error (a : Int64) (ns : List Int64) (v : Value) (more : List Value)
    (hv : ∀ n, v ≠ .int n) :
    rel.chain (.int a :: (ns.map .int ++ v :: more)) =
      .error (.invalidArgumentType rel.name "integer" (ns.length + 1) v.typeName) := by
  rw [chain.eq_2, ← List.cons_append, ← List.map_cons, ints_append, ints.eq_3 _ _ _ _ hv,
    List.length_cons, Nat.zero_add]
  rfl

/-- The first argument of a float chain that is no float fails it with its position. -/
theorem chain_float_type_error (x : Float) (xs : List Float) (v : Value) (more : List Value)
    (hv : ∀ y, v ≠ .float y) :
    rel.chain (.float x :: (xs.map .float ++ v :: more)) =
      .error (.invalidArgumentType rel.name "float" (xs.length + 1) v.typeName) := by
  rw [chain.eq_3, ← List.cons_append, ← List.map_cons, floats_append, floats.eq_3 _ _ _ _ hv,
    List.length_cons, Nat.zero_add]
  rfl

end

/-- **Comparison chains check every type, then every neighbour.** An integer chain gives whether
its whole sequence is in the comparison's order (for one argument, always). After a prefix of the
first argument's kind, an argument of another kind fails the chain with its position, whatever the
comparisons before it give; for integer and float chains alike. Without arguments the primitive
fails on their number. -/
theorem chain_checks_types_then_neighbours (rel : Relation) :
    (∀ (a : Int64) (ns : List Int64), rel.chain (.int a :: ns.map .int) =
      .ok (.bool (decide (((a :: ns).map Int64.toInt).Pairwise rel.holds)))) ∧
    (∀ (a : Int64) (ns : List Int64) (v : Value) (more : List Value), (∀ n, v ≠ .int n) →
      rel.chain (.int a :: (ns.map .int ++ v :: more)) =
        .error (.invalidArgumentType rel.name "integer" (ns.length + 1) v.typeName)) ∧
    (∀ (x : Float) (xs : List Float) (v : Value) (more : List Value), (∀ y, v ≠ .float y) →
      rel.chain (.float x :: (xs.map .float ++ v :: more)) =
        .error (.invalidArgumentType rel.name "float" (xs.length + 1) v.typeName)) ∧
    rel.chain [] = .error (.invalidNumberOfArguments rel.name "1 or more" 0) :=
  ⟨chain_ints rel, chain_int_type_error rel, chain_float_type_error rel, rfl⟩

/-- `(< 3 1 2.0)` fails on its float at position 2, though `3 < 1` already fails. -/
theorem float_in_int_chain_fails :
    (∀ n, Value.float 2.0 ≠ .int n) ∧
      lt.chain [.int 3, .int 1, .float 2.0] = .error (.invalidArgumentType "<" "integer" 2 "float") :=
  have hv : ∀ n, Value.float 2.0 ≠ .int n := fun n h => by cases h
  ⟨hv, (chain_checks_types_then_neighbours lt).2.1 3 [1] (.float 2.0) [] hv⟩

end Relation

end MiniScheme
