import MiniScheme.Proofs.Similar
import MiniScheme.Proofs.Combination
import MiniScheme.Proofs.Canonical
/-!
# The list laws of `CAR`, `CDR`, `CONS` and `LIST`

The program's pairs have two optional slots, and its list primitives keep them canonical by three
normalisations (`Stored.makeCell`, `Stored.rest`, `Stored.makeDotted`): `CONS` onto the empty list
leaves the rest slot empty, `CDR` gives a new empty list for an empty rest slot, and `LIST` builds
its pairs from the right. Each undoes the others on every canonical pair, so the primitives satisfy
the list laws there: `CAR` and `CDR` undo `CONS`, `CONS` of the `CAR` and the `CDR` of a pair
rebuilds it at the new address, `LIST` is `CONS` folded from the right, and `LIST` of the elements
of a proper list rebuilds the list but for its addresses. `CAR` and `CDR` of the empty list or of
a value that is no pair fail with a type error.

In `Value` the normalisations are the shape of the type, and the model's primitives are the stored
ones on stored forms. On a machine, the laws hold up to the addresses of the new cells
(`Value.Alike`), and a failing `CAR` or `CDR` changes nothing (`list_laws`).

Main statement: `list_primitives_laws`.
-/

namespace MiniScheme

/-! ### The four primitives on a machine -/

namespace Eval

section
variable {ev : Evaluator} {frame : Nat}

theorem applyPrimitive_car (args : List Value) :
    applyPrimitive ev .car args frame = Exec.ofExcept (Primitive.first args) :=
  rfl

theorem applyPrimitive_cdr (args : List Value) :
    applyPrimitive ev .cdr args frame = Exec.ofExcept (Primitive.rest args) :=
  rfl

/-- `CAR` of a cell is its first element, and the machine stays as it was. -/
theorem applyPrimitive_car_cell (a : Nat) (x d : Value) (m : Machine) :
    applyPrimitive ev .car [.cons a x d] frame m = (.ok x, m) :=
  rfl

/-- `CDR` of a cell is its tail, the empty list where the list ends, and the machine stays as it
was. -/
theorem applyPrimitive_cdr_cell (a : Nat) (x d : Value) (m : Machine) :
    applyPrimitive ev .cdr [.cons a x d] frame m = (.ok d, m) :=
  rfl

/-- `CONS` puts its cell at the next fresh address. -/
theorem applyPrimitive_cons_apply (x d : Value) (m : Machine) :
    applyPrimitive ev .cons [x, d] frame m =
      (.ok (.cons m.next x d), { m with next := m.next + 1 }) :=
  rfl

/-- `LIST` puts all its cells at the next fresh address, which it takes even for no elements. -/
theorem applyPrimitive_list_apply (xs : List Value) (m : Machine) :
    applyPrimitive ev .list xs frame m = (.ok (.ofList m.next xs), { m with next := m.next + 1 }) :=
  rfl

end

end Eval

namespace Primitive

/-- `CAR` of anything but a cell is a type error naming what it got. -/
theorem first_of_not_cell {v : Value} (hv : ∀ a x d, v ≠ .cons a x d) :
    first [v] = .error (.invalidArgumentType "car" "pair" 0 v.typeName) := by
  cases v with
  | cons a x d => exact absurd rfl (hv a x d)
  | _ => rfl

/-- `CDR` of anything but a cell is a type error naming what it got. -/
theorem rest_of_not_cell {v : Value} (hv : ∀ a x d, v ≠ .cons a x d) :
    rest [v] = .error (.invalidArgumentType "cdr" "pair" 0 v.typeName) := by
  cases v with
  | cons a x d => exact absurd rfl (hv a x d)
  | _ => rfl

end Primitive

/-! ### Lists built from the right -/

namespace Value

/-- A list of `x` and more is, up to addresses, the cell of `x` in front of the list of the rest,
the rest being empty included. -/
theorem ofList_cons_alike (a b c : Nat) (x : Value) (xs : List Value) :
    (ofList a (x :: xs)).Alike (cons b x (ofList c xs)) := by
  rw [Alike, erase_ofList, erase_cons, erase_ofList, List.map_cons]
  cases xs <;> rfl

/-- The list of the elements of a proper list is that list, up to addresses. -/
theorem ofList_alike_of_listItems? : ∀ {l : Value} {xs : List Value}, l.listItems? = some xs →
    ∀ a, (ofList a xs).Alike l
  | nil, xs, h, a => by
    cases h
    rfl
  | cons b x d, xs, h, a => by
    rw [listItems?_cons] at h
    obtain ⟨ys, hd, rfl⟩ := Option.map_eq_some_iff.mp h
    calc (ofList a (x :: ys)).erase
        = (cons b x (ofList a ys)).erase := ofList_cons_alike a b a x ys
      _ = (cons b x d).erase := by rw [erase_cons, erase_cons, ofList_alike_of_listItems? hd a]
  | unspecified, _, h, _ | bool _, _, h, _ | int _, _, h, _ | float _, _, h, _ | char _, _, h, _
  | str _, _, h, _ | sym _, _, h, _ | vector _, _, h, _ | closure .., _, h, _ | prim _, _, h, _
  | env _, _, h, _ | error _, _, h, _ => by cases h

end Value

open Eval in
/-- **The list laws.** In any machine `m`: `CAR` and `CDR` of `CONS` of `a` and `b` give back `a`
and `b` (the empty list when `b` is empty); `CONS` of the `CAR` and the `CDR` of a cell rebuilds the
cell; `LIST` of nothing is the empty list, and `LIST` of `a` and more is `CONS` of `a` onto `LIST` of
the rest; `LIST` of the elements of a proper list rebuilds the list; all up to the addresses of the
new cells. `CAR` and `CDR` of the empty list or of any other value that is not a cell fail with a
type error and leave the machine as it was. `CAR` and `CDR` of a cell read it and leave the machine
as it was; `CONS` takes the next fresh address. -/
theorem list_laws (ev : Evaluator) (E : Nat) (m : Machine) :
    (∀ a b : Value,
      (applyPrimitive ev .cons [a, b] E >>= fun c => applyPrimitive ev .car [c] E) m =
          (.ok a, { m with next := m.next + 1 }) ∧
        (applyPrimitive ev .cons [a, b] E >>= fun c => applyPrimitive ev .cdr [c] E) m =
          (.ok b, { m with next := m.next + 1 })) ∧
    (∀ (addr : Nat) (x d : Value), ∃ q,
      (applyPrimitive ev .car [.cons addr x d] E >>= fun y =>
          applyPrimitive ev .cdr [.cons addr x d] E >>= fun e => applyPrimitive ev .cons [y, e] E) m =
        (.ok q, { m with next := m.next + 1 }) ∧ q.Alike (.cons addr x d)) ∧
    applyPrimitive ev .list [] E m = (.ok .nil, { m with next := m.next + 1 }) ∧
    (∀ (a : Value) (as : List Value), ∃ v w,
      applyPrimitive ev .list (a :: as) E m = (.ok v, { m with next := m.next + 1 }) ∧
        (applyPrimitive ev .list as E >>= fun l => applyPrimitive ev .cons [a, l] E) m =
          (.ok w, { m with next := m.next + 2 }) ∧
        v.Alike w) ∧
    (∀ (l : Value) (xs : List Value), l.listItems? = some xs → ∃ v,
      applyPrimitive ev .list xs E m = (.ok v, { m with next := m.next + 1 }) ∧ v.Alike l) ∧
    (∀ v : Value, (∀ a x d, v ≠ .cons a x d) →
      applyPrimitive ev .car [v] E m =
          (.error (.eval (.invalidArgumentType "car" "pair" 0 v.typeName)), m) ∧
        applyPrimitive ev .cdr [v] E m =
          (.error (.eval (.invalidArgumentType "cdr" "pair" 0 v.typeName)), m)) := by
  refine ⟨fun a b => ⟨?_, ?_⟩, fun addr x d => ?_, rfl, fun a as => ?_, fun l xs hl => ?_,
    fun v hv => ⟨?_, ?_⟩⟩
  · rw [Exec.bind_ok (applyPrimitive_cons_apply a b m)]
    exact applyPrimitive_car_cell _ a b _
  · rw [Exec.bind_ok (applyPrimitive_cons_apply a b m)]
    exact applyPrimitive_cdr_cell _ a b _
  · refine ⟨.cons m.next x d, ?_, rfl⟩
    rw [Exec.bind_ok (applyPrimitive_car_cell addr x d m),
      Exec.bind_ok (applyPrimitive_cdr_cell addr x d m)]
    exact applyPrimitive_cons_apply x d m
  · refine ⟨.ofList m.next (a :: as), .cons (m.next + 1) a (.ofList m.next as),
      applyPrimitive_list_apply (a :: as) m, ?_, Value.ofList_cons_alike _ _ _ a as⟩
    rw [Exec.bind_ok (applyPrimitive_list_apply as m)]
    exact applyPrimitive_cons_apply a _ _
  · exact ⟨.ofList m.next xs, applyPrimitive_list_apply xs m, Value.ofList_alike_of_listItems? hl _⟩
  · rw [applyPrimitive_car, Primitive.first_of_not_cell hv]
    rfl
  · rw [applyPrimitive_cdr, Primitive.rest_of_not_cell hv]
    rfl

/-! ### The laws on stored pairs -/

namespace Stored

@[simp] theorem erase_pair (a : Nat) (c d : Option Stored) :
    (pair a c d).erase = pair 0 (eraseSlot c) (eraseSlot d) :=
  rfl

@[simp] theorem eraseSlot_some (x : Stored) : eraseSlot (some x) = some x.erase :=
  rfl

theorem getD_restSlot (d : Stored) :
    (restSlot d).getD emptyList = if d.isEmptyList then emptyList else d := by
  cases h : d.isEmptyList
  · rw [restSlot_of_not_isEmptyList h]
    rfl
  · rw [restSlot_of_isEmptyList h]
    rfl

/-- `CONS` puts back the rest slot of a canonical pair as `CDR` gives it: a missing rest comes back
from `CDR` as a new empty list and goes back to a missing one, and a rest that is there is never the
empty list. -/
theorem restSlot_getD {a : Nat} {x : Stored} {d : Option Stored} (h : (pair a (some x) d).Canonical) :
    restSlot (d.getD emptyList) = d := by
  cases h with
  | last => rfl
  | more => rfl
  | dotted _ _ ht => exact restSlot_of_not_isEmptyList (isEmptyList_eq_false_of_isPair ht)

theorem rest_pair_some (a : Nat) (x : Stored) (d : Option Stored) :
    rest [pair a (some x) d] = .ok (d.getD emptyList) :=
  rfl

/-- `LIST` puts its first argument in front of the list of the others, as `CONS` does. -/
theorem makeList_cons (n : Nat) (a : Stored) :
    ∀ as : List Stored, makeList n (a :: as) = pair n (some a) (restSlot (makeList n as))
  | [] => rfl
  | b :: bs => makeDotted_cons_eq_restSlot (List.cons_ne_nil b bs) n a none

theorem isEmptyList_makeList_cons (n : Nat) (a : Stored) (as : List Stored) :
    (makeList n (a :: as)).isEmptyList = false := by
  rw [makeList_cons]
  rfl

/-- `LIST` of the elements of a canonical proper list is that list, but for its addresses. -/
theorem erase_makeList_items (n : Nat) {l : Stored} (hl : l.Canonical) (ht : l.tail = none) :
    (makeList n l.items).erase = l.erase := by
  induction hl with
  | empty a => rfl
  | last a x => rfl
  | @more a x b y e hp ih =>
    have hne : (makeList n (pair b (some y) e).items).isEmptyList = false := by
      rw [items_pair_some]
      exact isEmptyList_makeList_cons n _ _
    rw [items_pair_some, itemsAfter_pair_some, makeList_cons, restSlot_of_not_isEmptyList hne,
      erase_pair, erase_pair, eraseSlot_some, eraseSlot_some, ih ht]
    rfl
  | dotted a x hnp =>
    rw [tail_pair, tailAfter_of_isPair_false hnp] at ht
    cases ht

end Stored

open Stored in
/-- **The list laws.** For any values `a` and `b`, `CAR` of `CONS` of `a` and `b` is `a`, and `CDR`
of it is `b`, or a new empty list when `b` is the empty list. For a canonical pair that is not
empty, `CONS` of its `CAR` and its `CDR` is the same pair at the new address: `CDR` gives a new empty
list for a missing rest and `CONS` leaves the rest missing again. `LIST` of nothing is the empty
list, and `LIST` of `a` and more is `CONS` of `a` onto `LIST` of the rest, at the same address. `LIST`
of the elements of a canonical proper list is that list but for its addresses. `CAR` and `CDR` of
the empty list or of any value that is no pair fail with a type error. The model's `CAR`, `CDR`,
`CONS` and `LIST` are these, on the stored forms of their arguments. -/
theorem list_primitives_laws :
    (∀ (n : Nat) (a b : Stored),
      (makeCell n [a, b] >>= fun c => first [c]) = .ok a ∧
        (makeCell n [a, b] >>= fun c => rest [c]) = .ok (if b.isEmptyList then emptyList else b)) ∧
    (∀ (n a : Nat) (x : Stored) (d : Option Stored), (pair a (some x) d).Canonical →
      (first [pair a (some x) d] >>= fun y => rest [pair a (some x) d] >>= fun e =>
        makeCell n [y, e]) = .ok (pair n (some x) d)) ∧
    (∀ n : Nat, list n [] = .ok emptyList) ∧
    (∀ (n : Nat) (a : Stored) (as : List Stored),
      list n (a :: as) = (list n as >>= fun l => makeCell n [a, l])) ∧
    (∀ (n : Nat) (l : Stored), l.Canonical → l.tail = none →
      ∃ v, list n l.items = .ok v ∧ v.erase = l.erase) ∧
    (∀ v : Stored, v.isEmptyList = true ∨ v.isPair = false →
      first [v] = .error (.invalidArgumentType "car" "pair" 0 v.typeName) ∧
        rest [v] = .error (.invalidArgumentType "cdr" "pair" 0 v.typeName)) ∧
    (∀ (n : Nat) (args : List Value),
      (Primitive.first args).map Value.stored = first (args.map Value.stored) ∧
        (Primitive.rest args).map Value.stored = rest (args.map Value.stored) ∧
        (Primitive.makeCell n args).map Value.stored = makeCell n (args.map Value.stored) ∧
        (Value.ofList n args).stored = makeList n (args.map Value.stored)) := by
  refine ⟨fun n a b => ⟨rfl, ?_⟩, fun n a x d hp => ?_, fun _ => rfl, fun n a as => ?_,
    fun n l hl ht => ⟨_, rfl, erase_makeList_items n hl ht⟩, fun v hv => ?_,
    fun n args => ⟨Value.stored_first args, Value.stored_rest args, Value.stored_makeCell n args,
      Value.stored_ofList n args⟩⟩
  · show rest [pair n (some a) (restSlot b)] = _
    rw [rest_pair_some, getD_restSlot]
  · show makeCell n [x, d.getD emptyList] = _
    rw [makeCell, restSlot_getD hp]
  · show Except.ok (makeList n (a :: as)) = makeCell n [a, makeList n as]
    rw [makeList_cons]
    rfl
  · rcases hv with hv | hv
    · obtain ⟨a, rfl⟩ := eq_pair_of_isEmptyList hv
      exact ⟨rfl, rfl⟩
    · cases v with
      | pair => cases hv
      | _ => exact ⟨rfl, rfl⟩

/-- A pair holding the empty list as its rest, the shape no operation builds, is not rebuilt by
`CONS` of its `CAR` and its `CDR`. -/
example : (Stored.first [.pair 0 (some (.int 1)) (some .emptyList)] >>= fun y =>
    Stored.rest [.pair 0 (some (.int 1)) (some .emptyList)] >>= fun e => Stored.makeCell 0 [y, e]) =
      .ok (.pair 0 (some (.int 1)) none) :=
  rfl

end MiniScheme
