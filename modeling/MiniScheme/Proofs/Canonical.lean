import MiniScheme.Value.Stored
import MiniScheme.Eval.Primitive
import MiniScheme.Proofs.Display
import MiniScheme.Proofs.ListEquality
/-!
# Pairs stay canonical

A stored pair can hold the empty list as its rest, a shape no list of the program has: it would
have the same elements and the same end as the list with no rest, and yet compare unequal to it.
The operations that build pairs never make it, each for a reason of its own: `makeDotted` leaves an
empty tail out, `CONS` (`makeCell`) leaves the rest slot empty for an empty rest (`restSlot`), and
`CDR` (`rest`) gives a new empty list for a missing rest, which `CONS` turns back into a missing
one. So they keep every pair canonical (`AllCanonical`), and the stored form of every value of the
model is canonical: the model's cells are `CONS`'s, its lists `makeDotted`'s, and its `CAR`, `CDR`,
`CONS` and `LIST` are the stored ones (`Value.stored_makeCell`, `Value.stored_rest`,
`Value.stored_dotted`).

On canonical pairs, equality is equality of the list views: two pairs are equal exactly when
their elements are equal one by one and their ends are both missing or both present and equal
(`eq_iff_items_tail`).

Main statement: `pairs_stay_canonical`.
-/

namespace MiniScheme

namespace Stored

/-! ### Shapes of pairs -/

@[simp] theorem isEmptyList_pair_some (a : Nat) (x : Stored) (d : Option Stored) :
    (pair a (some x) d).isEmptyList = false :=
  rfl

@[simp] theorem isEmptyList_emptyList : emptyList.isEmptyList = true :=
  rfl

/-- An empty list is the empty pair at some address. -/
theorem eq_pair_of_isEmptyList {v : Stored} (h : v.isEmptyList = true) : ∃ a, v = pair a none none := by
  cases v with
  | pair a c d =>
    cases c with
    | some => cases h
    | none =>
      cases d with
      | some => cases h
      | none => exact ⟨a, rfl⟩
  | _ => cases h

theorem isEmptyList_eq_false_of_isPair {v : Stored} (h : v.isPair = false) : v.isEmptyList = false := by
  cases v with
  | pair => cases h
  | _ => rfl

@[simp] theorem restSlot_of_isEmptyList {d : Stored} (h : d.isEmptyList = true) : restSlot d = none :=
  if_pos h

@[simp] theorem restSlot_of_not_isEmptyList {d : Stored} (h : d.isEmptyList = false) :
    restSlot d = some d :=
  if_neg (by simp [h])

/-- Leaving an empty tail out is putting the tail into a rest slot. -/
theorem filter_eq_bind_restSlot (t : Option Stored) :
    t.filter (fun u => !u.isEmptyList) = t.bind restSlot := by
  cases t with
  | none => rfl
  | some d =>
    cases h : d.isEmptyList
    · rw [Option.bind_some, restSlot_of_not_isEmptyList h]
      simp [Option.filter, h]
    · rw [Option.bind_some, restSlot_of_isEmptyList h]
      simp [Option.filter, h]

/-- A canonical pair with an empty first slot is the empty pair. -/
theorem Canonical.car_some {a : Nat} {c d : Option Stored} (h : (pair a c d).Canonical)
    (hne : (pair a c d).isEmptyList = false) : ∃ y, c = some y := by
  cases h with
  | empty => cases hne
  | last _ x => exact ⟨x, rfl⟩
  | more _ x _ => exact ⟨x, rfl⟩
  | dotted _ x _ => exact ⟨x, rfl⟩

theorem holdsValues_of_isPair {v : Stored} (h : v.isPair = true) : v.holdsValues = true := by
  cases v with
  | pair => rfl
  | _ => simp [isPair] at h

theorem AllCanonical.canonical {v : Stored} (h : v.AllCanonical) (hv : v.isPair = true) :
    v.Canonical := by
  cases h with
  | pair hc _ _ => exact hc
  | vector => cases hv
  | closure => cases hv
  | leaf hl =>
    rw [holdsValues_of_isPair hv] at hl
    cases hl

theorem AllCanonical.of_pair {a : Nat} {c d : Option Stored} (h : (Stored.pair a c d).AllCanonical) :
    (∀ x ∈ c, x.AllCanonical) ∧ ∀ x ∈ d, x.AllCanonical := by
  cases h with
  | pair _ hc hd => exact ⟨hc, hd⟩
  | leaf hl => cases hl

/-! ### Pairs built one at a time -/

/-- A pair whose rest slot is filled as `CONS` fills it is canonical, whatever canonical value its
rest is. -/
theorem canonical_restSlot (a : Nat) (x : Stored) {d : Stored} (hd : d.isPair = true → d.Canonical) :
    (pair a (some x) (restSlot d)).Canonical := by
  cases he : d.isEmptyList
  · rw [restSlot_of_not_isEmptyList he]
    cases d with
    | pair b c e =>
      obtain ⟨y, rfl⟩ := (hd rfl).car_some he
      exact .more a x (hd rfl)
    | _ => exact .dotted a x rfl
  · rw [restSlot_of_isEmptyList he]
    exact .last a x

theorem allCanonical_cell (a : Nat) {x d : Stored} (hx : x.AllCanonical) (hd : d.AllCanonical) :
    (pair a (some x) (restSlot d)).AllCanonical := by
  refine .pair (canonical_restSlot a x hd.canonical) ?_ ?_
  · rintro y ⟨⟩
    exact hx
  · intro y hy
    rw [restSlot] at hy
    split at hy
    · cases hy
    · cases hy
      exact hd

theorem allCanonical_emptyList : emptyList.AllCanonical :=
  .pair (.empty 0) (fun _ h => by cases h) (fun _ h => by cases h)

/-! ### Lists built from their elements -/

/-- Built from the last element, `makeDotted` puts the elements in front of the tail from the
right. -/
theorem makeDotted_concat (a : Nat) (xs : List Stored) (last : Stored) (t : Option Stored) :
    makeDotted a (xs ++ [last]) t =
      xs.foldr (fun car acc => pair a (some car) (some acc)) (pair a (some last) (t.bind restSlot)) := by
  simp only [makeDotted, List.reverse_append, List.reverse_cons, List.reverse_nil, List.nil_append,
    List.singleton_append, List.foldl_reverse, filter_eq_bind_restSlot]

@[simp] theorem makeDotted_nil (a : Nat) (t : Option Stored) : makeDotted a [] t = emptyList :=
  rfl

theorem makeDotted_singleton (a : Nat) (x : Stored) (t : Option Stored) :
    makeDotted a [x] t = pair a (some x) (t.bind restSlot) := by
  simpa using makeDotted_concat a [] x t

/-- An element in front of a list that is not empty is one more pair in front of it. -/
theorem makeDotted_cons {xs : List Stored} (hxs : xs ≠ []) (a : Nat) (x : Stored) (t : Option Stored) :
    makeDotted a (x :: xs) t = pair a (some x) (some (makeDotted a xs t)) := by
  obtain ⟨ys, last, rfl⟩ := (List.eq_nil_or_concat xs).resolve_left hxs
  rw [List.concat_eq_append, ← List.cons_append, makeDotted_concat, makeDotted_concat,
    List.foldr_cons]

theorem makeDotted_cons_eq_restSlot {xs : List Stored} (hxs : xs ≠ []) (a : Nat) (x : Stored)
    (t : Option Stored) : makeDotted a (x :: xs) t = pair a (some x) (restSlot (makeDotted a xs t)) := by
  obtain ⟨y, ys, rfl⟩ := List.exists_cons_of_ne_nil hxs
  rw [makeDotted_cons hxs, restSlot_of_not_isEmptyList]
  cases ys with
  | nil => rw [makeDotted_singleton]; rfl
  | cons z zs => rw [makeDotted_cons (List.cons_ne_nil z zs)]; rfl

/-- An empty list as the tail leaves a proper list. -/
theorem makeDotted_of_isEmptyList (a : Nat) (xs : List Stored) {e : Stored} (he : e.isEmptyList = true) :
    makeDotted a xs (some e) = makeList a xs := by
  have htail : (some e).filter (fun u => !u.isEmptyList) = (none : Option Stored).filter
      (fun u => !u.isEmptyList) := by
    simp [Option.filter, he]
  simp only [makeList, makeDotted, htail]

theorem allCanonical_makeDotted (a : Nat) {t : Option Stored} (ht : ∀ u ∈ t, u.AllCanonical) :
    ∀ {xs : List Stored}, (∀ x ∈ xs, x.AllCanonical) → (makeDotted a xs t).AllCanonical
  | [], _ => allCanonical_emptyList
  | [x], hxs => by
    rw [makeDotted_singleton]
    cases t with
    | none => exact .pair (.last a x) (by rintro y ⟨⟩; exact hxs x (by simp)) (fun _ h => by cases h)
    | some d => exact allCanonical_cell a (hxs x (by simp)) (ht d rfl)
  | x :: y :: ys, hxs => by
    rw [makeDotted_cons_eq_restSlot (List.cons_ne_nil y ys)]
    exact allCanonical_cell a (hxs x (by simp))
      (allCanonical_makeDotted a ht fun z hz => hxs z (List.mem_cons_of_mem x hz))

/-! ### The list primitives -/

section
variable {args : List Stored} {v : Stored}

theorem allCanonical_first (h : ∀ x ∈ args, x.AllCanonical) (hv : first args = .ok v) :
    v.AllCanonical := by
  unfold first at hv
  split at hv
  · cases hv
    exact (h _ List.mem_cons_self).of_pair.1 v rfl
  · cases hv
  · cases hv

theorem allCanonical_rest (h : ∀ x ∈ args, x.AllCanonical) (hv : rest args = .ok v) :
    v.AllCanonical := by
  unfold rest at hv
  split at hv
  · next a c d =>
    split at hv
    · cases hv
    · cases hv
      cases d with
      | none => exact allCanonical_emptyList
      | some e => exact (h _ List.mem_cons_self).of_pair.2 e rfl
  · cases hv
  · cases hv

theorem allCanonical_makeCell {a : Nat} (h : ∀ x ∈ args, x.AllCanonical) (hv : makeCell a args = .ok v) :
    v.AllCanonical := by
  unfold makeCell at hv
  split at hv
  · next x d =>
    cases hv
    exact allCanonical_cell a (h x (by simp)) (h d (by simp))
  · cases hv

theorem allCanonical_list {a : Nat} (h : ∀ x ∈ args, x.AllCanonical) (hv : list a args = .ok v) :
    v.AllCanonical := by
  cases hv
  exact allCanonical_makeDotted a (fun _ hu => by cases hu) h

end

end Stored

/-! ### Equality -/

namespace Stored

mutual
/-- `same` is identity. -/
theorem eq_of_same : ∀ {v w : Stored}, same v w = true → v = w
  | pair a c d, w, h => by
    cases w with
    | pair b c' d' =>
      simp only [same, Bool.and_eq_true, beq_iff_eq] at h
      rw [h.1.1, eq_of_sameSlot h.1.2, eq_of_sameSlot h.2]
    | _ => simp [same] at h
  | vector xs, w, h => by
    cases w with
    | vector ys =>
      rw [same] at h
      rw [eq_of_sameAll h]
    | _ => simp [same] at h
  | closure a ps b s, w, h => by
    cases w with
    | closure a' ps' b' s' =>
      simp only [same, Bool.and_eq_true, beq_iff_eq] at h
      rw [h.1.1.1, h.1.1.2, eq_of_same h.1.2, h.2]
    | _ => simp [same] at h
  | float a, w, h => by
    cases w with
    | float b =>
      simp only [same, beq_iff_eq] at h
      rw [Binary64.eq_of_toBits_eq h]
    | _ => simp [same] at h
  | unspecified, w, h | bool _, w, h | int _, w, h | char _, w, h | str _, w, h | sym _, w, h
  | prim _, w, h | env _, w, h | error _, w, h => by
    cases w <;> simp_all [same]

theorem eq_of_sameSlot : ∀ {c c' : Option Stored}, sameSlot c c' = true → c = c'
  | none, none, _ => rfl
  | some x, some y, h => by
    rw [sameSlot] at h
    rw [eq_of_same h]
  | none, some _, h | some _, none, h => by simp [sameSlot] at h

theorem eq_of_sameAll : ∀ {xs ys : List Stored}, sameAll xs ys = true → xs = ys
  | [], [], _ => rfl
  | x :: xs, y :: ys, h => by
    simp only [sameAll, Bool.and_eq_true] at h
    rw [eq_of_same h.1, eq_of_sameAll h.2]
  | [], _ :: _, h | _ :: _, [], h => by simp [sameAll] at h
end

mutual
/-- A value that holds no NaN float is equal to itself. -/
theorem eq_self : ∀ {v : Stored}, v.hasNaN = false → v.eq v = true
  | pair a c d, h => by
    simp only [hasNaN, Bool.or_eq_false_iff] at h
    rw [eq, Bool.or_eq_true, Bool.and_eq_true]
    exact .inr ⟨eqSlot_self h.1, eqSlot_self h.2⟩
  | vector xs, h => by
    rw [hasNaN] at h
    rw [eq]
    exact eqAll_self h
  | float x, h => by
    rw [hasNaN] at h
    rw [eq, Binary64.beq_self, h]
    rfl
  | closure .., _ | unspecified, _ | bool _, _ | int _, _ | char _, _ | str _, _ | sym _, _
  | prim _, _ | env _, _ | error _, _ => by
    simp [eq]

theorem eqSlot_self : ∀ {c : Option Stored}, hasNaNSlot c = false → eqSlot c c = true
  | none, _ => rfl
  | some x, h => by
    rw [hasNaNSlot] at h
    rw [eqSlot]
    exact eq_self h

theorem eqAll_self : ∀ {xs : List Stored}, hasNaNAll xs = false → eqAll xs xs = true
  | [], _ => rfl
  | x :: xs, h => by
    simp only [hasNaNAll, Bool.or_eq_false_iff] at h
    rw [eqAll, eq_self h.1, eqAll_self h.2]
    rfl
end

/-- Where the first holds no NaN float, two pairs are equal exactly when their slots are: the
identity shortcut adds nothing. -/
theorem eq_pair {a b : Nat} {c d c' d' : Option Stored} (hn : (pair a c d).hasNaN = false) :
    (pair a c d).eq (pair b c' d') = (eqSlot c c' && eqSlot d d') := by
  rw [eq]
  cases hs : same (pair a c d) (pair b c' d')
  · rfl
  · cases eq_of_same hs
    simp only [hasNaN, Bool.or_eq_false_iff] at hn
    rw [eqSlot_self hn.1, eqSlot_self hn.2]
    rfl

theorem eqAll_iff_forall₂ : ∀ {xs ys : List Stored},
    eqAll xs ys = true ↔ List.Forall₂ (fun x y => x.eq y = true) xs ys
  | [], [] => iff_of_true rfl .nil
  | x :: xs, y :: ys => by
    rw [eqAll, Bool.and_eq_true, List.forall₂_cons, eqAll_iff_forall₂]
  | [], _ :: _ | _ :: _, [] => by simp [eqAll]

theorem eqSlot_iff_rel : ∀ {c c' : Option Stored},
    eqSlot c c' = true ↔ Option.Rel (fun x y => x.eq y = true) c c'
  | none, none => iff_of_true rfl .none
  | some x, some y => by rw [eqSlot, Option.rel_some_some]
  | none, some _ | some _, none => by simp [eqSlot]

/-! ### The views of canonical pairs -/

@[simp] theorem eqSlot_none_none : eqSlot none none = true :=
  rfl

@[simp] theorem eqSlot_some_some (x y : Stored) : eqSlot (some x) (some y) = x.eq y :=
  rfl

@[simp] theorem eqSlot_none_some (y : Stored) : eqSlot none (some y) = false :=
  rfl

@[simp] theorem eqSlot_some_none (x : Stored) : eqSlot (some x) none = false :=
  rfl

@[simp] theorem eqAll_nil_nil : eqAll [] [] = true :=
  rfl

@[simp] theorem eqAll_cons_cons (x y : Stored) (xs ys : List Stored) :
    eqAll (x :: xs) (y :: ys) = (x.eq y && eqAll xs ys) :=
  rfl

@[simp] theorem eqAll_nil_cons (y : Stored) (ys : List Stored) : eqAll [] (y :: ys) = false :=
  rfl

@[simp] theorem eqAll_cons_nil (x : Stored) (xs : List Stored) : eqAll (x :: xs) [] = false :=
  rfl

theorem eq_pair_left {a : Nat} {c d : Option Stored} {t : Stored} (ht : t.isPair = false) :
    (pair a c d).eq t = false := by
  cases t with
  | pair => cases ht
  | _ => rfl

theorem eq_pair_right {a : Nat} {c d : Option Stored} {t : Stored} (ht : t.isPair = false) :
    t.eq (pair a c d) = false := by
  cases t with
  | pair => cases ht
  | _ => rfl

theorem hasNaN_pair_some_some {a : Nat} {x d : Stored} :
    (pair a (some x) (some d)).hasNaN = false ↔ x.hasNaN = false ∧ d.hasNaN = false := by
  rw [hasNaN, hasNaNSlot, hasNaNSlot, Bool.or_eq_false_iff]

@[simp] theorem items_pair_some (a : Nat) (x : Stored) (d : Option Stored) :
    (pair a (some x) d).items = x :: itemsAfter d :=
  rfl

@[simp] theorem items_pair_none (a : Nat) (d : Option Stored) : (pair a none d).items = [] :=
  rfl

@[simp] theorem itemsAfter_pair_some (b : Nat) (y : Stored) (e : Option Stored) :
    itemsAfter (some (pair b (some y) e)) = (pair b (some y) e).items :=
  rfl

@[simp] theorem itemsAfter_none : itemsAfter none = [] :=
  rfl

theorem itemsAfter_of_isPair_false {t : Stored} (ht : t.isPair = false) : itemsAfter (some t) = [] := by
  cases t with
  | pair => cases ht
  | _ => rfl

@[simp] theorem tail_pair (a : Nat) (c d : Option Stored) : (pair a c d).tail = tailAfter d :=
  rfl

@[simp] theorem tailAfter_pair_some (b : Nat) (y : Stored) (e : Option Stored) :
    tailAfter (some (pair b (some y) e)) = tailAfter e :=
  rfl

@[simp] theorem tailAfter_none : tailAfter none = none :=
  rfl

theorem tailAfter_of_isPair_false {t : Stored} (ht : t.isPair = false) :
    tailAfter (some t) = some t := by
  cases t with
  | pair => cases ht
  | _ => rfl

/-- On canonical pairs, the first holding no NaN float, equality is equality of the elements and of
the ends. -/
theorem eq_eq_views {p : Stored} (hp : p.Canonical) (hn : p.hasNaN = false) :
    ∀ {q : Stored}, q.Canonical → p.eq q = (eqAll p.items q.items && eqSlot p.tail q.tail) := by
  induction hp with
  | empty a =>
    intro q hq
    cases hq <;> simp [eq_pair hn]
  | last a x =>
    intro q hq
    cases hq with
    | dotted b y ht => simp [eq_pair hn, itemsAfter_of_isPair_false ht, tailAfter_of_isPair_false ht]
    | _ => simp [eq_pair hn]
  | more a x hp' ih =>
    intro q hq
    have hp'n := (hasNaN_pair_some_some.mp hn).2
    cases hq with
    | more b y hq' =>
      rw [eq_pair hn, eqSlot_some_some, eqSlot_some_some, ih hp'n hq']
      simp [Bool.and_assoc]
    | dotted b y ht =>
      simp [eq_pair hn, eq_pair_left ht, itemsAfter_of_isPair_false ht, tailAfter_of_isPair_false ht]
    | _ => simp [eq_pair hn]
  | dotted a x ht =>
    intro q hq
    cases hq with
    | more b y hq' => simp [eq_pair hn, eq_pair_right ht, itemsAfter_of_isPair_false ht]
    | dotted b y hu =>
      simp [eq_pair hn, itemsAfter_of_isPair_false ht, tailAfter_of_isPair_false ht,
        itemsAfter_of_isPair_false hu, tailAfter_of_isPair_false hu]
    | _ => simp [eq_pair hn, itemsAfter_of_isPair_false ht, tailAfter_of_isPair_false ht]

/-- **Canonical pairs compare by their views.** Two canonical pairs, the first holding no NaN
float, are equal exactly when their elements are equal one by one, as many on each side, and their
ends are both missing or both present and equal. -/
theorem eq_iff_items_tail {p q : Stored} (hp : p.Canonical) (hq : q.Canonical) (hn : p.hasNaN = false) :
    p.eq q = true ↔ List.Forall₂ (fun x y => x.eq y = true) p.items q.items ∧
      Option.Rel (fun x y => x.eq y = true) p.tail q.tail := by
  rw [eq_eq_views hp hn hq, Bool.and_eq_true, eqAll_iff_forall₂, eqSlot_iff_rel]

end Stored

/-! ### The stored form of the model's values -/

namespace Value

open Stored

theorem isEmptyList_stored {v : Value} : v.stored.isEmptyList = true ↔ v = nil := by
  cases v with
  | nil => exact iff_of_true rfl rfl
  | cons a x d => cases d <;> simp [stored]
  | _ => simp [stored, isEmptyList]

/-- A cell is stored as `CONS` stores it: its rest slot is empty where its rest is the empty list. -/
theorem stored_cons (a : Nat) (x d : Value) :
    (cons a x d).stored = .pair a (some x.stored) (restSlot d.stored) := by
  cases h : d.stored.isEmptyList
  · rw [restSlot_of_not_isEmptyList h]
    cases d with
    | nil => cases h
    | _ => rfl
  · rw [restSlot_of_isEmptyList h, isEmptyList_stored.mp h]
    rfl

theorem getD_restSlot_stored (d : Value) : (restSlot d.stored).getD emptyList = d.stored := by
  cases h : d.stored.isEmptyList
  · rw [restSlot_of_not_isEmptyList h]
    rfl
  · rw [restSlot_of_isEmptyList h, isEmptyList_stored.mp h]
    rfl

@[simp] theorem typeName_stored (v : Value) : v.stored.typeName = v.typeName := by
  cases v with
  | cons a x d => cases d <;> rfl
  | _ => rfl

mutual
/-- Every pair of the stored form of a value is canonical. -/
theorem stored_allCanonical : ∀ v : Value, v.stored.AllCanonical
  | cons a x d => by
    rw [stored_cons]
    exact allCanonical_cell a (stored_allCanonical x) (stored_allCanonical d)
  | vector xs => .vector (storedAll_allCanonical xs)
  | closure _ _ b _ => .closure (stored_allCanonical b)
  | nil => allCanonical_emptyList
  | unspecified | bool _ | int _ | float _ | char _ | str _ | sym _ | prim _ | env _ | error _ =>
    .leaf rfl

theorem storedAll_allCanonical : ∀ (xs : List Value), ∀ y ∈ storedAll xs, y.AllCanonical
  | [], _, h => by cases h
  | x :: xs, y, h => by
    rcases List.mem_cons.mp h with rfl | h
    · exact stored_allCanonical x
    · exact storedAll_allCanonical xs y h
end

/-- The model's lists are built as `makeDotted` builds them. -/
theorem stored_dotted (a : Nat) (t : Value) (xs : List Value) :
    (dotted a t xs).stored = makeDotted a (xs.map stored) (some t.stored) := by
  induction xs with
  | nil => rfl
  | cons x xs ih =>
    cases xs with
    | nil =>
      rw [List.map_singleton, makeDotted_singleton, Option.bind_some, ← stored_cons]
      rfl
    | cons y ys =>
      rw [List.map_cons, makeDotted_cons_eq_restSlot (by simp), ← ih, ← stored_cons]
      rfl

theorem stored_ofList (a : Nat) (xs : List Value) :
    (ofList a xs).stored = makeList a (xs.map stored) := by
  rw [ofList, stored_dotted, makeDotted_of_isEmptyList a _ rfl]

/-- The model's `CONS` is the stored one. -/
theorem stored_makeCell (a : Nat) :
    ∀ args : List Value, (Primitive.makeCell a args).map stored = makeCell a (args.map stored)
  | [x, d] => by
    show Except.ok (cons a x d).stored = Except.ok _
    rw [stored_cons]
  | [] | [_] | _ :: _ :: _ :: _ => by simp [Primitive.makeCell, makeCell, Except.map]

/-- The model's `CDR` is the stored one. -/
theorem stored_rest : ∀ args : List Value, (Primitive.rest args).map stored = rest (args.map stored)
  | [v] => by
    cases v with
    | cons a x d =>
      show Except.ok d.stored = rest [(cons a x d).stored]
      rw [stored_cons, rest, if_neg (by simp), getD_restSlot_stored]
    | _ => rfl
  | [] | _ :: _ :: _ => by simp [Primitive.rest, rest, Except.map]

/-- The model's `CAR` is the stored one. -/
theorem stored_first : ∀ args : List Value, (Primitive.first args).map stored = first (args.map stored)
  | [v] => by
    cases v with
    | cons a x d =>
      show Except.ok x.stored = first [(cons a x d).stored]
      rw [stored_cons]
      rfl
    | _ => rfl
  | [] | _ :: _ :: _ => by simp [Primitive.first, first, Except.map]

end Value

namespace Stored

/-- A pair lists its elements exactly when nothing stands after its dot. -/
theorem listItems?_isSome_iff {p : Stored} (hp : p.isPair = true) :
    p.listItems?.isSome ↔ p.tail = none := by
  cases p with
  | pair a c d =>
    rw [listItems?]
    simp
  | _ => cases hp

/-- A list with the empty list as its tail is equal to the proper list of its elements. -/
theorem makeDotted_emptyList_eq (a b : Nat) {x e : Stored} (he : e.isEmptyList = true)
    (hx : x.hasNaN = false) : (makeDotted a [x] (some e)).eq (makeList b [x]) = true := by
  have hn : (pair a (some x) none).hasNaN = false := by
    rw [hasNaN, hasNaNSlot, hasNaNSlot, hx]
    rfl
  rw [makeDotted_of_isEmptyList a [x] he, makeList, makeList, makeDotted_singleton,
    makeDotted_singleton, Option.bind_none, eq_pair hn, eqSlot_some_some, eq_self hx]
  rfl

end Stored

open Stored in
/-- **Pairs stay canonical.** Building a list with `makeDotted` from canonical elements and a
canonical tail, the empty list included, gives a canonical list, and so do `CONS`, `CDR`, `CAR` and
`LIST` from canonical arguments. The stored form of every value of the model is canonical, and the
model builds its lists, its cells and its rests as these operations do: a list read or built with a
tail is `makeDotted`'s, a proper one `LIST`'s, and the model's `CONS` and `CDR` are the stored ones.
Canonical pairs compare by their views: where the first holds no NaN float, two canonical pairs are
equal exactly when their elements are equal one by one and their ends are both missing or both
present and equal; so `(x . ())` is equal to `(x)`. A pair lists its elements exactly when nothing
stands after its dot. -/
theorem pairs_stay_canonical :
    (∀ (a : Nat) (xs : List Stored) (t : Option Stored), (∀ x ∈ xs, x.AllCanonical) →
      (∀ u ∈ t, u.AllCanonical) → (makeDotted a xs t).AllCanonical) ∧
    (∀ (a : Nat) (args : List Stored) (v : Stored), (∀ x ∈ args, x.AllCanonical) →
      (makeCell a args = .ok v ∨ rest args = .ok v ∨ first args = .ok v ∨ list a args = .ok v) →
      v.AllCanonical) ∧
    (∀ v : Value, v.stored.AllCanonical) ∧
    (∀ (a : Nat) (t : Value) (xs : List Value),
      (Value.dotted a t xs).stored = makeDotted a (xs.map Value.stored) (some t.stored)) ∧
    (∀ (a : Nat) (xs : List Value), (Value.ofList a xs).stored = makeList a (xs.map Value.stored)) ∧
    (∀ (a : Nat) (args : List Value),
      (Primitive.makeCell a args).map Value.stored = makeCell a (args.map Value.stored) ∧
        (Primitive.rest args).map Value.stored = rest (args.map Value.stored)) ∧
    (∀ p q : Stored, p.Canonical → q.Canonical → p.hasNaN = false →
      (p.eq q = true ↔ List.Forall₂ (fun x y => x.eq y = true) p.items q.items ∧
        Option.Rel (fun x y => x.eq y = true) p.tail q.tail)) ∧
    (∀ (a b : Nat) (x e : Stored), e.isEmptyList = true → x.hasNaN = false →
      (makeDotted a [x] (some e)).eq (makeList b [x]) = true) ∧
    (∀ p : Stored, p.isPair = true → (p.listItems?.isSome ↔ p.tail = none)) := by
  refine ⟨fun a _ _ hxs ht => allCanonical_makeDotted a ht hxs, fun a args v h hv => ?_,
    Value.stored_allCanonical, Value.stored_dotted, Value.stored_ofList,
    fun a args => ⟨Value.stored_makeCell a args, Value.stored_rest args⟩,
    fun _ _ hp hq hn => eq_iff_items_tail hp hq hn,
    fun a b _ _ he hx => makeDotted_emptyList_eq a b he hx, fun _ hp => listItems?_isSome_iff hp⟩
  rcases hv with hv | hv | hv | hv
  · exact allCanonical_makeCell h hv
  · exact allCanonical_rest h hv
  · exact allCanonical_first h hv
  · exact allCanonical_list h hv

/-- A pair holding the empty list as its rest has the elements and the end of `(1)`, and yet is
not equal to it: the shape no operation builds. -/
example : (Stored.pair 0 (some (.int 1)) (some .emptyList)).items = [.int 1] ∧
    (Stored.pair 0 (some (.int 1)) (some .emptyList)).tail = none ∧
    (Stored.pair 0 (some (.int 1)) (some .emptyList)).eq (Stored.makeList 0 [.int 1]) = false :=
  ⟨rfl, rfl, rfl⟩

end MiniScheme
