import MiniScheme.Value.Basic
/-!
# What a value holds at its leaves

Cells, vectors and closures hold other values; every other value is a leaf. `Value.Leaves p v` says
that every leaf inside `v` passes `p`, looking into both halves of every cell, every element of every
vector and the body of every closure (a closure's captured frame is a number, not a value held).

Three instances matter to evaluation: `ErrorFree` (no error is held as data), `EnvFree` (no frame is
held as a value) and `Plain`, both at once, which is what the reader produces. `Leaves` passes through
the constructions of lists (`dotted`, `ofList`) and through `allocate`, which renumbers cells and
closures but keeps every leaf.
-/

namespace MiniScheme.Value

/-- Whether a value holds other values: a cell, a vector or a closure. -/
def holdsValues : Value → Bool
  | cons .. | vector _ | closure .. => true
  | _ => false

/-- Whether a value is a frame of the store. -/
def isEnv : Value → Bool
  | env _ => true
  | _ => false

/-- Every leaf inside the value passes `p`. -/
inductive Leaves (p : Value → Prop) : Value → Prop
  | cons {a : Nat} {x d : Value} : Leaves p x → Leaves p d → Leaves p (cons a x d)
  | vector {xs : List Value} : (∀ x ∈ xs, Leaves p x) → Leaves p (vector xs)
  | closure {a : Nat} {ps : List String} {b : Value} {s : Option Nat} :
      Leaves p b → Leaves p (closure a ps b s)
  | leaf {v : Value} : v.holdsValues = false → p v → Leaves p v

/-- No error is held inside the value, nor is it one. -/
def ErrorFree (v : Value) : Prop :=
  v.Leaves fun w => w.isError = false

/-- No frame is held inside the value, nor is it one. -/
def EnvFree (v : Value) : Prop :=
  v.Leaves fun w => w.isEnv = false

/-- Neither an error nor a frame is held inside the value: the data that text can spell. -/
def Plain (v : Value) : Prop :=
  v.Leaves fun w => w.isEnv = false ∧ w.isError = false

section
variable {p q : Value → Prop}

@[simp] theorem leaves_cons_iff {a : Nat} {x d : Value} :
    (cons a x d).Leaves p ↔ x.Leaves p ∧ d.Leaves p := by
  constructor
  · intro h
    cases h with
    | cons hx hd => exact ⟨hx, hd⟩
    | leaf hv _ => nomatch hv
  · rintro ⟨hx, hd⟩
    exact .cons hx hd

@[simp] theorem leaves_vector_iff {xs : List Value} :
    (vector xs).Leaves p ↔ ∀ x ∈ xs, x.Leaves p := by
  constructor
  · intro h
    cases h with
    | vector hxs => exact hxs
    | leaf hv _ => nomatch hv
  · exact .vector

@[simp] theorem leaves_closure_iff {a : Nat} {ps : List String} {b : Value} {s : Option Nat} :
    (closure a ps b s).Leaves p ↔ b.Leaves p := by
  constructor
  · intro h
    cases h with
    | closure hb => exact hb
    | leaf hv _ => nomatch hv
  · exact .closure

/-- A leaf passes `Leaves p` exactly when it passes `p`. -/
theorem leaves_leaf_iff {v : Value} (hv : v.holdsValues = false) : v.Leaves p ↔ p v := by
  constructor
  · intro h
    cases h with
    | leaf _ hp => exact hp
    | _ => nomatch hv
  · exact .leaf hv

/-- A stronger test of the leaves gives a stronger `Leaves`. -/
theorem Leaves.mono (hpq : ∀ w, w.holdsValues = false → p w → q w) {v : Value} (h : v.Leaves p) :
    v.Leaves q := by
  induction h with
  | cons _ _ hx hd => exact .cons hx hd
  | vector _ ih => exact .vector ih
  | closure _ hb => exact .closure hb
  | leaf hv hp => exact .leaf hv (hpq _ hv hp)

theorem Plain.errorFree {v : Value} (h : v.Plain) : v.ErrorFree :=
  h.mono fun _ _ hw => hw.2

/-- Every element of the proper part of a list passes when the list does. -/
theorem Leaves.items : ∀ {v : Value}, v.Leaves p → ∀ x ∈ v.items, x.Leaves p
  | Value.cons _ x d, h, y, hy => by
    rw [leaves_cons_iff] at h
    rcases List.mem_cons.mp hy with rfl | hy
    · exact h.1
    · exact h.2.items y hy
  | unspecified, _, _, hy | bool _, _, _, hy | int _, _, _, hy | float _, _, _, hy
  | char _, _, _, hy | str _, _, _, hy | sym _, _, _, hy | nil, _, _, hy | Value.vector _, _, _, hy
  | Value.closure .., _, _, hy | prim _, _, _, hy | env _, _, _, hy | error _, _, _, hy => by
    simp [Value.items] at hy

theorem leaves_dotted (a : Nat) {last : Value} (hnil : p nil) (hlast : last.Leaves p) :
    ∀ {xs : List Value}, (∀ x ∈ xs, x.Leaves p) → (dotted a last xs).Leaves p
  | [], _ => .leaf rfl hnil
  | [x], hxs => .cons (hxs x List.mem_cons_self) hlast
  | x :: y :: ys, hxs => by
    have hrest : ∀ z ∈ y :: ys, z.Leaves p := fun z hz => hxs z (List.mem_cons_of_mem _ hz)
    exact .cons (hxs x List.mem_cons_self) (leaves_dotted a hnil hlast hrest)

theorem leaves_ofList (a : Nat) (hnil : p nil) {xs : List Value} (hxs : ∀ x ∈ xs, x.Leaves p) :
    (ofList a xs).Leaves p :=
  leaves_dotted a hnil (.leaf rfl hnil) hxs

mutual
/-- New addresses change no leaf. -/
theorem leaves_allocate : ∀ {v : Value} (n : Nat), v.Leaves p → (v.allocate n).1.Leaves p
  | cons _ x d, n, h => by
    rw [leaves_cons_iff] at h
    simp only [allocate, leaves_cons_iff]
    exact ⟨leaves_allocate _ h.1, leaves_allocate _ h.2⟩
  | closure _ _ b _, n, h => by
    rw [leaves_closure_iff] at h
    simp only [allocate, leaves_closure_iff]
    exact leaves_allocate _ h
  | vector xs, n, h => by
    rw [leaves_vector_iff] at h
    simp only [allocate, leaves_vector_iff]
    exact leaves_allocateAll xs n h
  | unspecified, _, h | bool _, _, h | int _, _, h | float _, _, h | char _, _, h | str _, _, h
  | sym _, _, h | nil, _, h | prim _, _, h | env _, _, h | error _, _, h => by
    simpa only [allocate] using h

theorem leaves_allocateAll : ∀ (xs : List Value) (n : Nat), (∀ x ∈ xs, x.Leaves p) →
    ∀ y ∈ (allocateAll xs n).1, y.Leaves p
  | [], _, _, y, hy => by simp [allocateAll] at hy
  | x :: xs, n, h, y, hy => by
    simp only [allocateAll, List.mem_cons] at hy
    rcases hy with rfl | hy
    · exact leaves_allocate _ (h x List.mem_cons_self)
    · exact leaves_allocateAll xs _ (fun z hz => h z (List.mem_cons_of_mem _ hz)) y hy
end

end

end MiniScheme.Value
