import MiniScheme.Proofs.LetScope
/-!
# Frames: innermost lookup and frame-local definition

A frame is made nested in a frame made before it, and its parent never changes, so in every store
that programs build a frame's parent has a smaller index (`Store.ParentsFirst`; `init` has it, and
`define` and `child` keep it). The chain of a frame `G` is `G`, its parent, its parent's parent, …
(`Store.outer? G n` is the frame `n` links out), and it ends within `G + 1` links.

On such a store `Store.lookup G k` is the binding of `k` in the first frame of `G`'s chain that binds
it, and nothing when no frame of the chain does: the guard in `lookup` that a parent comes before
its child never stops the search. `Store.define F k v` binds `k` in `F` only: the parents of all
frames and the bindings of every other frame stay, and a lookup of `j` from `G` changes exactly when
`j` is `k` and a search for `k` from `G` reaches `F` (`Store.SearchReaches`), to `v`.

Main statement: `lookup_innermost_define_local`.
-/

namespace MiniScheme

namespace Store

/-- Every frame's parent was made before it: its index is smaller. -/
def ParentsFirst (st : Store) : Prop :=
  ∀ f p, st.parent? f = some p → p < f

/-- What the frame `f` itself binds `k` to, its parents aside. -/
def bound? (st : Store) (f : Nat) (k : String) : Option Value :=
  (st.frames[f]?).bind (·.get? k)

/-- The frame `n` parent links out from `f`: `f` itself, then its parent, its parent's parent and
so on; none past the outermost frame. -/
def outer? (st : Store) (f : Nat) : Nat → Option Nat
  | 0 => some f
  | n + 1 => (st.parent? f).bind fun p => st.outer? p n

/-- A search for `k` from `G` reaches `F`: `F` is on the chain of `G`, and no frame before it on the
chain binds `k`. -/
def SearchReaches (st : Store) (G : Nat) (k : String) (F : Nat) : Prop :=
  ∃ n, st.outer? G n = some F ∧ ∀ i < n, ∀ F', st.outer? G i = some F' → st.bound? F' k = none

@[simp] theorem outer?_zero (st : Store) (f : Nat) : st.outer? f 0 = some f :=
  rfl

theorem outer?_succ (st : Store) (f n : Nat) :
    st.outer? f (n + 1) = (st.parent? f).bind fun p => st.outer? p n :=
  rfl

/-! ### The chain of a frame -/

section
variable {st : Store}

/-- Each link out goes to a smaller index. -/
theorem ParentsFirst.outer?_add_le (h : st.ParentsFirst) :
    ∀ {n G F : Nat}, st.outer? G n = some F → F + n ≤ G
  | 0, G, F, hn => by
    cases hn
    omega
  | n + 1, G, F, hn => by
    rw [outer?_succ] at hn
    obtain ⟨p, hp, hpn⟩ := Option.bind_eq_some_iff.mp hn
    have hlt := h G p hp
    have hle := h.outer?_add_le hpn
    omega

/-- The chain of `G` ends within `G + 1` links. -/
theorem ParentsFirst.outer?_past (h : st.ParentsFirst) (G : Nat) : st.outer? G (G + 1) = none := by
  cases hF : st.outer? G (G + 1) with
  | none => rfl
  | some F =>
    have := h.outer?_add_le hF
    omega

/-- A search from `G` reaches `G` itself. -/
theorem searchReaches_self (G : Nat) (k : String) : st.SearchReaches G k G :=
  ⟨0, rfl, fun _ hi => absurd hi (Nat.not_lt_zero _)⟩

/-- Past a frame that does not bind `k`, a search from it reaches what a search from its parent
reaches. The frames before `F` on the parent's chain come one link later on `G`'s. -/
theorem searchReaches_iff_parent {G F : Nat} {k : String} (hGF : G ≠ F) :
    st.SearchReaches G k F ↔
      st.bound? G k = none ∧ ∃ p, st.parent? G = some p ∧ st.SearchReaches p k F := by
  constructor
  · rintro ⟨n, hn, hbefore⟩
    cases n with
    | zero => exact absurd (Option.some.inj hn) hGF
    | succ n =>
      rw [outer?_succ] at hn
      obtain ⟨p, hp, hpn⟩ := Option.bind_eq_some_iff.mp hn
      refine ⟨hbefore 0 (Nat.succ_pos n) G rfl, p, hp, n, hpn, fun i hi F' hF' => ?_⟩
      exact hbefore (i + 1) (by omega) F' (by rw [outer?_succ, hp]; exact hF')
  · rintro ⟨hG, p, hp, n, hpn, hbefore⟩
    refine ⟨n + 1, by rw [outer?_succ, hp]; exact hpn, fun i hi F' hF' => ?_⟩
    cases i with
    | zero =>
      cases hF'
      exact hG
    | succ i =>
      rw [outer?_succ, hp] at hF'
      exact hbefore i (by omega) F' hF'

end

/-! ### Lookup walks the chain -/

section
variable {st : Store}

/-- One step of a lookup: the frame's own binding, else a lookup from its parent. The guard of
`lookup` that the parent comes first always passes. -/
theorem ParentsFirst.lookup_eq (h : st.ParentsFirst) (G : Nat) (k : String) :
    st.lookup G k = (st.bound? G k).or ((st.parent? G).bind fun p => st.lookup p k) := by
  rw [Store.lookup, bound?, parent?]
  cases hf : st.frames[G]? with
  | none => rfl
  | some fr =>
    dsimp only [Option.bind_some]
    cases hk : fr.get? k with
    | some v => rfl
    | none =>
      cases hp : fr.parent with
      | none => rfl
      | some p =>
        have hlt : p < G := h G p (by rw [parent?, hf]; exact hp)
        dsimp only
        rw [if_pos hlt]
        rfl

/-- A lookup finds `v` exactly when a search reaches a frame that binds `k` to `v`. By induction on
the number of links from `G` to `F`; the lookup itself is followed by strong induction on `G`, a
parent having a smaller index than its child. -/
theorem ParentsFirst.lookup_eq_some_iff (h : st.ParentsFirst) (G : Nat) (k : String) (v : Value) :
    st.lookup G k = some v ↔ ∃ F, st.SearchReaches G k F ∧ st.bound? F k = some v := by
  constructor
  · induction G using Nat.strongRecOn with
    | _ G ih =>
      intro hl
      rw [h.lookup_eq] at hl
      cases hb : st.bound? G k with
      | some w =>
        rw [hb, Option.some_or] at hl
        exact ⟨G, searchReaches_self G k, hl ▸ hb⟩
      | none =>
        rw [hb, Option.none_or] at hl
        obtain ⟨p, hp, hpl⟩ := Option.bind_eq_some_iff.mp hl
        obtain ⟨F, hF, hFv⟩ := ih p (h G p hp) hpl
        have hGF : G ≠ F := by
          rintro rfl
          rw [hb] at hFv
          cases hFv
        exact ⟨F, (searchReaches_iff_parent hGF).2 ⟨hb, p, hp, hF⟩, hFv⟩
  · rintro ⟨F, ⟨n, hn, hbefore⟩, hFv⟩
    induction n generalizing G with
    | zero =>
      cases hn
      rw [h.lookup_eq, hFv, Option.some_or]
    | succ n ih =>
      rw [outer?_succ] at hn
      obtain ⟨p, hp, hpn⟩ := Option.bind_eq_some_iff.mp hn
      rw [h.lookup_eq, hbefore 0 (Nat.succ_pos n) G rfl, Option.none_or, hp, Option.bind_some]
      exact ih p hpn fun i hi F' hF' =>
        hbefore (i + 1) (by omega) F' (by rw [outer?_succ, hp]; exact hF')

/-- A lookup finds nothing exactly when no frame of the chain binds `k`. The chain of the parent is
the rest of `G`'s chain. -/
theorem ParentsFirst.lookup_eq_none_iff (h : st.ParentsFirst) (G : Nat) (k : String) :
    st.lookup G k = none ↔ ∀ n F, st.outer? G n = some F → st.bound? F k = none := by
  constructor
  · intro hl n
    induction n generalizing G with
    | zero =>
      intro F hF
      cases hF
      rw [h.lookup_eq, Option.or_eq_none_iff] at hl
      exact hl.1
    | succ n ih =>
      intro F hF
      rw [outer?_succ] at hF
      obtain ⟨p, hp, hpn⟩ := Option.bind_eq_some_iff.mp hF
      rw [h.lookup_eq, Option.or_eq_none_iff, hp, Option.bind_some] at hl
      exact ih p hl.2 F hpn
  · induction G using Nat.strongRecOn with
    | _ G ih =>
      intro hall
      rw [h.lookup_eq, hall 0 G rfl, Option.none_or]
      cases hp : st.parent? G with
      | none => rfl
      | some p =>
        exact ih p (h G p hp) fun n F hF => hall (n + 1) F (by rw [outer?_succ, hp]; exact hF)

end

/-! ### Definitions and new frames -/

section
variable {st : Store}

@[simp] theorem parent?_define (F : Nat) (k : String) (v : Value) (G : Nat) :
    (st.define F k v).parent? G = st.parent? G := by
  rw [parent?, parent?, frames_define]
  split
  · cases st.frames[G]? <;> rfl
  · rfl

theorem bound?_define_of_ne {F G : Nat} (hGF : G ≠ F) (k : String) (v : Value) (j : String) :
    (st.define F k v).bound? G j = st.bound? G j := by
  rw [bound?, bound?, frames_define, if_neg (Ne.symm hGF)]

theorem bound?_define_self {F : Nat} (hF : F < st.frames.size) (k : String) (v : Value)
    (j : String) : (st.define F k v).bound? F j = if j = k then some v else st.bound? F j := by
  rw [bound?, bound?, frames_define, if_pos rfl, Array.getElem?_eq_getElem hF, Option.map_some,
    Option.bind_some, Option.bind_some, Frame.get?_set]

theorem ParentsFirst.define (h : st.ParentsFirst) (F : Nat) (k : String) (v : Value) :
    (st.define F k v).ParentsFirst := fun f p hp =>
  h f p (by rwa [parent?_define] at hp)

/-- A new frame nested in a frame of the store comes after its parent. -/
theorem ParentsFirst.child (h : st.ParentsFirst) {parent : Nat} (hp : parent < st.frames.size)
    (kvs : List (String × Value)) : (st.child parent kvs).2.ParentsFirst := by
  intro f q hq
  rw [parent?, frames_child] at hq
  split at hq
  · next hf =>
    rw [Option.bind_some, Frame.parent_setAll] at hq
    cases hq
    omega
  · exact h f q hq

theorem init_parentsFirst : Store.init.ParentsFirst := by
  intro f p hp
  cases f with
  | zero => cases hp
  | succ f => cases hp

open Classical in
/-- After `define F k v`, a lookup of `j` from `G` gives `v` when `j` is `k` and a search for `k`
from `G` reaches `F`, and otherwise what it gave before. By induction along the chain, the lookup
from each parent changing as stated: a frame that binds `j` itself stops every search for `j`, and a
frame with no parent ends it. -/
theorem ParentsFirst.lookup_define (h : st.ParentsFirst) {F : Nat} (hF : F < st.frames.size)
    (k : String) (v : Value) (G : Nat) (j : String) :
    (st.define F k v).lookup G j =
      if j = k ∧ st.SearchReaches G k F then some v else st.lookup G j := by
  induction G using Nat.strongRecOn with
  | _ G ih =>
    have hparent : ((st.parent? G).bind fun p => (st.define F k v).lookup p j) =
        (st.parent? G).bind fun p =>
          if j = k ∧ st.SearchReaches p k F then some v else st.lookup p j := by
      cases hp : st.parent? G with
      | none => rfl
      | some p => exact ih p (h G p hp)
    rw [(h.define F k v).lookup_eq, h.lookup_eq G j, parent?_define, hparent]
    by_cases hGF : G = F
    · subst hGF
      rw [bound?_define_self hF]
      by_cases hjk : j = k
      · subst hjk
        rw [if_pos rfl, if_pos ⟨rfl, searchReaches_self G j⟩, Option.some_or]
      · rw [if_neg hjk, if_neg fun hc => hjk hc.1]
        simp only [hjk, false_and, if_false]
    · rw [bound?_define_of_ne hGF, searchReaches_iff_parent hGF]
      cases hb : st.bound? G j with
      | some w =>
        have hno : ¬ (j = k ∧ st.bound? G k = none ∧
            ∃ p, st.parent? G = some p ∧ st.SearchReaches p k F) := by
          rintro ⟨rfl, hG, -⟩
          rw [hb] at hG
          cases hG
        rw [if_neg hno, Option.some_or, Option.some_or]
      | none =>
        cases hp : st.parent? G with
        | none =>
          rw [if_neg (by rintro ⟨-, -, p, hp', -⟩; cases hp')]
          rfl
        | some p =>
          rw [Option.none_or, Option.none_or, Option.bind_some, Option.bind_some]
          by_cases hjk : j = k
          · subst hjk
            simp only [hb, true_and, Option.some.injEq, exists_eq_left']
          · simp only [hjk, false_and, if_false]

end

end Store

open Classical in
/-- **Lookup finds the innermost binding; a definition is local to its frame.** In a store whose
frames come after their parents (as in every store built from `init` by `child` and `define`,
which keep that order): the chain of every frame `G` ends within `G + 1` links; a lookup of `k` from
`G` finds `v` exactly when a search for `k` from `G` reaches a frame that binds `k` to `v`, and
nothing exactly when no frame of the chain binds `k`. After `define F k v` in a frame `F` of the
store, the store still has its order; a lookup of `j` from `G` gives `v` when `j` is `k` and the
search for `k` from `G` reaches `F`, and otherwise what it gave before; the parents of all frames
and the bindings of every frame but `F` are as they were. -/
theorem lookup_innermost_define_local {st : Store} (hst : st.ParentsFirst) :
    (∀ G, st.outer? G (G + 1) = none) ∧
    (∀ G k v, st.lookup G k = some v ↔ ∃ F, st.SearchReaches G k F ∧ st.bound? F k = some v) ∧
    (∀ G k, st.lookup G k = none ↔ ∀ n F, st.outer? G n = some F → st.bound? F k = none) ∧
    (∀ p kvs, p < st.frames.size → (st.child p kvs).2.ParentsFirst) ∧
    (∀ F k v, F < st.frames.size →
      (st.define F k v).ParentsFirst ∧
      (∀ G j, (st.define F k v).lookup G j =
        if j = k ∧ st.SearchReaches G k F then some v else st.lookup G j) ∧
      (∀ G, (st.define F k v).parent? G = st.parent? G) ∧
      (∀ G j, G ≠ F → (st.define F k v).bound? G j = st.bound? G j)) :=
  ⟨hst.outer?_past, hst.lookup_eq_some_iff, hst.lookup_eq_none_iff,
    fun _ kvs hp => hst.child hp kvs,
    fun _ k v hF => ⟨hst.define _ k v, hst.lookup_define hF k v, Store.parent?_define _ k v,
      fun _ j hGF => Store.bound?_define_of_ne hGF k v j⟩⟩

/-- The frames of `lookup_walks_parents`: a global frame binding `X` and `Y`, and a frame nested in
it binding `X` again. -/
def shadowingFrames : Store :=
  (((Store.init.define 0 "X" (.int 1)).define 0 "Y" (.int 2)).child 0 [("X", .int 10)]).2

/-- Defining `X` in the inner frame replaces the inner binding and leaves the global one. -/
theorem define_in_inner_frame_keeps_global :
    shadowingFrames.ParentsFirst ∧
      (shadowingFrames.define 1 "X" (.int 3)).lookup 1 "X" = some (.int 3) ∧
      (shadowingFrames.define 1 "X" (.int 3)).lookup 0 "X" = shadowingFrames.lookup 0 "X" := by
  have h : shadowingFrames.ParentsFirst :=
    (Store.init_parentsFirst.define 0 "X" (.int 1)).define 0 "Y" (.int 2) |>.child (by decide) _
  have hlaw := ((lookup_innermost_define_local h).2.2.2.2 1 "X" (.int 3) (by decide)).2.1
  have hfar : ¬ ("X" = "X" ∧ shadowingFrames.SearchReaches 0 "X" 1) := by
    rintro ⟨-, n, hn, -⟩
    cases n with
    | zero => cases hn
    | succ n => cases hn
  refine ⟨h, ?_, ?_⟩
  · rw [hlaw, if_pos ⟨rfl, Store.searchReaches_self 1 "X"⟩]
  · rw [hlaw, if_neg hfar]

end MiniScheme
