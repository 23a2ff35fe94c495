import MiniScheme.Session
import MiniScheme.Proofs.Keeps
import MiniScheme.Proofs.ReadPlain
import Mathlib.Tactic.SplitIfs
/-!
# What evaluation keeps

Evaluation changes the store in two ways only: `DEFINE` binds a name in the frame it is evaluated
in, and a procedure call makes a new frame for its parameters. The frames a program can name are
the frames it is evaluated in: `ENV` gives the frame it is called from, and `EVAL` evaluates in the
frame it is called from or in a frame given to it as a value.

This is made precise by a test `p` of the leaves of values and a set `good` of frames, tied by a
`LeafRule`: `p` passes every leaf that is neither a frame nor an error, and passes the frame `f`
exactly when `f` is good. If every frame made from now on is good, then evaluating a form whose
leaves pass `p`, in a good frame, keeps the store `Confined`: the frames that are not good stay as
they were, and every value bound passes `p` at its leaves. Every result passes `p` at its leaves
too (`evalWith_confines`, and `runForms_keeps` for a whole program). Two choices of `p` give the
frame effect of evaluation and the absence of error values as data.
-/

namespace MiniScheme

/-! ### Frames and the store -/

namespace Frame

theorem mem_of_get? {fr : Frame} {k : String} {v : Value} (h : fr.get? k = some v) :
    (k, v) ∈ fr.bindings := by
  obtain ⟨parent, bs⟩ := fr
  simp only [get?] at h ⊢
  induction bs with
  | nil => simp [List.lookup_nil] at h
  | cons kv bs ih =>
    obtain ⟨k', w⟩ := kv
    by_cases hk : k = k'
    · subst hk
      rw [List.lookup_cons_self, Option.some.injEq] at h
      simp [h]
    · have hne : (k == k') = false := by simpa using hk
      simp only [List.lookup_cons, hne] at h
      exact List.mem_cons_of_mem _ (ih h)

theorem mem_set {fr : Frame} {k : String} {v : Value} {kv : String × Value}
    (h : kv ∈ (fr.set k v).bindings) : kv = (k, v) ∨ kv ∈ fr.bindings := by
  simp only [set, List.mem_cons, List.mem_filter] at h
  rcases h with h | ⟨h, _⟩
  · exact .inl h
  · exact .inr h

theorem mem_setAll : ∀ {kvs : List (String × Value)} {fr : Frame} {kv : String × Value},
    kv ∈ (fr.setAll kvs).bindings → kv ∈ kvs ∨ kv ∈ fr.bindings
  | [], _, _, h => .inr h
  | (k, v) :: kvs, fr, kv, h => by
    have h' : kv ∈ ((fr.set k v).setAll kvs).bindings := h
    rcases mem_setAll h' with h₁ | h₁
    · exact .inl (List.mem_cons_of_mem _ h₁)
    · rcases mem_set h₁ with rfl | h₂
      · exact .inl List.mem_cons_self
      · exact .inr h₂

end Frame

namespace Store

/-- Every value bound in every frame passes `P`. -/
def BindsOnly (P : Value → Prop) (st : Store) : Prop :=
  ∀ fr ∈ st.frames, ∀ kv ∈ fr.bindings, P kv.2

theorem frames_define (st : Store) (frame : Nat) (k : String) (v : Value) (f : Nat) :
    (st.define frame k v).frames[f]? =
      if frame = f then (st.frames[f]?).map (·.set k v) else st.frames[f]? :=
  Array.getElem?_modify

@[simp] theorem size_define (st : Store) (frame : Nat) (k : String) (v : Value) :
    (st.define frame k v).frames.size = st.frames.size :=
  Array.size_modify

@[simp] theorem child_fst (st : Store) (parent : Nat) (kvs : List (String × Value)) :
    (st.child parent kvs).1 = st.frames.size :=
  rfl

theorem frames_child (st : Store) (parent : Nat) (kvs : List (String × Value)) (f : Nat) :
    (st.child parent kvs).2.frames[f]? =
      if f = st.frames.size then some ((Frame.mk (some parent) []).setAll kvs) else st.frames[f]? :=
  Array.getElem?_push

@[simp] theorem size_child (st : Store) (parent : Nat) (kvs : List (String × Value)) :
    (st.child parent kvs).2.frames.size = st.frames.size + 1 :=
  Array.size_push _

section
variable {P : Value → Prop} {st : Store}

/-- What a name is bound to, seen from any frame, is bound in some frame. -/
theorem BindsOnly.lookup (h : st.BindsOnly P) {k : String} :
    ∀ {frame : Nat} {v : Value}, st.lookup frame k = some v → P v
  | frame, v, hl => by
    rw [Store.lookup] at hl
    split at hl
    · cases hl
    · next fr hfr =>
      have hmem : fr ∈ st.frames := Array.mem_iff_getElem?.mpr ⟨frame, hfr⟩
      split at hl
      · next w hw => exact h fr hmem (k, v) (Frame.mem_of_get? (hw.trans hl))
      · split at hl
        · split at hl
          · exact BindsOnly.lookup h hl
          · cases hl
        · cases hl
termination_by frame => frame

theorem BindsOnly.define (h : st.BindsOnly P) {frame : Nat} {k : String} {v : Value} (hv : P v) :
    (st.define frame k v).BindsOnly P := by
  intro fr hfr kv hkv
  obtain ⟨i, hi⟩ := Array.mem_iff_getElem?.mp hfr
  rw [frames_define] at hi
  split at hi
  · obtain ⟨fr₀, hfr₀, rfl⟩ := Option.map_eq_some_iff.mp hi
    rcases Frame.mem_set hkv with rfl | hkv
    · exact hv
    · exact h fr₀ (Array.mem_iff_getElem?.mpr ⟨i, hfr₀⟩) kv hkv
  · exact h fr (Array.mem_iff_getElem?.mpr ⟨i, hi⟩) kv hkv

theorem BindsOnly.child (h : st.BindsOnly P) {parent : Nat} {kvs : List (String × Value)}
    (hkvs : ∀ kv ∈ kvs, P kv.2) : (st.child parent kvs).2.BindsOnly P := by
  intro fr hfr kv hkv
  obtain ⟨i, hi⟩ := Array.mem_iff_getElem?.mp hfr
  rw [frames_child] at hi
  split at hi
  · cases hi
    rcases Frame.mem_setAll hkv with hkv | hkv
    · exact hkvs kv hkv
    · simp at hkv
  · exact h fr (Array.mem_iff_getElem?.mpr ⟨i, hi⟩) kv hkv

end

end Store

/-! ### The invariant -/

/-- A test of leaves that passes every leaf that is neither a frame nor an error, and passes the
frame `f` exactly when `f` is good. -/
structure LeafRule (p : Value → Prop) (good : Nat → Prop) : Prop where
  plain : ∀ v : Value, v.holdsValues = false → v.isEnv = false → v.isError = false → p v
  env : ∀ f, p (.env f) ↔ good f

/-- The store `st`, reached from `st₀`: it has every frame of `st₀`, differs from it in good frames
only, and binds only values whose leaves pass `p`. -/
structure Store.Confined (p : Value → Prop) (good : Nat → Prop) (st₀ st : Store) : Prop where
  grown : st₀.frames.size ≤ st.frames.size
  same : ∀ f, ¬ good f → st.frames[f]? = st₀.frames[f]?
  binds : st.BindsOnly (Value.Leaves p)

namespace Eval

/-- Evaluation in a good frame of a form whose leaves pass `p` keeps the store confined, and its
result passes `p` at its leaves. -/
def Confines (p : Value → Prop) (good : Nat → Prop) (st₀ : Store) (ev : Evaluator) : Prop :=
  ∀ x frame, good frame → x.Leaves p → Exec.Keeps (Store.Confined p good st₀) (ev x frame) (·.Leaves p)

end Eval

section
variable {p : Value → Prop} {good : Nat → Prop} {st₀ st : Store}

theorem LeafRule.leaf (rule : LeafRule p good) {v : Value} (hv : v.holdsValues = false)
    (he : v.isEnv = false) (hr : v.isError = false) : v.Leaves p :=
  .leaf hv (rule.plain v hv he hr)

theorem LeafRule.ofPlain (rule : LeafRule p good) {v : Value} (hv : v.Plain) : v.Leaves p :=
  hv.mono fun w hw h => rule.plain w hw h.1 h.2

theorem LeafRule.good_of_env (rule : LeafRule p good) {f : Nat} (h : (Value.env f).Leaves p) :
    good f :=
  (rule.env f).mp ((Value.leaves_leaf_iff rfl).mp h)

theorem Store.Confined.refl (h : st₀.BindsOnly (Value.Leaves p)) : Store.Confined p good st₀ st₀ :=
  ⟨Nat.le_refl _, fun _ _ => rfl, h⟩

theorem Store.Confined.define (hc : Store.Confined p good st₀ st) {frame : Nat} (hf : good frame)
    {k : String} {v : Value} (hv : v.Leaves p) : Store.Confined p good st₀ (st.define frame k v) where
  grown := by rw [Store.size_define]; exact hc.grown
  same f hgood := by
    have hne : frame ≠ f := fun h => hgood (h ▸ hf)
    rw [Store.frames_define, if_neg hne]
    exact hc.same f hgood
  binds := hc.binds.define hv

/-- A new frame is good, and binding the arguments in it keeps the store confined. -/
theorem Store.Confined.child (hnew : ∀ f, st₀.frames.size ≤ f → good f)
    (hc : Store.Confined p good st₀ st) {parent : Nat} {kvs : List (String × Value)}
    (hkvs : ∀ kv ∈ kvs, kv.2.Leaves p) :
    Store.Confined p good st₀ (st.child parent kvs).2 ∧ good (st.child parent kvs).1 := by
  refine ⟨⟨?_, ?_, hc.binds.child hkvs⟩, hnew _ hc.grown⟩
  · rw [Store.size_child]
    exact Nat.le_succ_of_le hc.grown
  · intro f hgood
    have hlt : f < st₀.frames.size := Nat.lt_of_not_le fun hge => hgood (hnew f hge)
    rw [Store.frames_child, if_neg (by have := hc.grown; omega)]
    exact hc.same f hgood

end

/-! ### What the primitives give -/

theorem Arith.fold_ok {op : Arith} {args : List Value} {v : Value} (h : op.fold args = .ok v) :
    (∃ n, v = .int n) ∨ ∃ x, v = .float x := by
  unfold Arith.fold at h
  split at h
  · cases h
  · next a rest =>
    cases hf : Arith.foldInt op a rest 1 with
    | error e => rw [hf] at h; cases h
    | ok n => rw [hf] at h; cases h; exact .inl ⟨n, rfl⟩
  · next a rest =>
    cases hf : Arith.foldFloat op a rest 1 with
    | error e => rw [hf] at h; cases h
    | ok x => rw [hf] at h; cases h; exact .inr ⟨x, rfl⟩
  · cases h

theorem Relation.chain_ok {rel : Relation} {args : List Value} {v : Value}
    (h : rel.chain args = .ok v) : ∃ b, v = .bool b := by
  unfold Relation.chain at h
  split at h
  · cases h
  · simp only [bind, Except.bind] at h
    split at h
    · cases h
    · cases h
      exact ⟨_, rfl⟩
  · simp only [bind, Except.bind] at h
    split at h
    · cases h
    · cases h
      exact ⟨_, rfl⟩
  · cases h

theorem Primitive.check_ok {name : String} {t : Value → Bool} {args : List Value} {v : Value}
    (h : Primitive.check name t args = .ok v) : ∃ b, v = .bool b := by
  unfold Primitive.check at h
  split at h
  · cases h
    exact ⟨_, rfl⟩
  · cases h

theorem Primitive.first_ok {args : List Value} {v : Value} (h : Primitive.first args = .ok v) :
    ∃ a d, args = [.cons a v d] := by
  unfold Primitive.first at h
  split at h
  · cases h
    exact ⟨_, _, rfl⟩
  · cases h
  · cases h

theorem Primitive.rest_ok {args : List Value} {v : Value} (h : Primitive.rest args = .ok v) :
    ∃ a x, args = [.cons a x v] := by
  unfold Primitive.rest at h
  split at h
  · cases h
    exact ⟨_, _, rfl⟩
  · cases h
  · cases h

theorem Primitive.makeCell_ok {a : Nat} {args : List Value} {v : Value}
    (h : Primitive.makeCell a args = .ok v) : ∃ x d, args = [x, d] ∧ v = .cons a x d := by
  unfold Primitive.makeCell at h
  split at h
  · cases h
    exact ⟨_, _, rfl, rfl⟩
  · cases h

/-! ### One level of evaluation -/

namespace Eval

theorem operands_leaves {p : Value → Prop} {name : String} :
    ∀ {v : Value} {xs : List Value}, v.Leaves p → operands name v = .ok xs → ∀ x ∈ xs, x.Leaves p
  | .nil, xs, _, h => by
    simp only [operands, Except.ok.injEq] at h
    simp [← h]
  | .cons _ x d, xs, hv, h => by
    rw [Value.leaves_cons_iff] at hv
    simp only [operands] at h
    cases hd : operands name d with
    | error e => rw [hd] at h; cases h
    | ok ys =>
      rw [hd] at h
      cases h
      exact List.forall_mem_cons.2 ⟨hv.1, operands_leaves hv.2 hd⟩
  | .unspecified, _, _, h | .bool _, _, _, h | .int _, _, _, h | .float _, _, _, h
  | .char _, _, _, h | .str _, _, _, h | .sym _, _, _, h | .vector _, _, _, h
  | .closure .., _, _, h | .prim _, _, _, h | .env _, _, _, h | .error _, _, _, h => by
    simp [operands] at h

section
variable {p : Value → Prop} {good : Nat → Prop} {st₀ : Store} {ev : Evaluator} {frame : Nat}
open Exec

/-- What a name is bound to in a confined store passes `p` at its leaves. -/
theorem lookup_keeps {name : String} :
    Keeps (Store.Confined p good st₀) (Exec.lookup frame name)
      (fun o => ∀ v, o = some v → v.Leaves p) :=
  Keeps.lookup fun _ hst _ hv => hst.binds.lookup hv

theorem evalOperands_keeps (hev : Confines p good st₀ ev) (hf : good frame) {name : String}
    {rest : Value} (hrest : rest.Leaves p) :
    Keeps (Store.Confined p good st₀) (evalOperands ev frame name rest)
      (fun args => ∀ a ∈ args, a.Leaves p) := by
  unfold evalOperands
  refine Keeps.bind (Keeps.ofExcept fun forms h => operands_leaves hrest h) fun forms hforms => ?_
  exact Keeps.mapM fun x hx => hev x frame hf (hforms x hx)

theorem lookupName_keeps (rule : LeafRule p good) {name : String} :
    Keeps (Store.Confined p good st₀) (lookupName name frame) (·.Leaves p) := by
  unfold lookupName
  refine Keeps.bind lookup_keeps fun o ho => ?_
  split
  · exact Keeps.pure (ho _ rfl)
  · split
    · exact Keeps.pure (rule.leaf rfl rfl rfl)
    · exact Keeps.fail

/-- A procedure call evaluates the body in a new frame, which is good, whatever frame the closure
captured. -/
theorem applyClosure_keeps (hnew : ∀ f, st₀.frames.size ≤ f → good f)
    (hev : Confines p good st₀ ev) {name : String} {ps : List String} {b : Value} {scope : Nat}
    {args : List Value} (hb : b.Leaves p) (hargs : ∀ a ∈ args, a.Leaves p) :
    Keeps (Store.Confined p good st₀) (applyClosure ev name ps b scope args) (·.Leaves p) := by
  unfold applyClosure
  split
  · refine Keeps.bind (Keeps.child (Q := good) fun st hst => hst.child hnew ?_) fun f hf => hev b f hf hb
    intro kv hkv
    exact hargs kv.2 (List.of_mem_zip hkv).2
  · exact Keeps.fail

theorem evalText_keeps (rule : LeafRule p good) (hev : Confines p good st₀ ev) (hf : good frame)
    {src : String} : Keeps (Store.Confined p good st₀) (evalText ev frame src) (·.Leaves p) := by
  unfold evalText
  have hplain := Read.all_plain src.toList
  rcases hall : Read.all src.toList with ⟨forms, err⟩
  rw [hall] at hplain
  refine Keeps.bind (Keeps.foldlM (R := Value.Leaves p) (fun _ _ f hform => ?_)
    (rule.leaf rfl rfl rfl)) fun v hv => ?_
  · refine Keeps.bind (Keeps.allocate fun n => Value.leaves_allocate n (rule.ofPlain (hplain f hform)))
      fun form hform' => ?_
    exact hev form frame hf hform'
  · cases err with
    | some e => exact Keeps.fail
    | none => exact Keeps.pure hv

theorem evalIn_keeps (rule : LeafRule p good) (hev : Confines p good st₀ ev) {x : Value}
    {target : Nat} (hx : x.Leaves p) (ht : good target) :
    Keeps (Store.Confined p good st₀) (evalIn ev x target) (·.Leaves p) := by
  unfold evalIn
  split
  · exact evalText_keeps rule hev ht
  · exact hev x target ht hx

/-- `EVAL` evaluates in its caller's frame or in a frame given as a value, which is good. -/
theorem evalPrimitive_keeps (rule : LeafRule p good) (hev : Confines p good st₀ ev) (hf : good frame)
    {args : List Value} (hargs : ∀ a ∈ args, a.Leaves p) :
    Keeps (Store.Confined p good st₀) (evalPrimitive ev frame args) (·.Leaves p) := by
  unfold evalPrimitive
  split
  · next x => exact evalIn_keeps rule hev (hargs x (by simp)) hf
  · next x target =>
    exact evalIn_keeps rule hev (hargs x (by simp)) (rule.good_of_env (hargs _ (by simp)))
  · exact Keeps.fail
  · exact Keeps.fail

theorem applyPrimitive_keeps (rule : LeafRule p good) (hev : Confines p good st₀ ev)
    (hf : good frame) {q : Primitive} {args : List Value} (hargs : ∀ a ∈ args, a.Leaves p) :
    Keeps (Store.Confined p good st₀) (applyPrimitive ev q args frame) (·.Leaves p) := by
  unfold applyPrimitive
  cases q with
  | arith op =>
    refine Keeps.ofExcept fun v hv => ?_
    rcases Arith.fold_ok hv with ⟨n, rfl⟩ | ⟨x, rfl⟩
    · exact rule.leaf rfl rfl rfl
    · exact rule.leaf rfl rfl rfl
  | compare rel =>
    refine Keeps.ofExcept fun v hv => ?_
    obtain ⟨b, rfl⟩ := Relation.chain_ok hv
    exact rule.leaf rfl rfl rfl
  | test t =>
    refine Keeps.ofExcept fun v hv => ?_
    obtain ⟨b, rfl⟩ := Primitive.check_ok hv
    exact rule.leaf rfl rfl rfl
  | not =>
    refine Keeps.ofExcept fun v hv => ?_
    obtain ⟨b, rfl⟩ := Primitive.check_ok hv
    exact rule.leaf rfl rfl rfl
  | car =>
    refine Keeps.ofExcept fun v hv => ?_
    obtain ⟨a, d, rfl⟩ := Primitive.first_ok hv
    exact (Value.leaves_cons_iff.mp (hargs (.cons a v d) (by simp))).1
  | cdr =>
    refine Keeps.ofExcept fun v hv => ?_
    obtain ⟨a, x, rfl⟩ := Primitive.rest_ok hv
    exact (Value.leaves_cons_iff.mp (hargs (.cons a x v) (by simp))).2
  | cons =>
    refine Keeps.bind Keeps.fresh fun a _ => Keeps.ofExcept fun v hv => ?_
    obtain ⟨x, d, rfl, rfl⟩ := Primitive.makeCell_ok hv
    exact Value.leaves_cons_iff.mpr ⟨hargs x (by simp), hargs d (by simp)⟩
  | list =>
    exact Keeps.bind Keeps.fresh fun a _ =>
      Keeps.pure (Value.leaves_ofList a (rule.plain _ rfl rfl rfl) hargs)
  | display =>
    dsimp only
    split
    · exact Keeps.bind Keeps.write fun _ _ => Keeps.pure (rule.leaf rfl rfl rfl)
    · exact Keeps.fail
  | eval => exact evalPrimitive_keeps rule hev hf hargs
  | env =>
    dsimp only
    split
    · exact Keeps.pure (.leaf rfl ((rule.env frame).mpr hf))
    · exact Keeps.fail

/-- `DEFINE` binds in the frame it is evaluated in, which is good. -/
theorem define_keeps (rule : LeafRule p good) (hev : Confines p good st₀ ev) (hf : good frame)
    {rest : Value} (hrest : rest.Leaves p) :
    Keeps (Store.Confined p good st₀) (define ev rest frame) (·.Leaves p) := by
  unfold define
  refine Keeps.bind (Keeps.ofExcept fun xs h => operands_leaves hrest h) fun xs hxs => ?_
  split
  · next name expr =>
    refine Keeps.bind (hev expr frame hf (hxs expr (by simp))) fun v hv => ?_
    exact Keeps.bind (Keeps.define fun st hst => hst.define hf hv) fun _ _ =>
      Keeps.pure (rule.leaf rfl rfl rfl)
  · exact Keeps.fail

theorem quote_keeps {keyword : String} {rest : Value} (hrest : rest.Leaves p) :
    Keeps (Store.Confined p good st₀) (quote keyword rest) (·.Leaves p) := by
  unfold quote
  refine Keeps.bind (Keeps.ofExcept fun xs h => operands_leaves hrest h) fun xs hxs => ?_
  split
  · next q => exact Keeps.pure (hxs q (by simp))
  · exact Keeps.fail

theorem conditional_keeps (rule : LeafRule p good) (hev : Confines p good st₀ ev) (hf : good frame)
    {rest : Value} (hrest : rest.Leaves p) :
    Keeps (Store.Confined p good st₀) (conditional ev rest frame) (·.Leaves p) := by
  unfold conditional
  refine Keeps.bind (Keeps.ofExcept fun xs h => operands_leaves hrest h) fun xs hxs => ?_
  split
  · next c t =>
    refine Keeps.bind (hev c frame hf (hxs c (by simp))) fun v _ => ?_
    split
    · exact Keeps.pure (rule.leaf rfl rfl rfl)
    · exact hev t frame hf (hxs t (by simp))
  · next c t e =>
    refine Keeps.bind (hev c frame hf (hxs c (by simp))) fun v _ => ?_
    split
    · exact hev e frame hf (hxs e (by simp))
    · exact hev t frame hf (hxs t (by simp))
  · exact Keeps.fail

theorem sequence_keeps (rule : LeafRule p good) (hev : Confines p good st₀ ev) (hf : good frame)
    {rest : Value} (hrest : rest.Leaves p) :
    Keeps (Store.Confined p good st₀) (sequence ev rest frame) (·.Leaves p) := by
  unfold sequence
  refine Keeps.bind (Keeps.ofExcept fun xs h => operands_leaves hrest h) fun forms hforms => ?_
  exact Keeps.foldlM (fun _ _ f hform => hev f frame hf (hforms f hform)) (rule.leaf rfl rfl rfl)

theorem call_keeps (rule : LeafRule p good) (hnew : ∀ f, st₀.frames.size ≤ f → good f)
    (hev : Confines p good st₀ ev) (hf : good frame) {name : String} {rest : Value}
    (hrest : rest.Leaves p) :
    Keeps (Store.Confined p good st₀) (call ev name rest frame) (·.Leaves p) := by
  unfold call
  split
  · exact Keeps.bind (evalOperands_keeps hev hf hrest) fun _ hargs =>
      applyPrimitive_keeps rule hev hf hargs
  · refine Keeps.bind lookup_keeps fun o ho => ?_
    split
    · have hb := Value.leaves_closure_iff.mp (ho _ rfl)
      exact Keeps.bind (evalOperands_keeps hev hf hrest) fun _ hargs =>
        applyClosure_keeps hnew hev hb hargs
    · exact Keeps.bind (evalOperands_keeps hev hf hrest) fun _ hargs =>
        applyPrimitive_keeps rule hev hf hargs
    · exact Keeps.fail

theorem combination_keeps (rule : LeafRule p good) (hnew : ∀ f, st₀.frames.size ≤ f → good f)
    (hev : Confines p good st₀ ev) (hf : good frame) {head rest : Value} (hhead : head.Leaves p)
    (hrest : rest.Leaves p) :
    Keeps (Store.Confined p good st₀) (combination ev head rest frame) (·.Leaves p) := by
  unfold combination
  split
  · have hb := Value.leaves_closure_iff.mp hhead
    exact Keeps.bind (evalOperands_keeps hev hf hrest) fun _ hargs =>
      applyClosure_keeps hnew hev hb hargs
  · exact Keeps.bind (evalOperands_keeps hev hf hrest) fun _ hargs =>
      applyPrimitive_keeps rule hev hf hargs
  · split_ifs
    · exact define_keeps rule hev hf hrest
    · exact quote_keeps hrest
    · exact conditional_keeps rule hev hf hrest
    · exact sequence_keeps rule hev hf hrest
    · exact call_keeps rule hnew hev hf hrest
  · exact hev _ frame hf hhead

/-- One level of evaluation keeps the invariant when the levels below it do. -/
theorem step_confines (rule : LeafRule p good) (hnew : ∀ f, st₀.frames.size ≤ f → good f)
    (hev : Confines p good st₀ ev) : Confines p good st₀ (step ev) := by
  intro x frame hf hx
  unfold step
  split
  · exact Keeps.fail
  · exact lookupName_keeps rule
  · exact Keeps.bind Keeps.fresh fun _ _ =>
      Keeps.pure (.closure (Value.leaves_closure_iff.mp hx))
  · rw [Value.leaves_cons_iff] at hx
    exact combination_keeps rule hnew hev hf hx.1 hx.2
  · exact Keeps.pure hx

/-- Evaluation at every depth keeps the invariant. -/
theorem evalWith_confines (rule : LeafRule p good) (hnew : ∀ f, st₀.frames.size ≤ f → good f) :
    ∀ n, Confines p good st₀ (evalWith n)
  | 0 => fun _ _ _ _ => Keeps.exhaust
  | n + 1 => step_confines rule hnew (evalWith_confines rule hnew n)

end

end Eval

section
variable {p : Value → Prop} {good : Nat → Prop} {st₀ : Store}
open Exec

/-- A whole program run in a good frame keeps the invariant: each of its forms is read as plain
data and evaluated. With `echo`, each value is written before the next form is read. -/
theorem Machine.runForms_keeps (rule : LeafRule p good) (hnew : ∀ f, st₀.frames.size ≤ f → good f)
    {echo : Bool} {frame : Nat} (hf : good frame) :
    ∀ (last : Value) (cs : List Char), last.Leaves p →
      Keeps (Store.Confined p good st₀) (Machine.runForms echo frame last cs) (·.Leaves p)
  | last, cs, hlast => by
    rw [Machine.runForms]
    split
    · exact Keeps.pure hlast
    · next c r h =>
      split
      · exact Keeps.fail
      · next form r₁ h₁ hd =>
        have hplain : form.Plain := (Read.readsPlain r).datum c |>.of_eq hd rfl
        have hshorter : r₁.length < cs.length := by
          have := Read.length_lt_of_skipBlank_eq_cons h
          omega
        refine Keeps.bind (Keeps.allocate fun n => Value.leaves_allocate n (rule.ofPlain hplain))
          fun form' hform' => ?_
        refine Keeps.bind (Eval.evalWith_confines rule hnew depthLimit form' frame hf hform')
          fun v hv => ?_
        split
        · exact Keeps.fail
        · have hrest : Keeps (Store.Confined p good st₀) (Machine.runForms echo frame v r₁)
              (·.Leaves p) :=
            runForms_keeps rule hnew hf v r₁ hv
          dsimp only
          split
          · split
            · exact hrest
            · exact Keeps.bind Keeps.write fun _ _ => hrest
          · exact hrest
termination_by _ cs => cs.length

end

end MiniScheme
