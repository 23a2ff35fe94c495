import MiniScheme.Proofs.Confine
/-!
# Evaluation writes only its own frames

A form evaluated in the frame `E` binds names in `E` and in the frames made while it runs, and in
no other frame: `DEFINE` binds in the frame it is evaluated in, a procedure body runs in a new
frame even when the procedure captured an older one, and `EVAL` evaluates only in frames the program
can name. A program names a frame only through `ENV`, which gives the frame it is called from; so
when neither the form nor the store holds a frame as a value, the frames a program can name while it
runs are `E` and the new ones (`OwnFrames`).

This is `Store.Confined` for the leaf test "a frame held as a value is one of `OwnFrames`".
-/

namespace MiniScheme

/-- The frames an evaluation started in `E`, on a store of `n` frames, may write: `E` and the
frames it makes. -/
def OwnFrames (E n f : Nat) : Prop :=
  f = E ∨ n ≤ f

/-- A leaf that is a frame is one of `good`. -/
def NamesOnly (good : Nat → Prop) (v : Value) : Prop :=
  ∀ f, v = .env f → good f

theorem namesOnly_rule (good : Nat → Prop) : LeafRule (NamesOnly good) good where
  plain v _ he _ f hv := by subst hv; cases he
  env f := ⟨fun h => h f rfl, fun h _ hf => by cases hf; exact h⟩

theorem Value.EnvFree.namesOnly {good : Nat → Prop} {v : Value} (h : v.EnvFree) :
    v.Leaves (NamesOnly good) :=
  h.mono fun w _ hw f hf => by subst hf; cases hw

/-- Evaluation at any depth of a form in the frame `E` leaves every frame of the store other than
`E` as it was, when neither the form nor any value bound in the store holds a frame: a frame is named
only through `ENV`, which gives `E` or a frame made while the form runs. -/
theorem Eval.evalWith_keeps_other_frames (n : Nat) (x : Value) (E : Nat) (m : Machine)
    (hx : x.EnvFree) (hst : m.store.BindsOnly Value.EnvFree) :
    ∀ f < m.store.frames.size, f ≠ E →
      (Eval.evalWith n x E m).2.store.frames[f]? = m.store.frames[f]? := by
  intro f hf hne
  have hrule := namesOnly_rule (OwnFrames E m.store.frames.size)
  have hnew : ∀ g, m.store.frames.size ≤ g → OwnFrames E m.store.frames.size g := fun _ hg => .inr hg
  have hstart : Store.Confined (NamesOnly (OwnFrames E m.store.frames.size))
      (OwnFrames E m.store.frames.size) m.store m.store :=
    Store.Confined.refl fun fr hfr kv hkv => (hst fr hfr kv hkv).namesOnly
  have hend := (Eval.evalWith_confines hrule hnew n x E (.inl rfl) hx.namesOnly m hstart).1
  have hnot : ¬ OwnFrames E m.store.frames.size f := by
    rintro (h | h)
    · exact hne h
    · omega
  exact hend.same f hnot

/-- **Frame effect of evaluation.** Evaluating a form in the frame `E` leaves every frame of the store
other than `E` as it was, bindings and parent alike, however the evaluation ends, when neither the
form nor any value bound in the store holds a frame. -/
theorem eval_writes_only_own_frames (x : Value) (E : Nat) (m : Machine) (hx : x.EnvFree)
    (hst : m.store.BindsOnly Value.EnvFree) :
    ∀ f < m.store.frames.size, f ≠ E →
      (Machine.eval x E m).2.store.frames[f]? = m.store.frames[f]? :=
  Eval.evalWith_keeps_other_frames depthLimit x E m hx hst

/-- A store with the global frame `0` and a frame `1` nested in it. -/
def twoFrames : Machine :=
  (Machine.init.childFrame 0).2

/-- `(DEFINE A 1)` evaluated in frame `1` leaves the global frame as it was. -/
theorem define_in_child_keeps_global :
    (Machine.eval (.ofList 0 [.sym "DEFINE", .sym "A", .int 1]) 1 twoFrames).2.store.frames[0]? =
      twoFrames.store.frames[0]? := by
  have hx : (Value.ofList 0 [.sym "DEFINE", .sym "A", .int 1]).EnvFree := by
    refine Value.leaves_ofList (p := fun w => w.isEnv = false) 0 rfl fun y hy => ?_
    simp only [List.mem_cons, List.not_mem_nil, or_false] at hy
    rcases hy with rfl | rfl | rfl <;> exact .leaf rfl rfl
  have hst : twoFrames.store.BindsOnly Value.EnvFree := by
    intro fr hfr kv hkv
    simp [twoFrames, Machine.childFrame, Machine.init, Store.init, Store.child, Frame.setAll] at hfr
    rcases hfr with rfl | rfl <;> simp at hkv
  exact eval_writes_only_own_frames _ 1 twoFrames hx hst 0 (by decide) (by decide)

end MiniScheme
