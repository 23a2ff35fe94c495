import MiniScheme.Proofs.Confine
/-!
# Errors are never data

An error ends the computation that meets it: evaluation reports it as the outcome, never as a
result. So no error is ever held as data. The reader gives no error inside a datum, `DEFINE` and
procedure calls bind only results, `QUOTE` gives a part of its form, the list primitives rearrange
their arguments, and `EVAL` gives what evaluation gives. In every machine that programs run from the
start can reach, no frame binds a value that is or holds an error; every result of evaluation and of
a primitive is free of errors. So the test of a program's run for a form whose value is an error
never fires, and the run stops exactly where a form failed (`Machine.runForms_eq_evalForms`).

This is `Store.Confined` for the leaf test "no error", with every frame good.
-/

namespace MiniScheme

theorem errorFree_rule : LeafRule (fun w : Value => w.isError = false) (fun _ => True) where
  plain _ _ _ hr := hr
  env _ := ⟨fun _ => trivial, fun _ => rfl⟩

/-- Error-free evaluation: evaluating an error-free form with an error-free store leaves the store
error-free, however it ends, and gives an error-free result. -/
theorem eval_errorFree {x : Value} {frame : Nat} {m : Machine} (hx : x.ErrorFree)
    (hm : m.store.BindsOnly Value.ErrorFree) :
    (Machine.eval x frame m).2.store.BindsOnly Value.ErrorFree ∧
      ∀ v, (Machine.eval x frame m).1 = .ok v → v.ErrorFree := by
  have h := Eval.evalWith_confines errorFree_rule (fun _ _ => trivial) depthLimit x frame trivial hx
    m (Store.Confined.refl hm)
  exact ⟨h.1.binds, h.2⟩

theorem eval_keeps_errorFree {x : Value} {frame : Nat} (hx : x.ErrorFree) :
    Exec.Keeps (Store.BindsOnly Value.ErrorFree) (Machine.eval x frame) Value.ErrorFree :=
  fun _ hm => eval_errorFree hx hm

/-- A primitive applied to error-free arguments with an error-free store gives an error-free
result. -/
theorem applyPrimitive_errorFree {q : Primitive} {args : List Value} {frame : Nat} {m : Machine}
    (hargs : ∀ a ∈ args, a.ErrorFree) (hm : m.store.BindsOnly Value.ErrorFree) :
    ∀ v, (Eval.applyPrimitive Machine.eval q args frame m).1 = .ok v → v.ErrorFree := by
  have hev : Eval.Confines (fun w : Value => w.isError = false) (fun _ => True) m.store Machine.eval :=
    Eval.evalWith_confines errorFree_rule (fun _ _ => trivial) depthLimit
  exact (Eval.applyPrimitive_keeps errorFree_rule hev trivial hargs m (Store.Confined.refl hm)).2

/-- A program run with an error-free store leaves it error-free. -/
theorem run_errorFree {src : String} {frame : Nat} {m : Machine}
    (hm : m.store.BindsOnly Value.ErrorFree) :
    (Machine.run src frame m).2.store.BindsOnly Value.ErrorFree :=
  (Machine.runForms_keeps errorFree_rule (fun _ _ => trivial) trivial .unspecified src.toList
    (.leaf rfl rfl) m (Store.Confined.refl hm)).1.binds

/-- The machines reached from the start by running programs, each in any frame. -/
inductive Machine.Reachable : Machine → Prop
  | init : Machine.Reachable Machine.init
  | run {m : Machine} (src : String) (frame : Nat) :
      m.Reachable → (Machine.run src frame m).2.Reachable

theorem Machine.init_errorFree : Machine.init.store.BindsOnly Value.ErrorFree := by
  intro fr hfr kv hkv
  simp only [Machine.init, Store.init, List.mem_toArray, List.mem_singleton] at hfr
  subst hfr
  simp at hkv

theorem Machine.Reachable.errorFree {m : Machine} (h : m.Reachable) :
    m.store.BindsOnly Value.ErrorFree := by
  induction h with
  | init => exact Machine.init_errorFree
  | run src frame _ ih => exact run_errorFree ih

/-- **Errors are never data.** In every reachable machine no frame binds a value that is or holds an
error; evaluating an error-free form with such a store keeps it so and gives an error-free result, as
does a primitive applied to error-free arguments; and the reader gives only error-free data. -/
theorem errors_never_data :
    (∀ m : Machine, m.Reachable → m.store.BindsOnly Value.ErrorFree) ∧
    (∀ (x : Value) (frame : Nat) (m : Machine), x.ErrorFree → m.store.BindsOnly Value.ErrorFree →
      (Machine.eval x frame m).2.store.BindsOnly Value.ErrorFree ∧
        ∀ v, (Machine.eval x frame m).1 = .ok v → v.ErrorFree) ∧
    (∀ (q : Primitive) (args : List Value) (frame : Nat) (m : Machine),
      (∀ a ∈ args, a.ErrorFree) → m.store.BindsOnly Value.ErrorFree →
        ∀ v, (Eval.applyPrimitive Machine.eval q args frame m).1 = .ok v → v.ErrorFree) ∧
    (∀ (cs : List Char) (v : Value), (Read.form cs).result = .ok v → v.ErrorFree) :=
  ⟨fun _ h => h.errorFree,
    fun _ _ _ hx hm => eval_errorFree hx hm,
    fun _ _ _ _ hargs hm => applyPrimitive_errorFree hargs hm,
    fun cs v h => (Read.form_plain cs v h).errorFree⟩

/-- After a program that binds a list, the store holds no error. -/
theorem define_list_errorFree :
    (Machine.run "(DEFINE X (LIST 1 2))" 0 Machine.init).2.store.BindsOnly Value.ErrorFree :=
  errors_never_data.1 _ (.run _ _ .init)

end MiniScheme
