import MiniScheme.Proofs.Combination
import MiniScheme.Session
/-!
# `EVAL` of quoted code is evaluation of the code

`(EVAL (QUOTE x))` is a call of the primitive `EVAL`, whatever the frames bind the name to. Its one
operand, `(QUOTE x)`, evaluates to the datum `x` itself without touching the machine, and `EVAL` of a
datum that is not a string evaluates it in the caller's frame: so the form does exactly what `x`
does, one level of depth later. With a second operand `y` that the caller's frames bind to the frame
`F`, the datum is evaluated in `F` instead. A string is left out: `EVAL` reads its text as a program.

The comparison is exact: the same outcome and the same machine afterwards (bindings, output and the
counter of fresh addresses) at every depth, so a closure among the quoted code captures the target
frame just as it would when evaluated there.

Main statement: `eval_of_quote_is_eval`.
-/

namespace MiniScheme

/-- A list of two or more elements is its first cell in front of the list of the rest. -/
theorem Value.ofList_cons_cons (a : Nat) (x y : Value) (ys : List Value) :
    Value.ofList a (x :: y :: ys) = .cons a x (.ofList a (y :: ys)) :=
  rfl

namespace Eval

/-- `(QUOTE x)` evaluates to `x` itself and leaves the machine as it was. -/
theorem evalWith_quote (n b : Nat) (x : Value) (E : Nat) (m : Machine) :
    evalWith (n + 1) (.ofList b [.sym "QUOTE", x]) E m = (.ok x, m) := by
  show combination (evalWith n) (.sym "QUOTE") (.ofList b [x]) E m = _
  rw [combination_quote (.inl rfl), quote,
    ofExcept_operands_bind_of_listItems? (Value.listItems?_ofList b [x])]
  rfl

/-- A name that the frames bind evaluates to its binding and leaves the machine as it was. -/
theorem evalWith_sym_of_lookup {n : Nat} {y : String} {E : Nat} {m : Machine} {w : Value}
    (h : m.store.lookup E y = some w) : evalWith (n + 1) (.sym y) E m = (.ok w, m) := by
  show lookupName y E m = _
  rw [lookupName, Exec.bind_ok (Exec.lookup_apply E y m), h]
  rfl

/-- `EVAL` of a datum that is not a string evaluates the datum in the target frame. -/
theorem evalIn_of_not_str {ev : Evaluator} {x : Value} (hx : ∀ s, x ≠ .str s) (F : Nat) :
    evalIn ev x F = ev x F := by
  cases x with
  | str s => exact absurd rfl (hx s)
  | _ => rfl

/-- A form headed by the name `EVAL` evaluates its operands in the caller's frame from left to
right, then hands their values to the primitive. -/
theorem step_eval_call {ev : Evaluator} {a E : Nat} {rest : Value} {xs : List Value}
    (h : rest.listItems? = some xs) (m : Machine) :
    step ev (.cons a (.sym "EVAL") rest) E m = (xs.mapM (ev · E) >>= evalPrimitive ev E) m := by
  have hc : Callee ev E m.store (.sym "EVAL") "EVAL" (applyPrimitive ev .eval · E) :=
    .named (by decide) (by decide +kernel)
  rw [step_callee hc, evalOperands_of_listItems? h]
  rfl

end Eval

open Eval in
/-- **`EVAL` of quoted code is evaluation of the code.** For every datum `x` that is not a string,
every frame `E` and every depth `n`: evaluating `(EVAL (QUOTE x))` in `E` with depth `n + 1` ends
exactly as evaluating `x` in `E` with depth `n`, with the same machine afterwards; and when the
caller's frames bind `y` to the frame `F`, evaluating `(EVAL (QUOTE x) y)` in `E` ends exactly as
evaluating `x` in `F`. -/
theorem eval_of_quote_is_eval (x : Value) (hx : ∀ s, x ≠ .str s) (a b : Nat) :
    (∀ (E n : Nat) (m : Machine),
      evalWith (n + 1) (.ofList a [.sym "EVAL", .ofList b [.sym "QUOTE", x]]) E m =
        evalWith n x E m) ∧
    (∀ (E F n : Nat) (y : String) (m : Machine), m.store.lookup E y = some (.env F) →
      evalWith (n + 1) (.ofList a [.sym "EVAL", .ofList b [.sym "QUOTE", x], .sym y]) E m =
        evalWith n x F m) := by
  refine ⟨fun E n m => ?_, fun E F n y m hy => ?_⟩
  · rw [evalWith, Value.ofList_cons_cons, step_eval_call (Value.listItems?_ofList a _) m]
    cases n with
    | zero => rfl
    | succ k =>
      have hops : ([.ofList b [.sym "QUOTE", x]].mapM (evalWith (k + 1) · E)) m = (.ok [x], m) := by
        rw [List.mapM_cons, Exec.bind_ok (evalWith_quote k b x E m), List.mapM_nil, pure_bind]
        rfl
      rw [Exec.bind_ok hops]
      show evalIn _ x E m = _
      rw [evalIn_of_not_str hx E]
  · rw [evalWith, Value.ofList_cons_cons, step_eval_call (Value.listItems?_ofList a _) m]
    cases n with
    | zero => rfl
    | succ k =>
      have hops : ([.ofList b [.sym "QUOTE", x], .sym y].mapM (evalWith (k + 1) · E)) m =
          (.ok [x, .env F], m) := by
        rw [List.mapM_cons, Exec.bind_ok (evalWith_quote k b x E m), List.mapM_cons, bind_assoc,
          Exec.bind_ok (evalWith_sym_of_lookup hy), List.mapM_nil, pure_bind, pure_bind]
        rfl
      rw [Exec.bind_ok hops]
      show evalIn _ x F m = _
      rw [evalIn_of_not_str hx F]

/-- `(EVAL (QUOTE (+ 1 2)))` does what `(+ 1 2)` does, and so does `(EVAL (QUOTE (+ 1 2)) G)` where
`G` names the global frame. -/
theorem eval_of_quoted_sum :
    (∀ s, Value.ofList 3 [.sym "+", .int 1, .int 2] ≠ .str s) ∧
      (Store.init.define 0 "G" (.env 0)).lookup 0 "G" = some (.env 0) ∧
      Eval.evalWith (depthLimit + 1)
          (.ofList 1 [.sym "EVAL", .ofList 2 [.sym "QUOTE", .ofList 3 [.sym "+", .int 1, .int 2]]]) 0
          Machine.init =
        Machine.eval (.ofList 3 [.sym "+", .int 1, .int 2]) 0 Machine.init ∧
      Eval.evalWith (depthLimit + 1)
          (.ofList 1 [.sym "EVAL", .ofList 2 [.sym "QUOTE", .ofList 3 [.sym "+", .int 1, .int 2]],
            .sym "G"]) 0 { Machine.init with store := Store.init.define 0 "G" (.env 0) } =
        Machine.eval (.ofList 3 [.sym "+", .int 1, .int 2]) 0
          { Machine.init with store := Store.init.define 0 "G" (.env 0) } := by
  have hx : ∀ s, Value.ofList 3 [.sym "+", .int 1, .int 2] ≠ .str s := fun _ h => by cases h
  have hg : (Store.init.define 0 "G" (.env 0)).lookup 0 "G" = some (.env 0) := by
    rw [Store.lookup]
    rfl
  exact ⟨hx, hg, (eval_of_quote_is_eval _ hx 1 2).1 0 depthLimit Machine.init,
    (eval_of_quote_is_eval _ hx 1 2).2 0 0 depthLimit "G" _ hg⟩

end MiniScheme
