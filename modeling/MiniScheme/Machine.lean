import MiniScheme.Store
/-!
# The machine

Evaluation works on a `Machine`: the store of frames, the next address not yet given to a cell or a
closure, and the text written so far by `DISPLAY`. A computation of the machine, `Exec α`, ends in
an `Outcome`: a result, an error, or `exhausted` when it went deeper than its fuel allowed. The state
it leaves is kept in every case, so the effects of a computation before an error stay.
-/

namespace MiniScheme

/-- How a computation ends. -/
inductive Outcome (α : Type) where
  | ok (a : α)
  | error (e : Error)
  /-- The computation went deeper than its fuel allowed. -/
  | exhausted

/-- The state evaluation works on. -/
structure Machine where
  store : Store
  /-- The next address not yet given to a cell or a closure. -/
  next : Nat
  /-- The text written so far. -/
  output : String

/-- A machine with the empty global frame and nothing written. -/
def Machine.init : Machine :=
  ⟨Store.init, 1, ""⟩

/-- A computation of the machine. -/
def Exec (α : Type) : Type :=
  Machine → Outcome α × Machine

namespace Exec

/-- A computation that ends with `a` and changes nothing. -/
protected def pure {α : Type} (a : α) : Exec α :=
  fun m => (.ok a, m)

/-- `x`, then `f` of its result; an error or exhaustion of `x` ends the computation. -/
protected def bind {α β : Type} (x : Exec α) (f : α → Exec β) : Exec β :=
  fun m =>
    match x m with
    | (.ok a, m₁) => f a m₁
    | (.error e, m₁) => (.error e, m₁)
    | (.exhausted, m₁) => (.exhausted, m₁)

instance : Monad Exec where
  pure := Exec.pure
  bind := Exec.bind

/-- A computation that fails with `e`. -/
def fail {α : Type} (e : Error) : Exec α :=
  fun m => (.error e, m)

/-- A computation that has run out of fuel. -/
def exhaust {α : Type} : Exec α :=
  fun m => (.exhausted, m)

/-- An evaluation error, or the result. -/
def ofExcept {α : Type} : Except EvalError α → Exec α
  | .ok a => Exec.pure a
  | .error e => fail (.eval e)

/-- A new address. -/
def fresh : Exec Nat :=
  fun m => (.ok m.next, { m with next := m.next + 1 })

/-- Writes text to the output. -/
def write (s : String) : Exec Unit :=
  fun m => (.ok (), { m with output := m.output ++ s })

/-- The innermost binding of `k` seen from `frame`. -/
def lookup (frame : Nat) (k : String) : Exec (Option Value) :=
  fun m => (.ok (m.store.lookup frame k), m)

/-- Binds `k` to `v` in `frame`. -/
def define (frame : Nat) (k : String) (v : Value) : Exec Unit :=
  fun m => (.ok (), { m with store := m.store.define frame k v })

/-- A new frame nested in `parent` with the given bindings. -/
def child (parent : Nat) (kvs : List (String × Value)) : Exec Nat :=
  fun m =>
    let (f, st) := m.store.child parent kvs
    (.ok f, { m with store := st })

/-- A datum read from text, with new addresses for its cells and closures. -/
def allocate (v : Value) : Exec Value :=
  fun m =>
    let (v', n) := v.allocate m.next
    (.ok v', { m with next := n })

end Exec

end MiniScheme
