import MiniScheme.Eval.Form
/-!
# Running programs

A program is text: its forms are read and evaluated in turn in one frame, each with new addresses
for its cells and closures. `Machine.run` gives the value of the last form, the unspecified value
when there is none, or the first error: a read error, an evaluation error, or an error value that a
form evaluated to. `Machine.report` runs a program the way the command line does, in a fresh
machine: with `echo`, the text of every result that is neither unspecified nor an error is written
after the form's own output; the first error ends the run.

Evaluation gets `depthLimit` levels of depth.
-/

namespace MiniScheme

/-- How deep evaluation may go, in levels of `Eval.step`. A procedure call nested in another takes
two or three levels, so programs may recurse hundreds of thousands of calls deep; deeper evaluation
ends as `exhausted` instead of running out of the machine's own stack. -/
def depthLimit : Nat := 2000000

/-- The value of a form in a frame. -/
def Machine.eval (form : Value) (frame : Nat) : Exec Value :=
  Eval.evalWith depthLimit form frame

/-- The forms of the text `cs` read and evaluated in turn in `frame`; `last` is the value of the
form before them. -/
def Machine.runForms (echo : Bool) (frame : Nat) (last : Value) (cs : List Char) : Exec Value :=
  match h : Read.skipBlank cs with
  | [] => pure last
  | c :: r =>
    have := Read.length_lt_of_skipBlank_eq_cons h
    match Read.datum c r with
    | ⟨.error e, _, _⟩ => Exec.fail (.read e)
    | ⟨.ok form, r₁, _⟩ => do
      let form ← Exec.allocate form
      match ← Machine.eval form frame with
      | .error e => Exec.fail e
      | v => do
        if echo then
          match v with
          | .unspecified => pure ()
          | v => Exec.write (v.display ++ "\n")
        Machine.runForms echo frame v r₁
termination_by cs.length

/-- A program run in `frame`: the value of its last form, or its first error. -/
def Machine.run (src : String) (frame : Nat) : Exec Value :=
  Machine.runForms false frame .unspecified src.toList

/-- The first datum of a text with new addresses, a read error standing for itself. -/
def Machine.readFirst (src : String) : Exec Value :=
  match (Read.form src.toList).result with
  | .ok v => Exec.allocate v
  | .error e => pure (.error (.read e))

/-- The value a computation ended with, an error standing for itself; none when it ran out of
fuel. -/
def Outcome.value? : Outcome Value → Option Value
  | .ok v => some v
  | .error e => some (.error e)
  | .exhausted => none

/-- The text written so far, and the machine with nothing written. -/
def Machine.takeOutput (m : Machine) : String × Machine :=
  (m.output, { m with output := "" })

/-- A new empty frame nested in `parent`. -/
def Machine.childFrame (m : Machine) (parent : Nat) : Nat × Machine :=
  let (f, st) := m.store.child parent []
  (f, { m with store := st })

/-- The machine with `k` bound to `v` in `frame` alone. -/
def Machine.bind (m : Machine) (frame : Nat) (k : String) (v : Value) : Machine :=
  { m with store := m.store.define frame k v }

/-- What a run of a program on the command line shows. -/
structure Report where
  stdout : String
  stderr : String
  status : Nat

/-- A program run in a fresh machine, each result written unless `quiet`. -/
def Machine.report (quiet : Bool) (src : String) : Report :=
  let (o, m) := Machine.runForms (!quiet) 0 .unspecified src.toList Machine.init
  match o with
  | .ok _ => ⟨m.output, "", 0⟩
  | .error e => ⟨m.output, "Error: " ++ e.message ++ "\n", 1⟩
  | .exhausted => ⟨m.output, "Error: evaluation too deep\n", 134⟩

end MiniScheme
