import MiniScheme.Machine
import MiniScheme.Eval.Primitive
import MiniScheme.Read.Datum
/-!
# Evaluation of forms

`step ev` is one level of evaluation: it looks at the form and leaves its sub-forms to `ev`;
`evalWith n` is `step` taken `n` levels deep, and at depth zero the computation is `exhausted`.

* An error stands for itself and fails. A symbol is its innermost binding in the frame's chain, else
  the primitive of that name. A closure becomes a copy with a new address that captures the current
  frame. Every other datum that is not a cell, the empty list included, is its own value.
* A cell is a combination, decided by its head. A closure head is called with the operands'
  values (errors name the call `lambda`), a primitive head likewise (`procedure`). The symbols
  `DEFINE`, `QUOTE`, `QUASIQUOTE`, `IF` and `BEGIN` are special forms, whatever the frames bind. Any
  other symbol calls the primitive of that name, else the procedure its binding holds, else it is an
  unknown procedure. Any other head is evaluated and the rest of the form ignored.
* Operands must form a proper list, else the form is malformed before anything is evaluated; they
  are evaluated from left to right and the first failure ends the combination.
* A closure is applied in a new frame nested in the frame it captured (or, for a closure read from
  text and never evaluated, in the caller's frame), binding its parameters to the arguments; where a
  parameter comes twice the later one stands.
-/

namespace MiniScheme

/-- An evaluator: the value of a form in a frame, as a computation of the machine. -/
abbrev Evaluator := Value → Nat → Exec Value

namespace Eval

/-- The operands of a form named `name`: the elements of its proper tail. -/
def operands (name : String) : Value → Except EvalError (List Value)
  | .nil => .ok []
  | .cons _ x d => (x :: ·) <$> operands name d
  | _ => .error (.malformedForm name)

/-- The operands of a combination evaluated in `frame` from left to right. -/
def evalOperands (ev : Evaluator) (frame : Nat) (name : String) (rest : Value) :
    Exec (List Value) := do
  let forms ← Exec.ofExcept (operands name rest)
  forms.mapM (ev · frame)

/-- The value of a symbol in `frame`. -/
def lookupName (name : String) (frame : Nat) : Exec Value := do
  match ← Exec.lookup frame name with
  | some v => pure v
  | none =>
    match Primitive.named? name with
    | some p => pure (.prim p)
    | none => Exec.fail (.eval (.unknownIdentifier name))

/-- A closure with parameters `ps` and body `b` applied in a new frame nested in `scope`; `name`
names the call in an arity error. -/
def applyClosure (ev : Evaluator) (name : String) (ps : List String) (b : Value) (scope : Nat)
    (args : List Value) : Exec Value :=
  if ps.length = args.length then do
    let f ← Exec.child scope (ps.zip args)
    ev b f
  else Exec.fail (.eval (.invalidNumberOfArguments name (toString ps.length) args.length))

/-- The forms of a text evaluated in turn in `frame`, each with new addresses: the value of the last
one, or unspecified when there is none; a failure, or else a read error after the forms before it,
ends the computation. -/
def evalText (ev : Evaluator) (frame : Nat) (src : String) : Exec Value := do
  let (forms, err) := Read.all src.toList
  let v ← forms.foldlM (fun _ f => do ev (← Exec.allocate f) frame) .unspecified
  match err with
  | some e => Exec.fail (.read e)
  | none => pure v

/-- The argument of `EVAL` evaluated in `target`: a string is read as program text. -/
def evalIn (ev : Evaluator) (x : Value) (target : Nat) : Exec Value :=
  match x with
  | .str src => evalText ev target src
  | x => ev x target

/-- `EVAL`, called from `frame`: in the frame given as its second argument, else in `frame`. -/
def evalPrimitive (ev : Evaluator) (frame : Nat) : List Value → Exec Value
  | [x] => evalIn ev x frame
  | [x, .env target] => evalIn ev x target
  | [_, v] => Exec.fail (.eval (.invalidArgumentType "eval" "environment" 1 v.typeName))
  | args => Exec.fail (.eval (.invalidNumberOfArguments "eval" "1 or 2" args.length))

/-- A primitive applied to evaluated arguments, called from `frame`. -/
def applyPrimitive (ev : Evaluator) (p : Primitive) (args : List Value) (frame : Nat) :
    Exec Value :=
  match p with
  | .arith op => Exec.ofExcept (op.fold args)
  | .compare rel => Exec.ofExcept (rel.chain args)
  | .test t => Exec.ofExcept (Primitive.check t.label t.holds args)
  | .not => Exec.ofExcept (Primitive.check "not" Primitive.isFalse args)
  | .car => Exec.ofExcept (Primitive.first args)
  | .cdr => Exec.ofExcept (Primitive.rest args)
  | .cons => do
    let a ← Exec.fresh
    Exec.ofExcept (Primitive.makeCell a args)
  | .list => do
    let a ← Exec.fresh
    pure (Value.ofList a args)
  | .display =>
    match args with
    | [v] => do
      Exec.write (v.display ++ "\n")
      pure .unspecified
    | args => Exec.fail (.eval (.invalidNumberOfArguments "display" "1" args.length))
  | .eval => evalPrimitive ev frame args
  | .env =>
    match args with
    | [] => pure (.env frame)
    | args => Exec.fail (.eval (.invalidNumberOfArguments "env" "0" args.length))

/-- `(DEFINE name expr)`: binds `name` in `frame` to the value of `expr`. -/
def define (ev : Evaluator) (rest : Value) (frame : Nat) : Exec Value := do
  match ← Exec.ofExcept (operands "define" rest) with
  | [.sym name, expr] =>
    let v ← ev expr frame
    Exec.define frame name v
    pure .unspecified
  | _ => Exec.fail (.eval (.malformedForm "define"))

/-- `(QUOTE datum)` and `(QUASIQUOTE datum)`: the datum itself. -/
def quote (keyword : String) (rest : Value) : Exec Value := do
  match ← Exec.ofExcept (operands keyword rest) with
  | [q] => pure q
  | _ => Exec.fail (.eval (.malformedForm keyword))

/-- `(IF test then)` and `(IF test then else)`: only `#F` is false; with no else branch a false
test gives the unspecified value. -/
def conditional (ev : Evaluator) (rest : Value) (frame : Nat) : Exec Value := do
  match ← Exec.ofExcept (operands "if" rest) with
  | [c, t] => do if Primitive.isFalse (← ev c frame) then pure .unspecified else ev t frame
  | [c, t, e] => do if Primitive.isFalse (← ev c frame) then ev e frame else ev t frame
  | _ => Exec.fail (.eval (.malformedForm "if"))

/-- `(BEGIN form …)`: the forms in turn, the value of the last, unspecified for none. -/
def sequence (ev : Evaluator) (rest : Value) (frame : Nat) : Exec Value := do
  let forms ← Exec.ofExcept (operands "begin" rest)
  forms.foldlM (fun _ f => ev f frame) .unspecified

/-- A combination whose head is the symbol `name` and no special form. -/
def call (ev : Evaluator) (name : String) (rest : Value) (frame : Nat) : Exec Value :=
  match Primitive.named? name with
  | some p => do
    let args ← evalOperands ev frame name rest
    applyPrimitive ev p args frame
  | none => do
    match ← Exec.lookup frame name with
    | some (.closure _ ps b scope) =>
      let args ← evalOperands ev frame name rest
      applyClosure ev name ps b (scope.getD frame) args
    | some (.prim p) =>
      let args ← evalOperands ev frame name rest
      applyPrimitive ev p args frame
    | _ => Exec.fail (.eval (.unknownProcedure name))

/-- A combination, decided by its head. -/
def combination (ev : Evaluator) (head rest : Value) (frame : Nat) : Exec Value :=
  match head with
  | .closure _ ps b _ => do
    let args ← evalOperands ev frame "lambda" rest
    applyClosure ev "lambda" ps b frame args
  | .prim p => do
    let args ← evalOperands ev frame "procedure" rest
    applyPrimitive ev p args frame
  | .sym name =>
    if name = "DEFINE" then define ev rest frame
    else if name = "QUOTE" ∨ name = "QUASIQUOTE" then quote name rest
    else if name = "IF" then conditional ev rest frame
    else if name = "BEGIN" then sequence ev rest frame
    else call ev name rest frame
  | other => ev other frame

/-- One level of evaluation of a form, its sub-forms evaluated by `ev`. -/
def step (ev : Evaluator) : Evaluator := fun form frame =>
  match form with
  | .error e => Exec.fail e
  | .sym name => lookupName name frame
  | .closure _ ps b _ => do
    let a ← Exec.fresh
    pure (.closure a ps b (some frame))
  | .cons _ head rest => combination ev head rest frame
  | v => pure v

/-- Evaluation `fuel` levels deep. -/
def evalWith : Nat → Evaluator
  | 0 => fun _ _ => Exec.exhaust
  | n + 1 => step (evalWith n)

end Eval

end MiniScheme
