import MiniScheme.Value.Basic
/-!
# Primitives on values

The primitives that only look at their arguments. Arithmetic folds from the left, the first
argument choosing integer or float arithmetic; integers are exact and an out-of-range result is an
error, never a wrapped one, and integer division truncates toward zero. A comparison checks the type
of every argument before it compares any, then holds when every two neighbours are related. Type
tests take one argument; `CAR` and `CDR` take a cell.
-/

namespace MiniScheme

namespace Arith

/-- `r` as a 64-bit integer, or the overflow of `a` and `b` under the operation named `name`. -/
def checked (name : String) (a b : Int64) (r : Int) : Except EvalError Int64 :=
  if Int64.minValue.toInt ≤ r ∧ r ≤ Int64.maxValue.toInt then .ok (Int64.ofInt r)
  else .error (.numericOverflow name a b)

/-- One step on integers. -/
def onInt : Arith → Int64 → Int64 → Except EvalError Int64
  | add, a, b => checked "+" a b (a.toInt + b.toInt)
  | sub, a, b => checked "-" a b (a.toInt - b.toInt)
  | mul, a, b => checked "*" a b (a.toInt * b.toInt)
  | div, a, b => if b.toInt = 0 then .error (.divisionByZero "/") else checked "/" a b (a.toInt.tdiv b.toInt)

/-- One step on floats; a zero divisor, of either sign, is an error. -/
def onFloat : Arith → Float → Float → Except EvalError Float
  | add, a, b => .ok (a + b)
  | sub, a, b => .ok (a - b)
  | mul, a, b => .ok (a * b)
  | div, a, b => if b == 0 then .error (.divisionByZero "/") else .ok (a / b)

/-- The fold over integer arguments from position `i` on. -/
def foldInt (op : Arith) (acc : Int64) : List Value → Nat → Except EvalError Int64
  | [], _ => .ok acc
  | .int b :: rest, i => do foldInt op (← op.onInt acc b) rest (i + 1)
  | v :: _, i => .error (.invalidArgumentType op.name "integer" i v.typeName)

/-- The fold over float arguments from position `i` on. -/
def foldFloat (op : Arith) (acc : Float) : List Value → Nat → Except EvalError Float
  | [], _ => .ok acc
  | .float b :: rest, i => do foldFloat op (← op.onFloat acc b) rest (i + 1)
  | v :: _, i => .error (.invalidArgumentType op.name "float" i v.typeName)

/-- The operation folded over the arguments from the left. -/
def fold (op : Arith) : List Value → Except EvalError Value
  | [] => .error (.invalidNumberOfArguments op.name "1 or more" 0)
  | .int a :: rest => .int <$> foldInt op a rest 1
  | .float a :: rest => .float <$> foldFloat op a rest 1
  | v :: _ => .error (.invalidArgumentType op.name "integer or float" 0 v.typeName)

end Arith

namespace Relation

/-- The comparison of integers. -/
def onInt : Relation → Int64 → Int64 → Bool
  | eq, a, b => a.toInt = b.toInt
  | lt, a, b => a.toInt < b.toInt
  | le, a, b => a.toInt ≤ b.toInt
  | gt, a, b => a.toInt > b.toInt
  | ge, a, b => a.toInt ≥ b.toInt

/-- The comparison of floats, as IEEE numbers. -/
def onFloat : Relation → Float → Float → Bool
  | eq, a, b => a == b
  | lt, a, b => a < b
  | le, a, b => a ≤ b
  | gt, a, b => b < a
  | ge, a, b => b ≤ a

/-- Whether every two neighbours of a list are related. -/
def adjacent {α : Type} (r : α → α → Bool) : List α → Bool
  | x :: y :: rest => r x y && adjacent r (y :: rest)
  | _ => true

/-- The arguments as integers, each checked, from position `i` on. -/
def ints (name : String) : List Value → Nat → Except EvalError (List Int64)
  | [], _ => .ok []
  | .int n :: rest, i => (n :: ·) <$> ints name rest (i + 1)
  | v :: _, i => .error (.invalidArgumentType name "integer" i v.typeName)

/-- The arguments as floats, each checked, from position `i` on. -/
def floats (name : String) : List Value → Nat → Except EvalError (List Float)
  | [], _ => .ok []
  | .float x :: rest, i => (x :: ·) <$> floats name rest (i + 1)
  | v :: _, i => .error (.invalidArgumentType name "float" i v.typeName)

/-- The comparison over a chain of arguments. -/
def chain (rel : Relation) : List Value → Except EvalError Value
  | [] => .error (.invalidNumberOfArguments rel.name "1 or more" 0)
  | args@(.int _ :: _) => do
    let ns ← ints rel.name args 0
    pure (.bool (adjacent rel.onInt ns))
  | args@(.float _ :: _) => do
    let xs ← floats rel.name args 0
    pure (.bool (adjacent rel.onFloat xs))
  | v :: _ => .error (.invalidArgumentType rel.name "integer or float" 0 v.typeName)

end Relation

/-- Whether a value passes a type test. -/
def TypeTest.holds : TypeTest → Value → Bool
  | .boolean, .bool _ => true
  | .pair, .cons .. => true
  | .symbol, .sym _ => true
  | .null, .nil => true
  | .number, .int _ | .number, .float _ => true
  | .string, .str _ => true
  | .char, .char _ => true
  | .vector, .vector _ => true
  | .procedure, v => v.isProcedure
  | _, _ => false

namespace Primitive

/-- A primitive of one argument that answers a yes-or-no question about it. -/
def check (name : String) (p : Value → Bool) : List Value → Except EvalError Value
  | [v] => .ok (.bool (p v))
  | args => .error (.invalidNumberOfArguments name "1" args.length)

/-- The first element of a cell. -/
def first : List Value → Except EvalError Value
  | [.cons _ x _] => .ok x
  | [v] => .error (.invalidArgumentType "car" "pair" 0 v.typeName)
  | args => .error (.invalidNumberOfArguments "car" "1" args.length)

/-- What follows the first element of a cell: the empty list where a proper list ends. -/
def rest : List Value → Except EvalError Value
  | [.cons _ _ d] => .ok d
  | [v] => .error (.invalidArgumentType "cdr" "pair" 0 v.typeName)
  | args => .error (.invalidNumberOfArguments "cdr" "1" args.length)

/-- A new cell at address `a`. -/
def makeCell (a : Nat) : List Value → Except EvalError Value
  | [x, d] => .ok (.cons a x d)
  | args => .error (.invalidNumberOfArguments "cons" "2" args.length)

/-- Whether a value is false: only `#F` is. -/
def isFalse : Value → Bool
  | .bool false => true
  | _ => false

end Primitive

end MiniScheme
