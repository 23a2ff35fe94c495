import MiniScheme.Error
/-!
# Values

A `Value` is what the reader produces and what evaluation works on: the atoms, the empty list,
cons cells, vectors, closures, primitive procedures, reified frames and errors.

Lists are canonical by construction: a cell's `cdr` is `nil` when the list ends there (there is no
second spelling of the empty tail), another cell when it goes on, and any other value for a dotted
list. The views `items` (the elements of the proper part) and `terminator?` (what stands after the
dot) describe a list; `dotted` and `ofList` build one. Cells and closures carry an address: cells
built by one construction share it, separate constructions use separate addresses, and a datum read
from text has address `0` everywhere until `allocate` numbers its cells and closures.
-/

namespace MiniScheme

/-- The four arithmetic operations. -/
inductive Arith where
  | add | sub | mul | div
deriving DecidableEq

/-- The name of an arithmetic operation. -/
def Arith.name : Arith → String
  | add => "+"
  | sub => "-"
  | mul => "*"
  | div => "/"

/-- The five numeric comparisons. -/
inductive Relation where
  | eq | lt | le | gt | ge
deriving DecidableEq

/-- The name of a comparison. -/
def Relation.name : Relation → String
  | eq => "="
  | lt => "<"
  | le => "<="
  | gt => ">"
  | ge => ">="

/-- The tests of a value's type. -/
inductive TypeTest where
  | boolean | pair | symbol | null | number | string | char | vector | procedure
deriving DecidableEq

/-- The name of a type test, as its errors give it. -/
def TypeTest.label : TypeTest → String
  | boolean => "boolean?"
  | pair => "pair?"
  | symbol => "symbol?"
  | null => "null?"
  | number => "number?"
  | string => "string?"
  | char => "char?"
  | vector => "vector?"
  | procedure => "procedure?"

/-- The procedures every program starts with; a name finds one when no frame binds it. -/
inductive Primitive where
  | arith (op : Arith)
  | compare (rel : Relation)
  | test (t : TypeTest)
  | not | car | cdr | cons | list | display | eval | env
deriving DecidableEq

namespace Primitive

/-- The name a program calls the primitive by. -/
def name : Primitive → String
  | arith op => op.name
  | compare rel => rel.name
  | test t => t.label.toUpper
  | not => "NOT"
  | car => "CAR"
  | cdr => "CDR"
  | cons => "CONS"
  | list => "LIST"
  | display => "DISPLAY"
  | eval => "EVAL"
  | env => "ENV"

/-- Every primitive. -/
def all : List Primitive :=
  [arith .add, arith .sub, arith .mul, arith .div, compare .eq, compare .lt, compare .le,
    compare .gt, compare .ge, test .boolean, test .pair, test .symbol, test .null, test .number,
    test .string, test .char, test .vector, test .procedure, not, car, cdr, cons, list, display,
    eval, env]

/-- The primitive a name calls, if any. -/
def named? (s : String) : Option Primitive :=
  all.find? (·.name == s)

end Primitive

/-- The data of programs. -/
inductive Value where
  /-- The value of a form that has none, such as a `define`. -/
  | unspecified
  | bool (b : Bool)
  | int (n : Int64)
  | float (x : Float)
  | char (c : Char)
  | str (s : String)
  /-- A symbol, kept upper-cased. -/
  | sym (name : String)
  /-- The empty list. -/
  | nil
  /-- A cell at address `addr`; `cdr` is `nil` where a proper list ends. -/
  | cons (addr : Nat) (car : Value) (cdr : Value)
  | vector (items : List Value)
  /-- A procedure: parameters and body. `scope` is the frame it was evaluated in; a closure read
  from text has none yet and prints as the lambda form it was read from. -/
  | closure (addr : Nat) (params : List String) (body : Value) (scope : Option Nat)
  | prim (p : Primitive)
  /-- A frame of the store, as a value. -/
  | env (frame : Nat)
  | error (e : Error)
deriving Inhabited

namespace Value

/-- The list `x₁ … xₙ . last`, every new cell at address `a`; `nil` when there are no elements, and
a proper list when `last` is `nil`. -/
def dotted (a : Nat) (last : Value) : List Value → Value
  | [] => nil
  | [x] => cons a x last
  | x :: xs => cons a x (dotted a last xs)

/-- The proper list of `xs`, every cell at address `a`. -/
def ofList (a : Nat) (xs : List Value) : Value :=
  dotted a nil xs

/-- The elements of the proper part of a list, in order; none for a value that is not a cell. -/
def items : Value → List Value
  | cons _ x d => x :: d.items
  | _ => []

/-- What stands after the dot of a dotted list; none for a proper list or a value that is not a
cell. -/
def terminator? : Value → Option Value
  | cons _ _ d@(cons ..) => d.terminator?
  | cons _ _ nil => none
  | cons _ _ d => some d
  | _ => none

/-- The elements of a proper list, the empty list included; none for anything else. -/
def listItems? : Value → Option (List Value)
  | nil => some []
  | v@(cons ..) => if v.terminator?.isNone then some v.items else none
  | _ => none

/-- The number of elements of the proper part of a list or of the empty list; none for a value that
is no list. -/
def pairLength? : Value → Option Nat
  | nil => some 0
  | v@(cons ..) => some v.items.length
  | _ => none

/-- The text of a symbol. -/
def symbol? : Value → Option String
  | sym s => some s
  | _ => none

/-- Whether the value is an error. -/
def isError : Value → Bool
  | error _ => true
  | _ => false

/-- Whether the value is the end-of-text error. -/
def isEof : Value → Bool
  | error e => e.isEof
  | _ => false

/-- Whether the value can be applied. -/
def isProcedure : Value → Bool
  | closure .. | prim _ => true
  | _ => false

/-- The name of the value's type, as error messages give it. -/
def typeName : Value → String
  | unspecified => "unspecified"
  | bool _ => "boolean"
  | int _ => "integer"
  | float _ => "float"
  | char _ => "char"
  | str _ => "string"
  | sym _ => "symbol"
  | nil => "empty list"
  | cons .. => "pair"
  | vector _ => "vector"
  | closure .. | prim _ => "procedure"
  | env _ => "environment"
  | error _ => "error"

mutual
/-- Gives every cell and closure of a datum its own address, counting up from `next`; returns the
next free address. -/
def allocate : Value → Nat → Value × Nat
  | cons _ x d, next =>
    let (x', n₁) := allocate x (next + 1)
    let (d', n₂) := allocate d n₁
    (cons next x' d', n₂)
  | closure _ ps b s, next =>
    let (b', n₁) := allocate b (next + 1)
    (closure next ps b' s, n₁)
  | vector xs, next =>
    let (xs', n₁) := allocateAll xs next
    (vector xs', n₁)
  | v, next => (v, next)

/-- `allocate` over a list of data, from left to right. -/
def allocateAll : List Value → Nat → List Value × Nat
  | [], next => ([], next)
  | x :: xs, next =>
    let (x', n₁) := allocate x next
    let (xs', n₂) := allocateAll xs n₁
    (x' :: xs', n₂)
end

@[simp] theorem items_cons (a : Nat) (x d : Value) : (cons a x d).items = x :: d.items := rfl

@[simp] theorem dotted_nil (a : Nat) (last : Value) : dotted a last [] = nil := rfl

end Value

end MiniScheme
