import MiniScheme.Value.Basic
/-!
# Values as the program stores them

`Value` spells a list one way only: a cell's rest is `nil` exactly where the list ends. The program
stores a pair with two optional slots instead, a first element and a rest (`Stored.pair`). The empty
list is the pair with neither slot, a proper list ends in a pair with no rest, and nothing in the
type keeps a pair from holding the empty list as its rest. Three operations keep that from
happening: building a list with a tail leaves an empty tail out (`makeDotted`), `CONS` onto the empty
list leaves the rest slot empty (`makeCell`), and `CDR` of a pair with no rest gives a new empty list
(`rest`). The list views `items` and `tail` stop at an empty-list rest as they stop at a missing one,
while equality (`eq`) compares the slots as they are. `Canonical` is the shape of a list that these
operations keep, and `AllCanonical` says that every pair a value holds has it.

`Value.stored` is the stored form of a value: the empty list is the empty pair, and a cell whose rest
is `nil` has no rest. The empty list's address is never read (two empty pairs are equal slot by
slot), so every empty list is stored at address `0`.
-/

namespace MiniScheme

/-- A value with its pairs as the program stores them. -/
inductive Stored where
  | unspecified
  | bool (b : Bool)
  | int (n : Int64)
  | float (x : Float)
  | char (c : Char)
  | str (s : String)
  | sym (name : String)
  /-- A pair at address `addr`; the empty list when neither slot is filled. -/
  | pair (addr : Nat) (car : Option Stored) (cdr : Option Stored)
  | vector (items : List Stored)
  | closure (addr : Nat) (params : List String) (body : Stored) (scope : Option Nat)
  | prim (p : Primitive)
  | env (frame : Nat)
  | error (e : Error)
deriving Inhabited

namespace Stored

/-- The empty list: the pair with neither slot filled. -/
def emptyList : Stored :=
  pair 0 none none

/-- Whether a value is a pair with neither slot filled. -/
def isEmptyList : Stored → Bool
  | pair _ none none => true
  | _ => false

/-- Whether a value is a pair, the empty list included. -/
def isPair : Stored → Bool
  | pair .. => true
  | _ => false

/-- Whether a value holds other values: a pair, a vector or a closure. -/
def holdsValues : Stored → Bool
  | pair .. | vector _ | closure .. => true
  | _ => false

/-- The name of the value's type, as error messages give it. -/
def typeName : Stored → String
  | unspecified => "unspecified"
  | bool _ => "boolean"
  | int _ => "integer"
  | float _ => "float"
  | char _ => "char"
  | str _ => "string"
  | sym _ => "symbol"
  | pair _ none none => "empty list"
  | pair .. => "pair"
  | vector _ => "vector"
  | closure .. | prim _ => "procedure"
  | env _ => "environment"
  | error _ => "error"

/-! ### The list views -/

mutual
/-- The elements of the proper part of the list that starts at a pair: its first slot, then the
elements of its rest while the rest is a pair that is not empty. A missing first slot ends them. -/
def items : Stored → List Stored
  | pair _ (some x) d => x :: itemsAfter d
  | _ => []

/-- The elements that follow the first one of a pair whose rest slot holds `d`. -/
def itemsAfter : Option Stored → List Stored
  | some (pair a c d) => if (pair a c d).isEmptyList then [] else (pair a c d).items
  | _ => []
end

mutual
/-- What stands after the dot of the list that starts at a pair: following the rests that are pairs
and not empty, the first rest that is no pair; none where a rest is missing or the empty list. -/
def tail : Stored → Option Stored
  | pair _ _ d => tailAfter d
  | _ => none

/-- What stands after the dot, from a rest slot holding `d`. -/
def tailAfter : Option Stored → Option Stored
  | some (pair a c d) => if (pair a c d).isEmptyList then none else (pair a c d).tail
  | some t => some t
  | none => none
end

/-- The elements of a proper list, the empty list included; none for anything else. -/
def listItems? : Stored → Option (List Stored)
  | p@(pair ..) => if p.tail.isNone then some p.items else none
  | _ => none

/-! ### Equality -/

mutual
/-- Whether two values are the very same datum: equal constructors and fields throughout, floats bit
for bit, addresses included. -/
def same : Stored → Stored → Bool
  | unspecified, unspecified => true
  | bool a, bool b => a == b
  | int a, int b => a == b
  | float a, float b => a.toBits == b.toBits
  | char a, char b => a == b
  | str a, str b => a == b
  | sym a, sym b => a == b
  | pair a c d, pair b c' d' => a == b && sameSlot c c' && sameSlot d d'
  | vector xs, vector ys => sameAll xs ys
  | closure a ps b s, closure a' ps' b' s' => a == a' && ps == ps' && same b b' && s == s'
  | prim p, prim q => p == q
  | env f, env g => f == g
  | error e, error f => e == f
  | _, _ => false

/-- `same` on two slots: both empty, or both filled with the very same datum. -/
def sameSlot : Option Stored → Option Stored → Bool
  | none, none => true
  | some x, some y => same x y
  | _, _ => false

/-- `same` element by element. -/
def sameAll : List Stored → List Stored → Bool
  | [], [] => true
  | x :: xs, y :: ys => same x y && sameAll xs ys
  | _, _ => false
end

mutual
/-- The equality of stored values. Two pairs are equal when they are the very same pair, or else
slot by slot, a missing slot being equal to a missing one only; the rest as `Value.equal`. -/
def eq : Stored → Stored → Bool
  | unspecified, unspecified => true
  | bool a, bool b => a == b
  | int a, int b => a == b
  | float a, float b => a == b
  | char a, char b => a == b
  | str a, str b => a == b
  | sym a, sym b => a == b
  | pair a c d, pair b c' d' => same (pair a c d) (pair b c' d') || (eqSlot c c' && eqSlot d d')
  | vector xs, vector ys => eqAll xs ys
  | closure a .., closure b .. => a == b
  | prim p, prim q => p == q
  | env f, env g => f == g
  | error e, error f => e == f
  | _, _ => false

/-- `eq` on two slots: both empty, or both filled with equal values. -/
def eqSlot : Option Stored → Option Stored → Bool
  | none, none => true
  | some x, some y => eq x y
  | _, _ => false

/-- `eq` element by element, for lists of the same length. -/
def eqAll : List Stored → List Stored → Bool
  | [], [] => true
  | x :: xs, y :: ys => eq x y && eqAll xs ys
  | _, _ => false
end

mutual
/-- Whether a NaN float is held in the value, or is it. -/
def hasNaN : Stored → Bool
  | float x => x.isNaN
  | pair _ c d => hasNaNSlot c || hasNaNSlot d
  | vector xs => hasNaNAll xs
  | closure _ _ b _ => b.hasNaN
  | _ => false

/-- Whether a NaN float is held in a slot. -/
def hasNaNSlot : Option Stored → Bool
  | some x => x.hasNaN
  | none => false

/-- Whether a NaN float is held in one of the values. -/
def hasNaNAll : List Stored → Bool
  | [] => false
  | x :: xs => x.hasNaN || hasNaNAll xs
end

mutual
/-- The value with every address set to `0`: what is left of it when identity is ignored. -/
def erase : Stored → Stored
  | pair _ c d => pair 0 (eraseSlot c) (eraseSlot d)
  | vector xs => vector (eraseAll xs)
  | closure _ ps b s => closure 0 ps b.erase s
  | v => v

/-- `erase` in a slot. -/
def eraseSlot : Option Stored → Option Stored
  | some x => some x.erase
  | none => none

/-- `erase` element by element. -/
def eraseAll : List Stored → List Stored
  | [] => []
  | x :: xs => x.erase :: eraseAll xs
end

/-! ### Building lists -/

/-- The list `x₁ … xₙ . tail`, each new pair at address `a`, built from the last element: it goes
in front of the tail, then each element before it in front of the pairs made so far. An empty list
as the tail is left out, so the list is then proper; no elements give the empty list. -/
def makeDotted (a : Nat) (items : List Stored) (tail : Option Stored) : Stored :=
  let tail := tail.filter fun t => !t.isEmptyList
  match items.reverse with
  | [] => emptyList
  | last :: rest => rest.foldl (fun acc car => pair a (some car) (some acc)) (pair a (some last) tail)

/-- The proper list of `items`, each pair at address `a`. -/
def makeList (a : Nat) (items : List Stored) : Stored :=
  makeDotted a items none

/-! ### The list primitives -/

/-- `CAR`: the first slot of a pair; the empty list has none. -/
def first : List Stored → Except EvalError Stored
  | [pair _ (some x) _] => .ok x
  | [v] => .error (.invalidArgumentType "car" "pair" 0 v.typeName)
  | args => .error (.invalidNumberOfArguments "car" "1" args.length)

/-- `CDR`: the rest of a pair that is not empty, a new empty list where the rest slot is empty. -/
def rest : List Stored → Except EvalError Stored
  | [v@(pair _ c d)] =>
    if c.isNone && d.isNone then .error (.invalidArgumentType "cdr" "pair" 0 v.typeName)
    else .ok (d.getD emptyList)
  | [v] => .error (.invalidArgumentType "cdr" "pair" 0 v.typeName)
  | args => .error (.invalidNumberOfArguments "cdr" "1" args.length)

/-- The rest slot of a new pair whose rest is `d`: empty where `d` is the empty list. -/
def restSlot (d : Stored) : Option Stored :=
  if d.isEmptyList then none else some d

/-- `CONS`: a new pair at address `a`; the empty list as the rest leaves the rest slot empty. -/
def makeCell (a : Nat) : List Stored → Except EvalError Stored
  | [x, d] => .ok (pair a (some x) (restSlot d))
  | args => .error (.invalidNumberOfArguments "cons" "2" args.length)

/-- `LIST`: the proper list of the arguments, its pairs at address `a`. -/
def list (a : Nat) (args : List Stored) : Except EvalError Stored :=
  .ok (makeList a args)

/-! ### The shape the operations keep -/

/-- A canonical pair: the empty pair, or a pair whose first slot is filled and whose rest is missing,
a canonical pair that is not empty, or a value that is no pair; never the empty list. -/
inductive Canonical : Stored → Prop
  | empty (a : Nat) : Canonical (pair a none none)
  | last (a : Nat) (x : Stored) : Canonical (pair a (some x) none)
  | more (a : Nat) (x : Stored) {b : Nat} {y : Stored} {e : Option Stored} :
      Canonical (pair b (some y) e) → Canonical (pair a (some x) (some (pair b (some y) e)))
  | dotted (a : Nat) (x : Stored) {t : Stored} : t.isPair = false →
      Canonical (pair a (some x) (some t))

/-- Every pair the value holds, the value itself included, is canonical. -/
inductive AllCanonical : Stored → Prop
  | pair {a : Nat} {c d : Option Stored} : (pair a c d).Canonical → (∀ x ∈ c, AllCanonical x) →
      (∀ x ∈ d, AllCanonical x) → AllCanonical (pair a c d)
  | vector {xs : List Stored} : (∀ x ∈ xs, AllCanonical x) → AllCanonical (vector xs)
  | closure {a : Nat} {ps : List String} {b : Stored} {s : Option Nat} :
      AllCanonical b → AllCanonical (closure a ps b s)
  | leaf {v : Stored} : v.holdsValues = false → AllCanonical v

end Stored

/-! ### The stored form of a value -/

mutual
/-- The stored form of a value: the empty list is the empty pair, and a cell whose rest is `nil`
has an empty rest slot. -/
def Value.stored : Value → Stored
  | .unspecified => .unspecified
  | .bool b => .bool b
  | .int n => .int n
  | .float x => .float x
  | .char c => .char c
  | .str s => .str s
  | .sym s => .sym s
  | .nil => .emptyList
  | .cons a x .nil => .pair a (some x.stored) none
  | .cons a x d => .pair a (some x.stored) (some d.stored)
  | .vector xs => .vector (Value.storedAll xs)
  | .closure a ps b s => .closure a ps b.stored s
  | .prim p => .prim p
  | .env f => .env f
  | .error e => .error e

/-- `stored` element by element. -/
def Value.storedAll : List Value → List Stored
  | [] => []
  | x :: xs => x.stored :: Value.storedAll xs
end

end MiniScheme
