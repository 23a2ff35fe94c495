import MiniScheme.Value.Basic
/-!
# Equality of values

`Value.equal` is the equality programs see. Numbers, characters, texts, symbols and booleans compare
by value, floats as IEEE numbers (so a NaN equals nothing and `0.0` equals `-0.0`). Closures compare
by address: the same closure is equal to itself and to nothing else. Primitives compare by name,
frames by identity, errors by cause and fields. Vectors compare element by element. Two cells are
equal when they are the very same datum (`Value.same`: the same addresses and contents throughout),
or else element by element; so a list is equal to itself even when it holds a NaN, while a copy of it
built apart is not.
-/

namespace MiniScheme.Value

mutual
/-- Whether two values are the very same datum: equal constructors and fields throughout, floats bit
for bit, addresses included. -/
def same : Value → Value → Bool
  | unspecified, unspecified => true
  | bool a, bool b => a == b
  | int a, int b => a == b
  | float a, float b => a.toBits == b.toBits
  | char a, char b => a == b
  | str a, str b => a == b
  | sym a, sym b => a == b
  | nil, nil => true
  | cons a x d, cons b y e => a == b && same x y && same d e
  | vector xs, vector ys => sameAll xs ys
  | closure a ps b s, closure a' ps' b' s' => a == a' && ps == ps' && same b b' && s == s'
  | prim p, prim q => p == q
  | env f, env g => f == g
  | error e, error f => e == f
  | _, _ => false

/-- `same` element by element. -/
def sameAll : List Value → List Value → Bool
  | [], [] => true
  | x :: xs, y :: ys => same x y && sameAll xs ys
  | _, _ => false
end

mutual
/-- The equality of values that programs see. -/
def equal : Value → Value → Bool
  | unspecified, unspecified => true
  | bool a, bool b => a == b
  | int a, int b => a == b
  | float a, float b => a == b
  | char a, char b => a == b
  | str a, str b => a == b
  | sym a, sym b => a == b
  | nil, nil => true
  | cons a x d, cons b y e => same (cons a x d) (cons b y e) || (equal x y && equal d e)
  | vector xs, vector ys => equalAll xs ys
  | closure a .., closure b .. => a == b
  | prim p, prim q => p == q
  | env f, env g => f == g
  | error e, error f => e == f
  | _, _ => false

/-- `equal` element by element, for lists of the same length. -/
def equalAll : List Value → List Value → Bool
  | [], [] => true
  | x :: xs, y :: ys => equal x y && equalAll xs ys
  | _, _ => false
end

end MiniScheme.Value
