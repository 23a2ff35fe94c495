import MiniScheme.Value.Basic
import MiniScheme.Text.UpperCase
import MiniScheme.Binary64.Decimal
/-!
# Atoms

An atom is the text up to the next delimiter. It is an integer when it is an integer numeral whose
value fits in 64 bits, else a float when it is a decimal numeral, else a symbol, upper-cased.

Integer numerals: an optional sign, then `0x` or `0X` and hexadecimal digits, `0b` or `0B` and
binary digits, `0` and octal digits with an optional `o` or `O` between, or a decimal numeral without
a leading zero (or `0` itself); an underscore may follow the prefix, and digits come in groups joined
by single underscores. So `010` is eight, `0x_ff` is 255 and `1__0` is a symbol.

Decimal numerals: an optional sign, digits with an optional point and more digits (at least one
digit in all), and an optional exponent of `e` or `E`, an optional sign and digits. Its float is the
nearest one (`Binary64.ofDecimal`), so `09` is the float 9 and `1e400` is infinity.
-/

namespace MiniScheme.Read

/-- The value of `c` as a digit of `radix` (at most sixteen). -/
def digitIn (radix : Nat) (c : Char) : Option Nat :=
  let v :=
    if '0' ≤ c ∧ c ≤ '9' then some (c.toNat - 48)
    else if 'a' ≤ c ∧ c ≤ 'f' then some (c.toNat - 87)
    else if 'A' ≤ c ∧ c ≤ 'F' then some (c.toNat - 55)
    else none
  v.filter (· < radix)

mutual
/-- The digits of groups of digits joined by single underscores, the whole text; none when the text
is not of that shape. -/
def digitGroups (radix : Nat) : List Char → Option (List Nat)
  | [] => none
  | c :: cs => do
    let d ← digitIn radix c
    let ds ← groupsTail radix cs
    pure (d :: ds)

/-- The digits of what may follow a digit of a group: nothing, more digits, or an underscore and
further groups. -/
def groupsTail (radix : Nat) : List Char → Option (List Nat)
  | [] => some []
  | '_' :: cs => digitGroups radix cs
  | c :: cs => do
    let d ← digitIn radix c
    let ds ← groupsTail radix cs
    pure (d :: ds)
end

/-- The number that digits of `radix` stand for, the most significant first. -/
def digitsValue (radix : Nat) (ds : List Nat) : Nat :=
  ds.foldl (fun n d => n * radix + d) 0

/-- Digit groups after a radix prefix, which an underscore may follow. -/
def afterPrefix (radix : Nat) : List Char → Option Nat
  | '_' :: cs => digitsValue radix <$> digitGroups radix cs
  | cs => digitsValue radix <$> digitGroups radix cs

/-- The value of an integer numeral without its sign. -/
def unsignedInteger : List Char → Option Nat
  | ['0'] => some 0
  | '0' :: x :: cs =>
    if x = 'x' ∨ x = 'X' then afterPrefix 16 cs
    else if x = 'b' ∨ x = 'B' then afterPrefix 2 cs
    else if x = 'o' ∨ x = 'O' then afterPrefix 8 cs
    else afterPrefix 8 (x :: cs)
  | c :: cs =>
    if '1' ≤ c ∧ c ≤ '9' then digitsValue 10 <$> groupsTail 10 (c :: cs) else none
  | [] => none

/-- The sign of a numeral and the text after it. -/
def splitSign : List Char → Bool × List Char
  | '+' :: cs => (false, cs)
  | '-' :: cs => (true, cs)
  | cs => (false, cs)

/-- Whether an integer lies in the 64-bit range. -/
def fitsInt64 (v : Int) : Bool :=
  Int64.minValue.toInt ≤ v && v ≤ Int64.maxValue.toInt

/-- The value of an integer numeral that fits in 64 bits. -/
def integerLiteral (cs : List Char) : Option Int64 :=
  let (neg, body) := splitSign cs
  match unsignedInteger body with
  | none => none
  | some m =>
    let v : Int := if neg then -(m : Int) else m
    if fitsInt64 v then some (Int64.ofInt v) else none

/-- The digits of an exponent: an optional sign and at least one digit, the whole text. -/
def exponentDigits (cs : List Char) : Option Int :=
  let (neg, body) := splitSign cs
  if body ≠ [] ∧ body.all Char.isDigit then
    let n : Int := digitsValue 10 (body.map (·.toNat - 48))
    some (if neg then -n else n)
  else none

/-- A decimal numeral as its sign, its digits without the point, and the power of ten they are
scaled by. -/
def decimalLiteral (cs : List Char) : Option (Bool × Nat × Int) :=
  let (neg, body) := splitSign cs
  let whole := body.takeWhile Char.isDigit
  let afterWhole := body.dropWhile Char.isDigit
  let (frac, afterFrac, hasDigit) :=
    match afterWhole with
    | '.' :: r => (r.takeWhile Char.isDigit, r.dropWhile Char.isDigit,
        !whole.isEmpty || !(r.takeWhile Char.isDigit).isEmpty)
    | r => ([], r, !whole.isEmpty)
  let exp? : Option Int :=
    match afterFrac with
    | [] => some 0
    | e :: r => if e = 'e' ∨ e = 'E' then exponentDigits r else none
  match hasDigit, exp? with
  | true, some exp =>
    some (neg, digitsValue 10 ((whole ++ frac).map (·.toNat - 48)), exp - frac.length)
  | _, _ => none

/-- The datum an atom stands for. -/
def classify (token : List Char) : Value :=
  match integerLiteral token with
  | some n => .int n
  | none =>
    match decimalLiteral token with
    | some (neg, m, e) => .float (Binary64.ofDecimal neg m e)
    | none => .sym (Text.upper (String.ofList token))

end MiniScheme.Read
