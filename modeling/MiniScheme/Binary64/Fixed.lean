/-!
# Floats in fixed-point notation

A float is written from its exact binary value: `decode` reads the bits as not-a-number, an
infinity, or `±m · 2^e`, and `fixed` writes the finite value with a fixed number of places after
the point, rounded to the nearest, a tie going to the even last digit (`roundHalfEven`). The sign is
written whenever the sign bit is set, so a negative value that rounds to zero keeps it. No exponent
is used: `1e20` has twenty-one digits before the point. A `FixedFormat` holds the decisions of a
format: the number of places and the words for not-a-number and infinity.
-/

namespace MiniScheme.Binary64

/-- What the bits of a binary64 float stand for. -/
inductive Kind where
  /-- Not a number. -/
  | nan
  /-- An infinity, negative when `neg`. -/
  | infinite (neg : Bool)
  /-- The finite value `±m · 2^e`, negative (or negative zero) when `neg`. -/
  | finite (neg : Bool) (m : Nat) (e : Int)

/-- Reads the sign bit, the eleven exponent bits and the fifty-two fraction bits of a float. Powers
are written `Nat.pow` in full, the same function whatever `Pow` instances are in scope. -/
def decode (x : Float) : Kind :=
  let b : Nat := x.toBits.toNat
  let neg : Bool := b / Nat.pow 2 63 = 1
  let ex : Nat := b / Nat.pow 2 52 % Nat.pow 2 11
  let frac : Nat := b % Nat.pow 2 52
  if ex = 2047 then (if frac = 0 then .infinite neg else .nan)
  else if ex = 0 then .finite neg frac (-1074)
  else .finite neg (frac + Nat.pow 2 52) ((ex : Int) - 1075)

/-- `num / den` rounded to the nearest natural number, a tie going to the even one. -/
def roundHalfEven (num den : Nat) : Nat :=
  let q := num / den
  let r := num % den
  if den < 2 * r ∨ (2 * r = den ∧ q % 2 = 1) then q + 1 else q

/-- `m · 2^e · 10^places`, rounded to a natural number with ties to even. -/
def scaled (m : Nat) (e : Int) (places : Nat) : Nat :=
  if 0 ≤ e then m * Nat.pow 2 e.toNat * Nat.pow 10 places
  else roundHalfEven (m * Nat.pow 10 places) (Nat.pow 2 (-e).toNat)

/-- The decimal digits of `n`, with zeros in front up to `width` digits. -/
def padZeros (width n : Nat) : String :=
  let ds := Nat.toDigits 10 n
  String.ofList (List.replicate (width - ds.length) '0' ++ ds)

/-- The decisions of a fixed-point format. -/
structure FixedFormat where
  /-- Digits after the point. -/
  places : Nat
  /-- The text of not-a-number, written without a sign. -/
  nan : String
  /-- The text of infinity, after a minus sign when negative. -/
  infinity : String

/-- A float in fixed-point notation with the format `fmt`. -/
def fixed (fmt : FixedFormat) (x : Float) : String :=
  match decode x with
  | .nan => fmt.nan
  | .infinite neg => (if neg then "-" else "") ++ fmt.infinity
  | .finite neg m e =>
    let n := scaled m e fmt.places
    let sign := if neg then "-" else ""
    let whole := toString (n / Nat.pow 10 fmt.places)
    if fmt.places = 0 then sign ++ whole
    else sign ++ whole ++ "." ++ padZeros fmt.places (n % Nat.pow 10 fmt.places)

end MiniScheme.Binary64
