/-!
# Decimal numerals to floats

`ofDecimal neg m e` is the float nearest to `±m · 10^e`, a tie going to the float with an even last
bit; past the largest finite float the result is an infinity, and a value below half the smallest
positive float becomes zero (negative zero when `neg`). The rounding is the correctly rounded
`Float.ofScientific` of the core library; exponents far outside the range of floats are settled
before it is called, so that no power of ten larger than needed is ever formed.
-/

namespace MiniScheme.Binary64

/-- The positive infinity. -/
def infinity : Float := Float.ofBits 0x7FF0000000000000

/-- The float nearest to `±m · 10^e`. A value of at least `10^310` is past the largest float and one
below `10^-331` below half the smallest positive float; both are told apart by the number of digits
and the exponent alone. -/
def ofDecimal (neg : Bool) (m : Nat) (e : Int) : Float :=
  let digits : Int := (Nat.toDigits 10 m).length
  let mag : Float :=
    if m = 0 then 0
    else if 310 < digits + e then infinity
    else if digits + e < -330 then 0
    else if 0 ≤ e then Float.ofScientific m false e.toNat
    else Float.ofScientific m true (-e).toNat
  if neg then -mag else mag

end MiniScheme.Binary64
