/-!
# Binary64 values

A `Double` is the 64-bit interchange word of a floating-point value: one sign
bit, eleven exponent bits and fifty-two fraction bits.

Every finite magnitude is a whole number of units of `2 ^ -1074`, the least
positive value.  `Double.units` counts them, so that all later arithmetic on
magnitudes is exact arithmetic on natural numbers: no exponent ever has to be
negative, and no rounding takes place.
-/

namespace CssMath

/-- A binary64 value, given by its interchange word. -/
structure Double where
  bits : UInt64
  deriving DecidableEq, Repr

namespace Double

/-- The number of units of `2 ^ -1074` in the value one. -/
def unitsPerOne : Nat :=
  Nat.pow 2 1074

/-- Whether the sign bit is set; this holds of negative zero as well. -/
def isNegative (value : Double) : Bool :=
  decide (Nat.pow 2 63 ≤ value.bits.toNat)

/-- The biased exponent, from 0 to 2047. -/
def exponentField (value : Double) : Nat :=
  value.bits.toNat / Nat.pow 2 52 % Nat.pow 2 11

/-- The fraction bits as a number, below `2 ^ 52`. -/
def fractionField (value : Double) : Nat :=
  value.bits.toNat % Nat.pow 2 52

/-- Finite values are those whose exponent field is not all ones. -/
def isFinite (value : Double) : Bool :=
  value.exponentField != 2047

/-- A value that is neither finite nor an infinity, whatever its sign and payload. -/
def isNaN (value : Double) : Bool :=
  value.exponentField == 2047 && value.fractionField != 0

/-- The significand as an integer, with the leading bit of a normal value. -/
def significand (value : Double) : Nat :=
  if value.exponentField = 0 then
    value.fractionField
  else
    Nat.pow 2 52 + value.fractionField

/--
The distance to the next larger magnitude, in units.  Subnormal values and
normal values of the least exponent are both one unit apart.
-/
def spacing (value : Double) : Nat :=
  Nat.pow 2 (value.exponentField - 1)

/-- The magnitude in units. -/
def units (value : Double) : Nat :=
  value.significand * value.spacing

/-- Whether the magnitude of a finite value is a whole number. -/
def isIntegral (value : Double) : Bool :=
  value.units % unitsPerOne == 0

/-- The value as an integer, cut toward zero; both zeros give zero. -/
def toInt (value : Double) : Int :=
  let magnitude : Int := (value.units / unitsPerOne : Nat)
  if value.isNegative then -magnitude else magnitude

end Double

end CssMath
