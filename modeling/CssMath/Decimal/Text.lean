import CssMath.Decimal.Shortest

/-!
# Decimal texts

How a decimal fraction and a binary64 value are written.

Integers are written in full, whatever their size.  Other values are written
with the fewest digits that identify them: positionally from one
ten-thousandth up, and below that with a negative exponent of at least two
digits.  There is no positive exponent form, because a binary64 value that
needs a fraction is below `2 ^ 53`.
-/

namespace CssMath

namespace Decimal

/-- The digits of a natural number, padded with zeros on the left. -/
def paddedDigits (width number : Nat) : List Char :=
  (Nat.toDigits 10 number).leftpad width '0'

/-- Integer part, point and fraction, as in `0.0625`. -/
def positional (decimal : Decimal) : List Char :=
  let one := Nat.pow 10 decimal.places
  Nat.toDigits 10 (decimal.coefficient / one) ++
    '.' :: paddedDigits decimal.places (decimal.coefficient % one)

/--
One digit, the other digits after a point if there are any, and a negative
exponent, as in `1.5e-07`.  Meant for fractions below one.
-/
def scientific (decimal : Decimal) : List Char :=
  match Nat.toDigits 10 decimal.coefficient with
  | [] => []
  | lead :: others =>
      let fraction := if others.isEmpty then [] else '.' :: others
      lead :: fraction ++
        'e' :: '-' :: paddedDigits 2 (decimal.places - others.length)

/-- The text of a fraction: positional unless it is below one ten-thousandth. -/
def digits (decimal : Decimal) : List Char :=
  if decimal.coefficient * Nat.pow 10 4 < Nat.pow 10 decimal.places then
    decimal.scientific
  else
    decimal.positional

end Decimal

namespace Double

/-- The text of a binary64 value. -/
def text (value : Double) : String :=
  if value.isNaN then
    "nan"
  else if !value.isFinite then
    if value.isNegative then "-inf" else "inf"
  else if value.isIntegral then
    toString value.toInt
  else
    let magnitude := String.ofList value.shortest.digits
    if value.isNegative then "-" ++ magnitude else magnitude

end Double

end CssMath
