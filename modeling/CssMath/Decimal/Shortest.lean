import CssMath.Decimal.Double

/-!
# Shortest decimal fractions

The reals that round to a given double, under rounding to nearest with ties
to even, form an interval around it.  `Double.shortest` finds the decimal
fraction in that interval which has the fewest places.  For a value that is
not an integer this is also the fraction with the fewest significant digits:
a fraction on a finer grid with fewer digits would lie on the other side of a
power of ten, and that power would already be on the coarser grid.

The search walks the grids `10 ^ -0`, `10 ^ -1`, … and tries only the two
grid points next to the value.  That is enough because the interval is convex
and contains the value.
-/

namespace CssMath

/-- The decimal fraction `coefficient / 10 ^ places`. -/
structure Decimal where
  coefficient : Nat
  places : Nat
  deriving DecidableEq, Repr

namespace Double

/--
How far below the magnitude the interval reaches, in quarters of a unit.
This is half the gap to the neighbour below, and just above a power of two
that gap is only half as wide as the gap above.
-/
def reachBelow (value : Double) : Nat :=
  if value.fractionField = 0 ∧ 1 < value.exponentField then
    value.spacing
  else
    2 * value.spacing

/-- How far above the magnitude the interval reaches, in quarters of a unit. -/
def reachAbove (value : Double) : Nat :=
  2 * value.spacing

/--
Whether a decimal fraction rounds to the magnitude of `value`.  The ends of
the interval belong to it exactly if the significand is even, because ties go
to the even neighbour.
-/
def admits (value : Double) (decimal : Decimal) : Bool :=
  let scale := Nat.pow 10 decimal.places
  let point := 4 * decimal.coefficient * unitsPerOne
  let low := (4 * value.units - value.reachBelow) * scale
  let high := (4 * value.units + value.reachAbove) * scale
  if value.significand % 2 = 0 then
    decide (low ≤ point) && decide (point ≤ high)
  else
    decide (low < point) && decide (point < high)

/--
The best fraction with the given number of places, if one rounds to the
magnitude of `value`: the nearer of the two grid points beside it, and of two
equally near ones the even one.
-/
def onGrid (value : Double) (places : Nat) : Option Decimal :=
  let scaled := value.units * Nat.pow 10 places
  let below : Decimal := ⟨scaled / unitsPerOne, places⟩
  let above : Decimal := ⟨scaled / unitsPerOne + 1, places⟩
  let excess := scaled % unitsPerOne
  match value.admits below, value.admits above with
  | true, true =>
      if 2 * excess < unitsPerOne then
        some below
      else if unitsPerOne < 2 * excess then
        some above
      else if below.coefficient % 2 = 0 then
        some below
      else
        some above
  | true, false => some below
  | false, true => some above
  | false, false => none

/-- The magnitude itself, which always has at most 1074 places. -/
def exactDecimal (value : Double) : Decimal :=
  ⟨value.units * Nat.pow 5 1074, 1074⟩

/-- The fraction with the fewest places that rounds to the magnitude of `value`. -/
def shortest (value : Double) : Decimal :=
  ((List.range 1075).findSome? value.onGrid).getD value.exactDecimal

end Double

end CssMath
