import CssMath.Expr.Basic
import CssMath.Fault
import CssMath.Text.Scalar

/-!
# Making expressions

Expressions from their parts, where there is more to it than putting the parts
together.  A chain without operators is its only operand, since a sum or a
product always has an operator.  A function refuses an absent argument that it
requires; of two such arguments the earlier one is reported.

Nothing is rearranged here: operands become parts of the result as they are.
-/

namespace CssMath

/-- The operation that takes an extremum. -/
def Extremum.operation : Extremum → Operation
  | .min => .min
  | .max => .max

namespace Expr

/-- A number without a unit, from a scalar. -/
def numberOf (scalar : Scalar) : Expr :=
  .number scalar.text

/-- A number with a unit, from a scalar. -/
def dimensionOf (scalar : Scalar) (unit : String) : Expr :=
  .dimension scalar.text unit

/-- A percentage, from a scalar. -/
def percentageOf (scalar : Scalar) : Expr :=
  .percentage scalar.text

/-- A sum, or its first term if there are no others. -/
def sumOf (first : Expr) : List (String × Expr) → Expr
  | [] => first
  | (operator, second) :: rest => .sum first operator second rest

/-- A product, or its first factor if there are no others. -/
def productOf (first : Expr) : List (String × Expr) → Expr
  | [] => first
  | (operator, second) :: rest => .product first operator second rest

/-- An argument that is required to be there. -/
def required (operation : Operation) (argument : Argument) :
    Option Expr → Except Fault Expr
  | some expression => .ok expression
  | none => .error (.missingArgument operation argument)

/-- The exponential of a value, which is required. -/
def expOf (content : Option Expr) : Except Fault Expr :=
  return .exp (← required .exp .value content)

/-- A power; both the base and the exponent are required. -/
def powOf (base exponent : Option Expr) : Except Fault Expr := do
  let base ← required .pow .base base
  let exponent ← required .pow .exponent exponent
  return .pow base exponent

/-- A rounding of a value, which is required; the interval is not. -/
def roundOf
    (strategy : Option String) (content interval : Option Expr) :
    Except Fault Expr :=
  return .round strategy (← required .round .value content) interval

/-- An extremum of several values, of which there must be one at least. -/
def extremumOf (which : Extremum) : List Expr → Except Fault Expr
  | [] => .error (.emptyInput which.operation)
  | first :: rest => .ok (.extremum which first rest)

end Expr

end CssMath
