import CssMath.Compose.Arithmetic

/-!
# Composing functions

The functions other than arithmetic.  Their arguments are taken out of one
calculation around them, since the function makes its own.  Extrema take any
number of operands and drop those that are absent; the arguments of the others
are required, except for the interval of a rounding.

What is missing is noticed here, before the parts of the result are handed on
to be put together.  Putting them together looks for it once more.
-/

namespace CssMath.Compose

/-- An operand that is required to be there, as an argument. -/
def requiredOperand
    (operation : Operation) (argument : Argument) (operand : Option Operand) :
    Except Fault Expr :=
  Expr.required operation argument (operand.map Operand.asArgument)

/-- The operands that are there as arguments, of which there must be one at least. -/
def requiredOperands
    (operation : Operation) (operands : List (Option Operand)) :
    Except Fault (List Expr) :=
  match (present operands).map Operand.asArgument with
  | [] => .error (.emptyInput operation)
  | arguments => .ok arguments

/-- An extremum of the operands that are there. -/
def extremum
    (which : Extremum) (operands : List (Option Operand)) :
    Except Fault Expr := do
  let arguments ← requiredOperands which.operation operands
  Expr.extremumOf which arguments

/-- The least of the operands. -/
def min (operands : List (Option Operand)) : Except Fault Expr :=
  extremum .min operands

/-- The greatest of the operands. -/
def max (operands : List (Option Operand)) : Except Fault Expr :=
  extremum .max operands

/-- A bound of a clamp; the text `none`, and only that, leaves it open. -/
def bound : Option Operand → Option Expr
  | some (.scalar (.verbatim "none")) => some .openBound
  | operand => operand.map Operand.asArgument

/-- A value held between two bounds, either of which may be open. -/
def clamp (lower preferred upper : Option Operand) : Except Fault Expr := do
  let lower ← Expr.required .clamp .min (bound lower)
  let preferred ← requiredOperand .clamp .preferred preferred
  let upper ← Expr.required .clamp .max (bound upper)
  return .clamp lower preferred upper

/-- The exponential of an operand. -/
def exp (operand : Option Operand) : Except Fault Expr := do
  let content ← requiredOperand .exp .value operand
  Expr.expOf (some content)

/-- A power of one operand by another. -/
def pow (base exponent : Option Operand) : Except Fault Expr := do
  let base ← requiredOperand .pow .base base
  let exponent ← requiredOperand .pow .exponent exponent
  Expr.powOf (some base) (some exponent)

/-- An operand rounded by a strategy, to an interval if one is given. -/
def round
    (strategy : Option String) (operand interval : Option Operand) :
    Except Fault Expr := do
  let content ← requiredOperand .round .value operand
  Expr.roundOf strategy (some content) (interval.map Operand.asArgument)

/-- An operand rounded to the nearest multiple of the interval. -/
def roundNearest (operand interval : Option Operand) : Except Fault Expr :=
  round (some "nearest") operand interval

/-- An operand rounded up. -/
def roundUp (operand interval : Option Operand) : Except Fault Expr :=
  round (some "up") operand interval

/-- An operand rounded down. -/
def roundDown (operand interval : Option Operand) : Except Fault Expr :=
  round (some "down") operand interval

/-- An operand rounded toward zero. -/
def roundToZero (operand interval : Option Operand) : Except Fault Expr :=
  round (some "to-zero") operand interval

end CssMath.Compose
