import CssMath.Expr.Construct
import CssMath.Text.Numeral

/-!
# Operands

What an expression is composed of: scalars and finished expressions.  A text
is read as a number, a percentage or a number with a unit if a numeral stands
at its front, and is opaque otherwise.  A finished expression may be wrapped
in calculations; a chain takes the operand out of all of them, an argument of
a function is taken out of one.
-/

namespace CssMath

namespace Expr

/--
The expression that a text stands for.  What follows the numeral decides:
nothing makes a number and a percent sign a percentage; anything else is a
unit.
-/
def ofText (text : String) : Expr :=
  match Numeral.split text.toList with
  | none => .raw text
  | some (numeral, []) => .number (String.ofList numeral)
  | some (numeral, ['%']) => .percentage (String.ofList numeral)
  | some (numeral, unit) =>
      .dimension (String.ofList numeral) (String.ofList unit)

/-- An expression without the outermost calculation, if it is one. -/
def withoutOneCalc : Expr → Expr
  | .calc content => content
  | expression => expression

/-- An expression without any calculation around it. -/
def withoutCalc : Expr → Expr
  | .calc content => content.withoutCalc
  | expression => expression

end Expr

/-- The expression that a scalar stands for. -/
def Scalar.expr : Scalar → Expr
  | .verbatim text => .ofText text
  | number => .numberOf number

/-- A scalar or a finished expression. -/
inductive Operand where
  | scalar (value : Scalar)
  | expr (expression : Expr)
  deriving Repr

namespace Operand

/-- An operand as the argument of a function. -/
def asArgument : Operand → Expr
  | .scalar value => value.expr
  | .expr expression => expression.withoutOneCalc

/-- An operand as a member of a chain. -/
def asMember : Operand → Expr
  | .scalar value => value.expr
  | .expr expression => expression.withoutCalc

end Operand

end CssMath
