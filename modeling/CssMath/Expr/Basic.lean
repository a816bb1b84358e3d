import CssMath.Tree.Kind

/-!
# Expressions

The abstract form of a CSS math expression: what it is made of, without the
brackets, commas and blanks that its text needs.

Sums and products are chains, a first operand followed by at least one pair of
an operator and an operand.  Operators are texts and any text is admitted; an
operator of a sum is set off by a blank on either side when it is written.
-/

namespace CssMath

/--
The kinds that hold text: punctuation and operators, names, the numerals and
units of other kinds, numbers without a unit, named constants, opaque text.
-/
inductive LeafKind where
  | token
  | function
  | customProperty
  | dimensionNumber
  | dimensionUnit
  | percentageNumber
  | roundingStrategy
  | number
  | keyword
  | raw
  deriving DecidableEq, Repr

/-- The label of the leaves of a kind. -/
def LeafKind.kind : LeafKind → Kind
  | .token => .token
  | .function => .function
  | .customProperty => .customProperty
  | .dimensionNumber => .dimensionNumber
  | .dimensionUnit => .dimensionUnit
  | .percentageNumber => .percentageNumber
  | .roundingStrategy => .roundingStrategy
  | .number => .number
  | .keyword => .keyword
  | .raw => .raw

/-- Which end of an order is taken. -/
inductive Extremum where
  | min
  | max
  deriving DecidableEq, Repr

/-- The label of the branch of an extremum. -/
def Extremum.kind : Extremum → Kind
  | .min => .min
  | .max => .max

/-- The name under which an extremum is written. -/
def Extremum.name : Extremum → String
  | .min => "min"
  | .max => "max"

/--
A CSS math expression.  There is at least one value among which an extremum is
taken and at least one operator in a chain, and the interval of a rounding and
the default of a reference may be absent.
-/
inductive Expr where
  | leaf (kind : LeafKind) (text : String)
  | dimension (numeral unit : String)
  | percentage (numeral : String)
  | group (content : Expr)
  | var (name : String) (fallback : Option Expr)
  | calc (content : Expr)
  | exp (content : Expr)
  | pow (base exponent : Expr)
  | round (strategy : Option String) (content : Expr) (interval : Option Expr)
  | extremum (which : Extremum) (first : Expr) (rest : List Expr)
  | clamp (lower preferred upper : Expr)
  | product
      (first : Expr) (operator : String) (second : Expr)
      (rest : List (String × Expr))
  | sum
      (first : Expr) (operator : String) (second : Expr)
      (rest : List (String × Expr))
  deriving Repr

namespace Expr

/-- A number without a unit, by its text. -/
@[match_pattern]
abbrev number (text : String) : Expr :=
  .leaf .number text

/-- A named constant, or the open bound of a clamp. -/
@[match_pattern]
abbrev keyword (text : String) : Expr :=
  .leaf .keyword text

/-- A text that is taken as it stands. -/
@[match_pattern]
abbrev raw (text : String) : Expr :=
  .leaf .raw text

/-- What stands in the place of a bound that is left open. -/
def openBound : Expr :=
  .keyword "none"

/-- What an expression is labelled as. -/
def kind : Expr → Kind
  | .leaf kind _ => kind.kind
  | .dimension _ _ => .dimension
  | .percentage _ => .percentage
  | .group _ => .group
  | .var _ _ => .var
  | .calc _ => .calc
  | .exp _ => .exp
  | .pow _ _ => .pow
  | .round _ _ _ => .round
  | .extremum which _ _ => which.kind
  | .clamp _ _ _ => .clamp
  | .product _ _ _ _ => .product
  | .sum _ _ _ _ => .sum

end Expr

end CssMath
