/-!
# Node kinds

The labels of the nodes of a concrete tree.  The first seven label pieces of
punctuation and of names; the others label expressions.
-/

namespace CssMath

/-- The label of a node; a keyword is a named constant or the open bound. -/
inductive Kind where
  | token
  | function
  | customProperty
  | dimensionNumber
  | dimensionUnit
  | percentageNumber
  | roundingStrategy
  | number
  | dimension
  | percentage
  | keyword
  | raw
  | group
  | var
  | calc
  | exp
  | pow
  | round
  | min
  | max
  | clamp
  | product
  | sum
  deriving DecidableEq, Repr

/-- The name of a label, as it stands in outlines. -/
def Kind.name : Kind → String
  | .token => "token"
  | .function => "function"
  | .customProperty => "custom-property"
  | .dimensionNumber => "dimension-number"
  | .dimensionUnit => "dimension-unit"
  | .percentageNumber => "percentage-number"
  | .roundingStrategy => "rounding-strategy"
  | .number => "number"
  | .dimension => "dimension"
  | .percentage => "percentage"
  | .keyword => "keyword"
  | .raw => "raw"
  | .group => "group"
  | .var => "var"
  | .calc => "calc"
  | .exp => "exp"
  | .pow => "pow"
  | .round => "round"
  | .min => "min"
  | .max => "max"
  | .clamp => "clamp"
  | .product => "calc-product"
  | .sum => "calc-sum"

end CssMath
