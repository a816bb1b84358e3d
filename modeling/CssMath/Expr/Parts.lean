import CssMath.Expr.Basic
import CssMath.Text.Blank

/-!
# Parts of expressions

Each part of an expression by its name.  A part is read off the kinds that
have it and is `none` for the others; a part that is optional in the kinds
that have it is an option within the option.

The operators of a sum are read without the blanks around them, because the
written form pads them; those of a product are read as they stand.
-/

namespace CssMath.Expr

/-- The numeral of a number with a unit or of a percentage. -/
def number? : Expr → Option String
  | .dimension numeral _ => some numeral
  | .percentage numeral => some numeral
  | _ => none

/-- The unit of a number with a unit. -/
def unit? : Expr → Option String
  | .dimension _ unit => some unit
  | _ => none

/--
What stands between the brackets of a group, of a calculation or of an `exp`,
or what a rounding rounds.
-/
def content? : Expr → Option Expr
  | .group content => some content
  | .calc content => some content
  | .exp content => some content
  | .round _ content _ => some content
  | _ => none

/-- The name in a reference. -/
def name? : Expr → Option String
  | .var name _ => some name
  | _ => none

/-- What a reference stands for in default of its name. -/
def fallback? : Expr → Option (Option Expr)
  | .var _ fallback => some fallback
  | _ => none

/-- The base of a power. -/
def base? : Expr → Option Expr
  | .pow base _ => some base
  | _ => none

/-- The exponent of a power. -/
def exponent? : Expr → Option Expr
  | .pow _ exponent => some exponent
  | _ => none

/-- The strategy of a rounding. -/
def strategy? : Expr → Option (Option String)
  | .round strategy _ _ => some strategy
  | _ => none

/-- The interval to which a rounding rounds. -/
def interval? : Expr → Option (Option Expr)
  | .round _ _ interval => some interval
  | _ => none

/-- The values among which an extremum is taken. -/
def items? : Expr → Option (List Expr)
  | .extremum _ first rest => some (first :: rest)
  | _ => none

/-- The lower bound of a clamp. -/
def lower? : Expr → Option Expr
  | .clamp lower _ _ => some lower
  | _ => none

/-- The value that a clamp holds between its bounds. -/
def preferred? : Expr → Option Expr
  | .clamp _ preferred _ => some preferred
  | _ => none

/-- The upper bound of a clamp. -/
def upper? : Expr → Option Expr
  | .clamp _ _ upper => some upper
  | _ => none

/-- The first operand of a chain. -/
def first? : Expr → Option Expr
  | .product first _ _ _ => some first
  | .sum first _ _ _ => some first
  | _ => none

/-- Pairs of an operator and an operand, with the operators as a sum shows them. -/
def trimmedTerms (rest : List (String × Expr)) : List (String × Expr) :=
  rest.map fun step => (trimBlanks step.1, step.2)

theorem trimmedTerms_cons
    (operator : String) (operand : Expr) (rest : List (String × Expr)) :
    trimmedTerms ((operator, operand) :: rest) =
      (trimBlanks operator, operand) :: trimmedTerms rest := rfl

/-- The pairs of an operator and an operand behind the first operand of a chain. -/
def operations? : Expr → Option (List (String × Expr))
  | .product _ operator second rest => some ((operator, second) :: rest)
  | .sum _ operator second rest =>
      some (trimmedTerms ((operator, second) :: rest))
  | _ => none

end CssMath.Expr
