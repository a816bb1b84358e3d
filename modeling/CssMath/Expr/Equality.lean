import CssMath.Expr.Basic

/-!
# Equality of expressions

Two expressions are equal if they are of one kind and have equal parts.
`Expr.same` is the test for it; `Expr.same_iff` says that the test is right,
which makes equality of expressions decidable.
-/

namespace CssMath.Expr

mutual

/-- Whether two expressions are of one kind and have the same parts. -/
def same : Expr → Expr → Bool
  | .leaf kind text, .leaf kind' text' =>
      decide (kind = kind') && decide (text = text')
  | .dimension numeral unit, .dimension numeral' unit' =>
      decide (numeral = numeral') && decide (unit = unit')
  | .percentage numeral, .percentage numeral' => decide (numeral = numeral')
  | .group content, .group content' => same content content'
  | .var name fallback, .var name' fallback' =>
      decide (name = name') && sameOption fallback fallback'
  | .calc content, .calc content' => same content content'
  | .exp content, .exp content' => same content content'
  | .pow base exponent, .pow base' exponent' =>
      same base base' && same exponent exponent'
  | .round strategy content interval, .round strategy' content' interval' =>
      decide (strategy = strategy') && same content content' &&
        sameOption interval interval'
  | .extremum which first rest, .extremum which' first' rest' =>
      decide (which = which') && same first first' && sameItems rest rest'
  | .clamp lower preferred upper, .clamp lower' preferred' upper' =>
      same lower lower' && same preferred preferred' && same upper upper'
  | .product first operator second rest,
      .product first' operator' second' rest' =>
      same first first' && decide (operator = operator') &&
        same second second' && sameSteps rest rest'
  | .sum first operator second rest, .sum first' operator' second' rest' =>
      same first first' && decide (operator = operator') &&
        same second second' && sameSteps rest rest'
  | _, _ => false

/-- Whether two optional parts are both absent or the same. -/
def sameOption : Option Expr → Option Expr → Bool
  | none, none => true
  | some part, some part' => same part part'
  | _, _ => false

/-- Whether two lists hold the same expressions in the same order. -/
def sameItems : List Expr → List Expr → Bool
  | [], [] => true
  | item :: rest, item' :: rest' => same item item' && sameItems rest rest'
  | _, _ => false

/-- Whether two chains go on with the same operators and operands. -/
def sameSteps : List (String × Expr) → List (String × Expr) → Bool
  | [], [] => true
  | (operator, operand) :: rest, (operator', operand') :: rest' =>
      decide (operator = operator') && same operand operand' &&
        sameSteps rest rest'
  | _, _ => false

end

mutual

/-- The test for equality is right. -/
theorem same_iff : (left right : Expr) → (left.same right = true ↔ left = right)
  | .leaf _ _, right => by cases right <;> simp [same]
  | .dimension _ _, right => by cases right <;> simp [same]
  | .percentage _, right => by cases right <;> simp [same]
  | .group content, right => by
      cases right <;> simp [same, same_iff content]
  | .var _ fallback, right => by
      cases right <;> simp [same, sameOption_iff fallback]
  | .calc content, right => by
      cases right <;> simp [same, same_iff content]
  | .exp content, right => by
      cases right <;> simp [same, same_iff content]
  | .pow base exponent, right => by
      cases right <;> simp [same, same_iff base, same_iff exponent]
  | .round _ content interval, right => by
      cases right <;>
        simp [same, same_iff content, sameOption_iff interval, and_assoc]
  | .extremum _ first rest, right => by
      cases right <;>
        simp [same, same_iff first, sameItems_iff rest, and_assoc]
  | .clamp lower preferred upper, right => by
      cases right <;>
        simp [same, same_iff lower, same_iff preferred, same_iff upper,
          and_assoc]
  | .product first _ second rest, right => by
      cases right <;>
        simp [same, same_iff first, same_iff second, sameSteps_iff rest,
          and_assoc]
  | .sum first _ second rest, right => by
      cases right <;>
        simp [same, same_iff first, same_iff second, sameSteps_iff rest,
          and_assoc]

theorem sameOption_iff :
    (left right : Option Expr) → (sameOption left right = true ↔ left = right)
  | none, right => by cases right <;> simp [sameOption]
  | some part, right => by
      cases right <;> simp [sameOption, same_iff part]

theorem sameItems_iff :
    (left right : List Expr) → (sameItems left right = true ↔ left = right)
  | [], right => by cases right <;> simp [sameItems]
  | item :: rest, right => by
      cases right <;> simp [sameItems, same_iff item, sameItems_iff rest]

theorem sameSteps_iff :
    (left right : List (String × Expr)) →
      (sameSteps left right = true ↔ left = right)
  | [], [] => by simp [sameSteps]
  | [], _ :: _ => by simp [sameSteps]
  | _ :: _, [] => by simp [sameSteps]
  | (_, operand) :: rest, (_, _) :: _ => by
      simp [sameSteps, same_iff operand, sameSteps_iff rest]

end

instance : DecidableEq Expr := fun left right =>
  decidable_of_iff (left.same right = true) (same_iff left right)

end CssMath.Expr
