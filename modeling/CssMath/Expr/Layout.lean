import CssMath.Expr.Basic
import CssMath.Tree.Basic

/-!
# Layout

The concrete tree of an expression.  Layout supplies what the abstract form
leaves out: the names of functions, the brackets, the commas and the percent
sign.  An optional part and the comma that goes with it form one slot, which
is absent where the part is.
-/

namespace CssMath

/-- The operator of a sum is set off by a blank on either side. -/
def Expr.sumToken (operator : String) : Slot :=
  .token (" " ++ operator ++ " ")

/-- The strategy of a rounding with the comma behind it. -/
def Expr.strategySlot : Option String → Slot
  | none => .absent
  | some strategy =>
      .run [.subtree (.leaf .roundingStrategy strategy), .token ","]

mutual

/-- The concrete tree of an expression. -/
def Expr.tree : Expr → Tree
  | .leaf kind text => .leaf kind.kind text
  | .dimension numeral unit =>
      .branch .dimension
        [.subtree (.leaf .dimensionNumber numeral),
          .subtree (.leaf .dimensionUnit unit)]
  | .percentage numeral =>
      .branch .percentage
        [.subtree (.leaf .percentageNumber numeral), .token "%"]
  | .group content =>
      .branch .group [.token "(", .subtree content.tree, .token ")"]
  | .var name fallback =>
      .branch .var
        [.functionName "var", .token "(", .subtree (.leaf .customProperty name),
          Expr.optionalSlot fallback, .token ")"]
  | .calc content =>
      .branch .calc
        [.functionName "calc", .token "(", .subtree content.tree, .token ")"]
  | .exp content =>
      .branch .exp
        [.functionName "exp", .token "(", .subtree content.tree, .token ")"]
  | .pow base exponent =>
      .branch .pow
        [.functionName "pow", .token "(", .subtree base.tree, .token ",",
          .subtree exponent.tree, .token ")"]
  | .round strategy content interval =>
      .branch .round
        [.functionName "round", .token "(", Expr.strategySlot strategy,
          .subtree content.tree, Expr.optionalSlot interval, .token ")"]
  | .extremum which first rest =>
      .branch which.kind
        [.functionName which.name, .token "(",
          .run [.subtree first.tree, .run (Expr.itemSlots rest)], .token ")"]
  | .clamp lower preferred upper =>
      .branch .clamp
        [.functionName "clamp", .token "(", .subtree lower.tree, .token ",",
          .subtree preferred.tree, .token ",", .subtree upper.tree, .token ")"]
  | .product first operator second rest =>
      .branch .product
        [.subtree first.tree,
          .run
            (.run [.token operator, .subtree second.tree] ::
              Expr.factorSlots rest)]
  | .sum first operator second rest =>
      .branch .sum
        [.subtree first.tree,
          .run
            (.run [Expr.sumToken operator, .subtree second.tree] ::
              Expr.termSlots rest)]

/-- An optional expression with the comma in front of it. -/
def Expr.optionalSlot : Option Expr → Slot
  | none => .absent
  | some part => .run [.token ",", .subtree part.tree]

/-- Each further item of a list with the comma in front of it. -/
def Expr.itemSlots : List Expr → List Slot
  | [] => []
  | item :: rest =>
      .run [.token ",", .subtree item.tree] :: Expr.itemSlots rest

/-- Each further factor of a product with the operator in front of it. -/
def Expr.factorSlots : List (String × Expr) → List Slot
  | [] => []
  | (operator, factor) :: rest =>
      .run [.token operator, .subtree factor.tree] :: Expr.factorSlots rest

/-- Each further term of a sum with the operator in front of it. -/
def Expr.termSlots : List (String × Expr) → List Slot
  | [] => []
  | (operator, term) :: rest =>
      .run [Expr.sumToken operator, .subtree term.tree] :: Expr.termSlots rest

end

namespace Expr

theorem itemSlots_eq_map (items : List Expr) :
    itemSlots items =
      items.map fun item => .run [.token ",", .subtree item.tree] := by
  induction items with
  | nil => rfl
  | cons item rest inductionHypothesis =>
      simp [itemSlots, inductionHypothesis]

theorem factorSlots_eq_map (factors : List (String × Expr)) :
    factorSlots factors =
      factors.map fun step =>
        .run [.token step.1, .subtree step.2.tree] := by
  induction factors with
  | nil => rfl
  | cons step rest inductionHypothesis =>
      simp [factorSlots, inductionHypothesis]

theorem termSlots_eq_map (terms : List (String × Expr)) :
    termSlots terms =
      terms.map fun step =>
        .run [sumToken step.1, .subtree step.2.tree] := by
  induction terms with
  | nil => rfl
  | cons step rest inductionHypothesis =>
      simp [termSlots, inductionHypothesis]

variable (first : Expr) (operator : String) (second : Expr)

/-- All the later factors of a product are laid out alike. -/
theorem tree_product (rest : List (String × Expr)) :
    (product first operator second rest).tree =
      .branch .product
        [.subtree first.tree,
          .run (factorSlots ((operator, second) :: rest))] := rfl

/-- All the later terms of a sum are laid out alike. -/
theorem tree_sum (rest : List (String × Expr)) :
    (sum first operator second rest).tree =
      .branch .sum
        [.subtree first.tree,
          .run (termSlots ((operator, second) :: rest))] := rfl

/-- An expression and its tree have the same label. -/
@[simp]
theorem kind_tree (expression : Expr) :
    expression.tree.kind = expression.kind := by
  cases expression <;> rfl

end Expr

end CssMath
