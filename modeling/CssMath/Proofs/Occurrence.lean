import CssMath.Compose.Operand

/-!
# Occurrences

The parts of an expression are the expressions directly below it.  What occurs
in an expression is the expression itself and everything that occurs in one of
its parts.

A property holds everywhere in an expression if it holds of all that occurs in
it.  `everywhere_iff` reduces this to the parts, so that a property of whole
trees is proved and used one layer at a time.
-/

namespace CssMath

namespace Expr

/-- The expressions directly below an expression, from left to right. -/
def parts : Expr → List Expr
  | .leaf _ _ => []
  | .dimension _ _ => []
  | .percentage _ => []
  | .group content => [content]
  | .var _ fallback => fallback.toList
  | .calc content => [content]
  | .exp content => [content]
  | .pow base exponent => [base, exponent]
  | .round _ content interval => content :: interval.toList
  | .extremum _ first rest => first :: rest
  | .clamp lower preferred upper => [lower, preferred, upper]
  | .product first _ second rest => first :: second :: rest.map Prod.snd
  | .sum first _ second rest => first :: second :: rest.map Prod.snd

theorem sizeOf_part_lt
    {part whole : Expr} (member : part ∈ whole.parts) :
    sizeOf part < sizeOf whole := by
  have ofChain
      (first second : Expr) (rest : List (String × Expr))
      (member : part ∈ first :: second :: rest.map Prod.snd) :
      sizeOf part < 1 + sizeOf first + sizeOf second + sizeOf rest := by
    rw [List.mem_cons, List.mem_cons, List.mem_map] at member
    rcases member with rfl | rfl | ⟨⟨operator, operand⟩, step, rfl⟩
    · omega
    · omega
    · have bound := List.sizeOf_lt_of_mem step
      simp only [Prod.mk.sizeOf_spec] at bound
      simp only
      omega
  cases whole with
  | leaf kind text => simp [parts] at member
  | dimension numeral unit => simp [parts] at member
  | percentage numeral => simp [parts] at member
  | var name fallback =>
      cases fallback with
      | none => simp [parts] at member
      | some fallback =>
          rcases List.mem_singleton.mp member with rfl
          simp
          omega
  | round strategy content interval =>
      cases interval <;> simp [parts] at member <;>
        rcases member with rfl | rfl <;> simp <;> omega
  | extremum which first rest =>
      rcases List.mem_cons.mp member with rfl | inRest
      · simp
        omega
      · have bound := List.sizeOf_lt_of_mem inRest
        simp
        omega
  | product first operator second rest =>
      have bound := ofChain first second rest member
      simp
      omega
  | sum first operator second rest =>
      have bound := ofChain first second rest member
      simp
      omega
  | _ =>
      simp [parts] at member
      rcases member with rfl | rfl | rfl <;> simp <;> omega

/-- What holds of an expression if it holds of its parts holds of all. -/
theorem induction_parts
    {motive : Expr → Prop}
    (step : ∀ whole, (∀ part ∈ whole.parts, motive part) → motive whole)
    (expression : Expr) :
    motive expression :=
  step expression fun part _ => induction_parts step part
  termination_by sizeOf expression
  decreasing_by exact sizeOf_part_lt ‹_›

/-- An expression occurs in itself and wherever it occurs in a part. -/
inductive Occurs : Expr → Expr → Prop where
  | here (expression : Expr) :
      Occurs expression expression
  | within {inner part whole : Expr}
      (member : part ∈ whole.parts)
      (inside : Occurs inner part) :
      Occurs inner whole

/-- A property of all that occurs in an expression. -/
def Everywhere (property : Expr → Prop) (expression : Expr) : Prop :=
  ∀ inner, Occurs inner expression → property inner

variable {property : Expr → Prop}

/-- A property holds everywhere if it holds here and everywhere in the parts. -/
theorem everywhere_iff (expression : Expr) :
    Everywhere property expression ↔
      property expression ∧
        ∀ part ∈ expression.parts, Everywhere property part := by
  constructor
  · intro everywhere
    constructor
    · exact everywhere expression (.here expression)
    · intro part member inner inside
      exact everywhere inner (.within member inside)
  · rintro ⟨here, parts⟩ inner occurs
    cases occurs with
    | here => exact here
    | within member inside => exact parts _ member inner inside

namespace Everywhere

theorem here
    {expression : Expr}
    (everywhere : Everywhere property expression) :
    property expression :=
  everywhere expression (.here expression)

theorem part
    {part whole : Expr}
    (everywhere : Everywhere property whole)
    (member : part ∈ whole.parts) :
    Everywhere property part :=
  ((everywhere_iff whole).mp everywhere).2 part member

/-- What holds everywhere still does when calculations around it are removed. -/
theorem withoutCalc
    (expression : Expr)
    (everywhere : Everywhere property expression) :
    Everywhere property expression.withoutCalc := by
  fun_induction Expr.withoutCalc expression with
  | case1 content inductionHypothesis =>
      exact inductionHypothesis (everywhere.part (by simp [parts]))
  | case2 expression noCalc => exact everywhere

theorem withoutOneCalc
    (expression : Expr)
    (everywhere : Everywhere property expression) :
    Everywhere property expression.withoutOneCalc := by
  fun_cases Expr.withoutOneCalc expression with
  | case1 content => exact everywhere.part (by simp [parts])
  | case2 expression noCalc => exact everywhere

end Everywhere

/-! ## Chains -/

variable
    {first second : Expr}
    {operator : String}
    {rest : List (String × Expr)}

theorem parts_sum :
    (sum first operator second rest).parts =
      first :: ((operator, second) :: rest).map Prod.snd := rfl

theorem parts_product :
    (product first operator second rest).parts =
      first :: ((operator, second) :: rest).map Prod.snd := rfl

theorem everywhere_sum_iff :
    Everywhere property (.sum first operator second rest) ↔
      property (.sum first operator second rest) ∧
        Everywhere property first ∧
          ∀ step ∈ (operator, second) :: rest,
            Everywhere property step.2 := by
  rw [everywhere_iff, parts_sum, List.forall_mem_cons, List.forall_mem_map]

theorem everywhere_product_iff :
    Everywhere property (.product first operator second rest) ↔
      property (.product first operator second rest) ∧
        Everywhere property first ∧
          ∀ step ∈ (operator, second) :: rest,
            Everywhere property step.2 := by
  rw [everywhere_iff, parts_product, List.forall_mem_cons, List.forall_mem_map]

/-- A sum need only have the property itself if there is more than one term. -/
theorem everywhere_sumOf
    (whole : ∀ operator second others, rest = (operator, second) :: others →
      property (.sum first operator second others))
    (onFirst : Everywhere property first)
    (onRest : ∀ step ∈ rest, Everywhere property step.2) :
    Everywhere property (.sumOf first rest) := by
  cases rest with
  | nil => exact onFirst
  | cons step rest =>
      exact everywhere_sum_iff.mpr ⟨whole _ _ _ rfl, onFirst, onRest⟩

theorem everywhere_productOf
    (whole : ∀ operator second others, rest = (operator, second) :: others →
      property (.product first operator second others))
    (onFirst : Everywhere property first)
    (onRest : ∀ step ∈ rest, Everywhere property step.2) :
    Everywhere property (.productOf first rest) := by
  cases rest with
  | nil => exact onFirst
  | cons step rest =>
      exact everywhere_product_iff.mpr ⟨whole _ _ _ rfl, onFirst, onRest⟩

end Expr

/-! ## Scalars -/

/-- A scalar stands for a value without parts. -/
theorem Scalar.expr_eq (scalar : Scalar) :
    (∃ text, scalar.expr = .number text) ∨
      (∃ numeral, scalar.expr = .percentage numeral) ∨
      (∃ numeral unit, scalar.expr = .dimension numeral unit) ∨
      ∃ text, scalar.expr = .raw text := by
  cases scalar with
  | verbatim text =>
      simp only [Scalar.expr, Expr.ofText]
      split <;> simp
  | _ => exact Or.inl ⟨_, rfl⟩

/-- What holds of every value without parts holds everywhere in a scalar. -/
theorem Scalar.everywhere_expr
    {property : Expr → Prop}
    (scalar : Scalar)
    (onLeaf : ∀ kind text, property (.leaf kind text))
    (onPercentage : ∀ numeral, property (.percentage numeral))
    (onDimension : ∀ numeral unit, property (.dimension numeral unit)) :
    Expr.Everywhere property scalar.expr := by
  rw [Expr.everywhere_iff]
  rcases scalar.expr_eq with
    ⟨text, equal⟩ | ⟨numeral, equal⟩ | ⟨numeral, unit, equal⟩ | ⟨text, equal⟩
  · rw [equal]
    exact ⟨onLeaf _ text, by simp [Expr.parts]⟩
  · rw [equal]
    exact ⟨onPercentage numeral, by simp [Expr.parts]⟩
  · rw [equal]
    exact ⟨onDimension numeral unit, by simp [Expr.parts]⟩
  · rw [equal]
    exact ⟨onLeaf _ text, by simp [Expr.parts]⟩

end CssMath
