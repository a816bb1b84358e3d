import CssMath.Proofs.Inheritance

/-!
# Plain expressions

An expression is plain if its sums have no operators but plus and minus, with
any blanks around them, and its products none but those of multiplication and
division, wherever they stand in it.  The chains of a plain expression have
the bare operators, and what is composed of plain operands is plain.
-/

namespace CssMath

namespace Expr

/-- A chain is joined by the operators that belong to it. -/
def PlainOperators : Expr → Prop
  | .product _ operator second rest =>
      ∀ step ∈ (operator, second) :: rest, IsScaling step.1
  | .sum _ operator second rest =>
      ∀ step ∈ (operator, second) :: rest, IsSign (trimBlanks step.1)
  | _ => True

/-- All chains that occur in an expression have the operators of their kind. -/
abbrev Plain (expression : Expr) : Prop :=
  Everywhere PlainOperators expression

theorem Plain.terms
    {expression : Expr} (plain : expression.Plain) :
    expression.terms.All IsSign Plain := by
  cases expression with
  | sum first operator second rest =>
      rcases everywhere_sum_iff.mp plain with ⟨signs, onFirst, onRest⟩
      constructor
      · exact onFirst
      · intro step member
        simp only [Expr.terms, trimmedTerms, List.mem_map] at member
        rcases member with ⟨inner, innerMember, rfl⟩
        exact ⟨signs inner innerMember, onRest inner innerMember⟩
  | _ => exact ⟨plain, by simp [Expr.terms]⟩

theorem Plain.factors
    {expression : Expr} (plain : expression.Plain) :
    expression.factors.All IsScaling Plain := by
  cases expression with
  | product first operator second rest =>
      rcases everywhere_product_iff.mp plain with ⟨scalings, onFirst, onRest⟩
      constructor
      · exact onFirst
      · intro step member
        exact ⟨scalings step member, onRest step member⟩
  | sum first operator second rest =>
      have grouped : (Expr.group (.sum first operator second rest)).Plain :=
        (everywhere_iff _).mpr ⟨trivial, by simpa [parts] using plain⟩
      exact ⟨grouped, by simp [Expr.factors]⟩
  | _ => exact ⟨plain, by simp [Expr.factors]⟩

theorem Plain.chainAt
    (level : Kind) {expression : Expr} (plain : expression.Plain) :
    (expression.chainAt level).All (IsOperator level) Plain := by
  cases level with
  | sum => exact plain.terms
  | _ => exact plain.factors

theorem plain_sumOf
    {chain : Chain} (members : chain.All IsSign Plain) :
    (Expr.sumOf chain.first chain.rest).Plain := by
  refine everywhere_sumOf ?_ members.first fun step member =>
    (members.rest step member).2
  intro operator second others equal step member
  have sign := members.operators step (equal ▸ member)
  rw [sign.trimBlanks]
  exact sign

theorem plain_productOf
    {chain : Chain} (members : chain.All IsScaling Plain) :
    (Expr.productOf chain.first chain.rest).Plain := by
  refine everywhere_productOf ?_ members.first fun step member =>
    (members.rest step member).2
  intro operator second others equal step member
  exact members.operators step (equal ▸ member)

theorem plain_ofChain
    {level : Kind} {chain : Chain}
    (members : chain.All (IsOperator level) Plain) :
    (ofChain level chain).Plain := by
  cases level with
  | sum => exact plain_sumOf members
  | _ => exact plain_productOf members

theorem plain_leaf (kind : LeafKind) (text : String) :
    (Expr.leaf kind text).Plain :=
  (everywhere_iff _).mpr ⟨trivial, by simp [parts]⟩

theorem plain_calc {content : Expr} (plain : content.Plain) :
    (Expr.calc content).Plain :=
  (everywhere_iff _).mpr ⟨trivial, by simpa [parts] using plain⟩

end Expr

/-! ## Plain operands -/

/-- A scalar, or a plain expression. -/
def Operand.Plain : Operand → Prop
  | .scalar _ => True
  | .expr expression => expression.Plain

theorem Scalar.plain_expr (scalar : Scalar) : scalar.expr.Plain :=
  scalar.everywhere_expr
    (fun _ _ => trivial) (fun _ => trivial) (fun _ _ => trivial)

namespace Operand.Plain

theorem asMember
    {operand : Operand} (plain : operand.Plain) :
    operand.asMember.Plain := by
  cases operand with
  | scalar scalar => exact scalar.plain_expr
  | expr expression => exact Expr.Everywhere.withoutCalc expression plain

theorem asArgument
    {operand : Operand} (plain : operand.Plain) :
    operand.asArgument.Plain := by
  cases operand with
  | scalar scalar => exact scalar.plain_expr
  | expr expression => exact Expr.Everywhere.withoutOneCalc expression plain

end Operand.Plain

/-! ## Plain compositions -/

/-- A call of plain operands composes a plain expression. -/
theorem Call.plain_compose
    {call : Call (Option Operand)} {expression : Expr}
    (plain : ∀ operand, some operand ∈ call.operands → operand.Plain)
    (composed : call.compose = .ok expression) :
    expression.Plain := by
  by_cases function : call.IsFunction
  · refine Call.everywhere_compose function composed ?_ trivial ?_
    · have isFunction := Call.isFunction_compose function composed
      cases expression <;> trivial
    · intro operand member
      exact (plain operand member).asArgument
  · cases call with
    | arithmetic operation operands =>
        have composes := Arithmetic.compose_inherits
          (fun operand member =>
            (plain operand member).asMember.chainAt operation.level)
          composed
        rcases composes with ⟨chain, members, rfl⟩
        exact Expr.plain_calc (Expr.plain_ofChain members)
    | _ => exact (function trivial).elim

end CssMath
