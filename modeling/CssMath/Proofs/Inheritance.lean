import CssMath.Proofs.Arithmetic
import CssMath.Proofs.Chain
import CssMath.Proofs.Composition
import CssMath.Proofs.Occurrence

/-!
# What compositions inherit

A call composes an expression from what its operands become: from their terms
or factors if it is an arithmetic operation, and from their arguments if it is
a function.  A property of expressions that these have, all compositions have.

`Arithmetic.compose_inherits` leaves of an arithmetic operation only the chain
that it composes, and `Call.everywhere_compose` leaves of a function only its
arguments.
-/

namespace CssMath

/-! ## Arithmetic -/

namespace Arithmetic

theorem isOperator_operator (operation : Arithmetic) :
    IsOperator operation.level operation.operator := by
  cases operation
  · exact Or.inl rfl
  · exact Or.inr rfl
  · exact Or.inl rfl
  · exact Or.inr rfl

/-- What is carried over behind an operation belongs to its chain again. -/
theorem isOperator_carry
    (operation : Arithmetic)
    (operator : String) (holds : IsOperator operation.level operator) :
    IsOperator operation.level (operation.carry operator) := by
  cases operation with
  | subtract => exact IsSign.reverseSign holds
  | _ => exact holds

/--
An arithmetic operation composes the calculation of a chain whose members are
as those of the operands are.
-/
theorem compose_inherits
    {operation : Arithmetic}
    {operands : List (Option Operand)}
    {expression : Expr}
    {onMember : Expr → Prop}
    (members : ∀ operand, some operand ∈ operands →
      (operand.asMember.chainAt operation.level).All
        (IsOperator operation.level) onMember)
    (composed : operation.compose operands = .ok expression) :
    ∃ chain : Chain,
      chain.All (IsOperator operation.level) onMember ∧
        expression = .calc (.ofChain operation.level chain) := by
  rcases compose_eq_ok_iff.mp composed with ⟨chain, joins, rfl⟩
  refine ⟨chain, Chain.All.join ?_ operation.isOperator_operator
    operation.isOperator_carry joins, rfl⟩
  intro operandChain member
  rcases List.mem_map.mp member with ⟨operand, operandMember, rfl⟩
  exact members operand (Compose.mem_present.mp operandMember)

end Arithmetic

/-! ## Functions -/

/-- Whether a call is of a function, and not of an arithmetic operation. -/
def Call.IsFunction {α : Type*} : Call α → Prop
  | .arithmetic _ _ => False
  | _ => True

/-- Whether an expression is what the call of a function composes. -/
def Expr.IsFunction : Expr → Prop
  | .exp _ => True
  | .pow _ _ => True
  | .round _ _ _ => True
  | .extremum _ _ _ => True
  | .clamp _ _ _ => True
  | _ => False

/-- A bound is open, or it is the argument that an operand becomes. -/
theorem Compose.bound_eq_some
    {operand : Option Operand} {expression : Expr}
    (isBound : bound operand = some expression) :
    expression = .openBound ∨
      ∃ present, operand = some present ∧
        expression = present.asArgument := by
  unfold bound at isBound
  split at isBound
  · exact Or.inl (Option.some.inj isBound).symm
  · rcases Option.map_eq_some_iff.mp isBound with ⟨present, there, equal⟩
    exact Or.inr ⟨present, there, equal.symm⟩

/-- A bound is never made of an absent operand. -/
theorem Compose.exists_of_bound
    {operand : Option Operand} {expression : Expr}
    (isBound : bound operand = some expression) :
    ∃ present, operand = some present := by
  cases operand with
  | none => simp [bound] at isBound
  | some present => exact ⟨present, rfl⟩

namespace Call

variable
    {call : Call (Option Operand)}
    {expression : Expr}

theorem isFunction_compose
    (function : call.IsFunction)
    (composed : call.compose = .ok expression) :
    expression.IsFunction := by
  cases call with
  | arithmetic operation operands => exact function.elim
  | extremum which operands =>
      rcases Compose.extremum_eq_ok_iff.mp composed with
        ⟨first, rest, there, rfl⟩
      trivial
  | clamp lower preferred upper =>
      rcases Compose.clamp_eq_ok_iff.mp composed with
        ⟨lower', preferred', upper', isLower, there, isUpper, rfl⟩
      trivial
  | exp operand =>
      rcases Compose.exp_eq_ok_iff.mp composed with ⟨operand', there, rfl⟩
      trivial
  | pow base exponent =>
      rcases Compose.pow_eq_ok_iff.mp composed with
        ⟨base', exponent', thereBase, thereExponent, rfl⟩
      trivial
  | round strategy operand interval =>
      rcases Compose.round_eq_ok_iff.mp composed with ⟨operand', there, rfl⟩
      trivial

/-- The parts of a function are its open bounds and its arguments. -/
theorem mem_parts_compose
    (function : call.IsFunction)
    (composed : call.compose = .ok expression)
    {part : Expr}
    (member : part ∈ expression.parts) :
    part = .openBound ∨
      ∃ operand, some operand ∈ call.operands ∧
        part = operand.asArgument := by
  cases call with
  | arithmetic operation operands => exact function.elim
  | extremum which operands =>
      rcases Compose.extremum_eq_ok_iff.mp composed with
        ⟨first, rest, there, rfl⟩
      have argument :
          part ∈ (Compose.present operands).map Operand.asArgument := by
        rw [there]
        exact member
      rcases List.mem_map.mp argument with ⟨operand, operandMember, rfl⟩
      exact Or.inr
        ⟨operand, Compose.mem_present.mp operandMember, rfl⟩
  | clamp lower preferred upper =>
      rcases Compose.clamp_eq_ok_iff.mp composed with
        ⟨lower', preferred', upper', isLower, rfl, isUpper, rfl⟩
      simp only [Expr.parts, List.mem_cons, List.not_mem_nil,
        or_false] at member
      rcases member with rfl | rfl | rfl
      · rcases Compose.bound_eq_some isLower with isOpen | ⟨operand, rfl, equal⟩
        · exact Or.inl isOpen
        · exact Or.inr ⟨operand, by simp [operands], equal⟩
      · exact Or.inr ⟨preferred', by simp [operands], rfl⟩
      · rcases Compose.bound_eq_some isUpper with isOpen | ⟨operand, rfl, equal⟩
        · exact Or.inl isOpen
        · exact Or.inr ⟨operand, by simp [operands], equal⟩
  | exp operand =>
      rcases Compose.exp_eq_ok_iff.mp composed with ⟨operand', rfl, rfl⟩
      simp only [Expr.parts, List.mem_singleton] at member
      exact Or.inr ⟨operand', by simp [operands], member⟩
  | pow base exponent =>
      rcases Compose.pow_eq_ok_iff.mp composed with
        ⟨base', exponent', rfl, rfl, rfl⟩
      simp only [Expr.parts, List.mem_cons, List.not_mem_nil,
        or_false] at member
      rcases member with rfl | rfl
      · exact Or.inr ⟨base', by simp [operands], rfl⟩
      · exact Or.inr ⟨exponent', by simp [operands], rfl⟩
  | round strategy operand interval =>
      rcases Compose.round_eq_ok_iff.mp composed with ⟨operand', rfl, rfl⟩
      simp only [Expr.parts, List.mem_cons, Option.mem_toList,
        Option.map_eq_some_iff] at member
      rcases member with rfl | ⟨interval', rfl, rfl⟩
      · exact Or.inr ⟨operand', by simp [operands], rfl⟩
      · exact Or.inr ⟨interval', by simp [operands], rfl⟩

/-- What holds everywhere in the arguments of a function holds throughout it. -/
theorem everywhere_compose
    {property : Expr → Prop}
    (function : call.IsFunction)
    (composed : call.compose = .ok expression)
    (onFunction : property expression)
    (onOpenBound : property .openBound)
    (onArguments : ∀ operand, some operand ∈ call.operands →
      Expr.Everywhere property operand.asArgument) :
    Expr.Everywhere property expression := by
  refine (Expr.everywhere_iff expression).mpr ⟨onFunction, ?_⟩
  intro part member
  rcases mem_parts_compose function composed member with
    rfl | ⟨operand, operandMember, rfl⟩
  · refine (Expr.everywhere_iff _).mpr ⟨onOpenBound, ?_⟩
    simp [Expr.openBound, Expr.parts]
  · exact onArguments operand operandMember

end Call

end CssMath
