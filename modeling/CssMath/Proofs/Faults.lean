import CssMath.Proofs.Arithmetic
import CssMath.Proofs.Construction
import CssMath.Proofs.Interchange

/-!
# Faults of calls

A call fails for want of operands and for no other reason.  An operation on any
number of operands fails if none of them is there; those that are absent make
no other difference.  The others fail for the first of the arguments that they
require and that is absent (`Call.faultsForWant`).

A call proceeds in two stages.  It takes what it needs out of its operands, and
hands that over to a constructor.  Both stages look for what is missing, but a
call that has handed something over has found it already, so that no
constructor fails.
-/

namespace CssMath

/-! ## What a call wants -/

theorem Compose.present_filter_isSome (operands : List (Option Operand)) :
    present (operands.filter Option.isSome) = present operands := by
  induction operands with
  | nil => rfl
  | cons operand rest inductionHypothesis =>
      cases operand <;> simp [inductionHypothesis]

theorem Compose.present_eq_nil_iff {operands : List (Option Operand)} :
    present operands = [] ↔ operands.all Option.isNone := by
  induction operands with
  | nil => simp
  | cons operand rest inductionHypothesis =>
      cases operand <;> simp [inductionHypothesis]

namespace Call

/--
The arguments that a call requires, in the order in which they are looked for.
The interval of a rounding is not among them.
-/
def requiredArguments {α : Type} : Call α → List (Argument × α)
  | .arithmetic _ _ => []
  | .extremum _ _ => []
  | .clamp lower preferred upper =>
      [(.min, lower), (.preferred, preferred), (.max, upper)]
  | .exp operand => [(.value, operand)]
  | .pow base exponent => [(.base, base), (.exponent, exponent)]
  | .round _ operand _ => [(.value, operand)]

/-- The fault of an operation on any number of operands of which none is there. -/
def emptyFault? (operation : Operation) (operands : List (Option Operand)) :
    Option Fault :=
  if operands.all Option.isNone then some (.emptyInput operation) else none

/-- What is missing in a call, if anything is. -/
def fault? (call : Call (Option Operand)) : Option Fault :=
  match call with
  | .arithmetic operation operands => emptyFault? operation.operation operands
  | .extremum which operands => emptyFault? which.operation operands
  | call =>
      (call.requiredArguments.find? fun required => required.2.isNone).map
        fun required => .missingArgument call.operation required.1

/-- A call without the operands that it need not have and that are absent. -/
def withoutAbsent : Call (Option Operand) → Call (Option Operand)
  | .arithmetic operation operands =>
      .arithmetic operation (operands.filter Option.isSome)
  | .extremum which operands =>
      .extremum which (operands.filter Option.isSome)
  | call => call

/-- Absent operands are neither operands nor do they shift the others. -/
theorem compose_withoutAbsent (call : Call (Option Operand)) :
    call.withoutAbsent.compose = call.compose := by
  cases call with
  | arithmetic operation operands =>
      have sameChain :
          operation.chain? (operands.filter Option.isSome) =
            operation.chain? operands := by
        simp only [Arithmetic.chain?, Compose.present_filter_isSome]
      simp only [withoutAbsent, compose, Arithmetic.compose_eq, sameChain]
  | extremum which operands =>
      simp only [withoutAbsent, compose, Compose.extremum_eq,
        Compose.present_filter_isSome]
  | _ => rfl

/-! ## Two stages -/

/-- What a call hands over to a constructor; it fails for what is missing. -/
def handOver : Call (Option Operand) → Except Fault (Construction Expr)
  | .arithmetic operation operands =>
      match operation.chain? operands with
      | none => .error (.emptyInput operation.operation)
      | some chain => .ok (.calc (.ofChain operation.level chain))
  | .extremum which operands =>
      return .extremum which
        (← Compose.requiredOperands which.operation operands)
  | .clamp lower preferred upper =>
      return .clamp
        (← Expr.required .clamp .min (Compose.bound lower))
        (← Compose.requiredOperand .clamp .preferred preferred)
        (← Expr.required .clamp .max (Compose.bound upper))
  | .exp operand =>
      return .exp (← Compose.requiredOperand .exp .value operand)
  | .pow base exponent =>
      return .pow
        (← Compose.requiredOperand .pow .base base)
        (← Compose.requiredOperand .pow .exponent exponent)
  | .round strategy operand interval =>
      return .round strategy
        (← Compose.requiredOperand .round .value operand)
        (interval.map Operand.asArgument)

/-- A call is made in the two stages, one after the other. -/
theorem compose_eq_handOver (call : Call (Option Operand)) :
    call.compose = call.handOver.bind Construction.make := by
  cases call with
  | arithmetic operation operands =>
      rw [compose, Arithmetic.compose_eq, handOver]
      cases operation.chain? operands <;> rfl
  | extremum which operands =>
      rw [compose, Compose.extremum, handOver]
      cases Compose.requiredOperands which.operation operands <;> rfl
  | clamp lower preferred upper =>
      rw [compose, Compose.clamp, handOver]
      cases Compose.bound lower <;> cases preferred <;>
        cases Compose.bound upper <;> rfl
  | exp operand => cases operand <;> rfl
  | pow base exponent => cases base <;> cases exponent <;> rfl
  | round strategy operand interval => cases operand <;> rfl

/--
How the first stage ends: with the fault of the call, or with something of
which the second stage makes an expression.
-/
inductive HandsOver (call : Call (Option Operand)) : Prop where
  | fails
      {fault : Fault}
      (wants : call.fault? = some fault)
      (failed : call.handOver = .error fault)
  | succeeds
      {construction : Construction Expr} {expression : Expr}
      (complete : call.fault? = none)
      (handed : call.handOver = .ok construction)
      (made : construction.make = .ok expression)

theorem handsOver_clamp (lower preferred upper : Option Operand) :
    (Call.clamp lower preferred upper).HandsOver := by
  cases lower with
  | none => exact .fails rfl rfl
  | some lower =>
      rcases Compose.exists_bound_some lower with ⟨lower', isLower⟩
      cases preferred with
      | none => exact .fails rfl (by rw [handOver, isLower]; rfl)
      | some preferred =>
          cases upper with
          | none => exact .fails rfl (by rw [handOver, isLower]; rfl)
          | some upper =>
              rcases Compose.exists_bound_some upper with ⟨upper', isUpper⟩
              have handed :
                  (Call.clamp (some lower) (some preferred)
                      (some upper)).handOver =
                    .ok (.clamp lower' preferred.asArgument upper') := by
                rw [handOver, isLower, isUpper]
                rfl
              exact .succeeds rfl handed rfl

theorem handsOver (call : Call (Option Operand)) : call.HandsOver := by
  cases call with
  | arithmetic operation operands =>
      cases chain : operation.chain? operands with
      | none =>
          have empty :=
            Compose.present_eq_nil_iff.mp
              (Arithmetic.chain?_eq_none_iff.mp chain)
          exact .fails (if_pos empty) (by rw [handOver, chain])
      | some joined =>
          have there : ¬ operands.all Option.isNone := by
            intro empty
            have unjoined : operation.chain? operands = none :=
              Arithmetic.chain?_eq_none_iff.mpr
                (Compose.present_eq_nil_iff.mpr empty)
            simp [unjoined] at chain
          exact .succeeds (if_neg there) (by rw [handOver, chain]) rfl
  | extremum which operands =>
      cases there : Compose.present operands with
      | nil =>
          have empty := Compose.present_eq_nil_iff.mp there
          exact .fails (if_pos empty)
            (by rw [handOver, Compose.requiredOperands_of_eq_nil there]; rfl)
      | cons first rest =>
          have nonempty : ¬ operands.all Option.isNone := by
            rw [← Compose.present_eq_nil_iff, there]
            simp
          exact .succeeds (if_neg nonempty)
            (by rw [handOver, Compose.requiredOperands_of_eq_cons there]; rfl)
            rfl
  | clamp lower preferred upper => exact handsOver_clamp lower preferred upper
  | exp operand =>
      cases operand with
      | none => exact .fails rfl rfl
      | some operand => exact .succeeds rfl rfl rfl
  | pow base exponent =>
      cases base with
      | none => exact .fails rfl rfl
      | some base =>
          cases exponent with
          | none => exact .fails rfl rfl
          | some exponent => exact .succeeds rfl rfl rfl
  | round strategy operand interval =>
      cases operand with
      | none => exact .fails rfl rfl
      | some operand => exact .succeeds rfl rfl rfl

/-! ## Faults -/

/-- When and how a call fails, and that only its first stage does. -/
structure FaultsForWant (call : Call (Option Operand)) : Prop where
  neutral :
    call.withoutAbsent.compose = call.compose
  faults :
    ∀ fault, call.compose = .error fault ↔ call.fault? = some fault
  succeeds :
    (∃ expression, call.compose = .ok expression) ↔ call.fault? = none
  stages :
    call.compose = call.handOver.bind Construction.make
  constructors :
    ∀ construction, call.handOver = .ok construction →
      ∃ expression, construction.make = .ok expression

/-- A call fails just for what is missing in it. -/
theorem faultsForWant (call : Call (Option Operand)) :
    call.FaultsForWant := by
  have stages := call.compose_eq_handOver
  cases call.handsOver with
  | @fails fault wants failed =>
      rw [failed] at stages
      exact
        { neutral := call.compose_withoutAbsent
          faults := by simp [stages, wants, Except.bind]
          succeeds := by simp [stages, wants, Except.bind]
          stages := call.compose_eq_handOver
          constructors := by simp [failed] }
  | @succeeds construction expression complete handed made =>
      rw [handed, Except.bind, made] at stages
      exact
        { neutral := call.compose_withoutAbsent
          faults := by simp [stages, complete]
          succeeds := by simp [stages, complete]
          stages := call.compose_eq_handOver
          constructors := by
            intro construction' handed'
            rw [handed] at handed'
            cases handed'
            exact ⟨expression, made⟩ }

end Call

end CssMath
