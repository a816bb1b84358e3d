import CssMath.Proofs.Inheritance

/-!
# Interchangeable operands

A call does not see its operands but what it makes of them: an arithmetic
operation their members, and a function their arguments and bounds.  Operands
of which the same is made can stand in each other's place
(`Arithmetic.compose_congr`, `Call.compose_congr`).  What a function makes of
its operands are the parts of the result (`Call.parts_compose`), and whether
there is a result depends only on which operands are there
(`Call.compose_error_congr`).
-/

namespace CssMath

universe u

namespace Operand

/-- Operands that become the same member of a chain. -/
def SameMember (left right : Option Operand) : Prop :=
  left.map asMember = right.map asMember

/-- Operands that become the same argument, and the same bound as well. -/
structure SameArgument (left right : Option Operand) : Prop where
  argument : left.map asArgument = right.map asArgument
  bound : Compose.bound left = Compose.bound right

end Operand

theorem Compose.map_present_congr
    {α : Type u} {change : Operand → α}
    {operands operands' : List (Option Operand)}
    (same : List.Forall₂
      (fun operand operand' => operand.map change = operand'.map change)
      operands operands') :
    (present operands).map change = (present operands').map change := by
  have equal : operands'.map (Option.map change) = operands.map (Option.map change) :=
    map_eq_of_forall₂ (same.imp fun _ _ => Eq.symm)
  have reduced := congrArg (List.filterMap id) equal.symm
  simpa [present, List.map_filterMap, List.filterMap_map,
    Function.comp_def] using reduced

theorem Compose.present_eq_nil_iff_of_forall₂
    {operands operands' : List (Option Operand)}
    (same : List.Forall₂
      (fun operand operand' => operand.isSome = operand'.isSome)
      operands operands') :
    present operands = [] ↔ present operands' = [] := by
  induction same with
  | nil => rfl
  | @cons operand operand' rest rest' head tail inductionHypothesis =>
      cases operand <;> cases operand' <;> simp_all

theorem Compose.isSome_bound (operand : Option Operand) :
    (bound operand).isSome = operand.isSome := by
  unfold bound
  split
  · rfl
  · simp

/-- Arguments are dropped if their operands are absent. -/
theorem Compose.filterMap_asArgument (operands : List (Option Operand)) :
    operands.filterMap (Option.map Operand.asArgument) =
      (present operands).map Operand.asArgument := by
  simp [present, List.map_filterMap]

/-- A bound is there if its operand is. -/
theorem Compose.exists_bound_some (operand : Operand) :
    ∃ expression, bound (some operand) = some expression := by
  rw [← Option.isSome_iff_exists, isSome_bound]
  rfl

/-- An arithmetic operation sees the members that its operands become. -/
theorem Arithmetic.compose_congr
    (operation : Arithmetic)
    {operands operands' : List (Option Operand)}
    (same : List.Forall₂ Operand.SameMember operands operands') :
    operation.compose operands = operation.compose operands' := by
  have chains :=
    congrArg (List.map (Expr.chainAt operation.level))
      (Compose.map_present_congr same)
  rw [List.map_map, List.map_map, Function.comp_def] at chains
  have sameChain : operation.chain? operands = operation.chain? operands' :=
    congrArg (Chain.join operation.operator operation.carry) chains
  rw [compose_eq, compose_eq, sameChain]

namespace Call

variable
    {call call' : Call (Option Operand)}
    {expression : Expr}

/-- A function sees the arguments and the bounds that its operands become. -/
theorem compose_congr
    (function : call.IsFunction)
    (same : call.Related Operand.SameArgument call') :
    call.compose = call'.compose := by
  cases same with
  | arithmetic operation each => exact function.elim
  | extremum which each =>
      have arguments := Compose.map_present_congr
        (each.imp fun _ _ same => same.argument)
      simp only [compose, Compose.extremum_eq, arguments]
  | clamp first second third =>
      simp only [compose, Compose.clamp, Compose.requiredOperand, first.bound,
        second.argument, third.bound]
  | exp only => simp only [compose, Compose.exp_eq, only.argument]
  | pow first second =>
      simp only [compose, Compose.pow_eq, first.argument, second.argument]
  | round strategy first second =>
      simp only [compose, Compose.round_eq, first.argument, second.argument]

/-- Whether a function fails, and why, depends on which operands are there. -/
theorem compose_error_congr
    {fault : Fault}
    (function : call.IsFunction)
    (same : call.Related
      (fun operand operand' => operand.isSome = operand'.isSome) call')
    (failed : call.compose = .error fault) :
    call'.compose = .error fault := by
  cases same with
  | arithmetic operation each => exact function.elim
  | @extremum which operands operands' each =>
      have empty := Compose.present_eq_nil_iff_of_forall₂ each
      simp only [compose, Compose.extremum_eq] at failed ⊢
      cases there : Compose.present operands with
      | nil => simpa [there, empty.mp there] using failed
      | cons first rest =>
          rw [there, List.map_cons] at failed
          cases failed
  | @clamp lower preferred upper lower' preferred' upper' first second third =>
      rw [← Compose.isSome_bound, ← Compose.isSome_bound lower'] at first
      rw [← Compose.isSome_bound, ← Compose.isSome_bound upper'] at third
      simp only [compose, Compose.clamp] at failed ⊢
      cases isLower : Compose.bound lower <;>
        cases isLower' : Compose.bound lower' <;>
        cases preferred <;> cases preferred' <;>
        cases isUpper : Compose.bound upper <;>
        cases isUpper' : Compose.bound upper' <;>
        simp_all [Expr.required, bind, Except.bind, pure, Except.pure]
  | @exp operand operand' only =>
      cases operand <;> cases operand' <;>
        simp_all [compose, Compose.exp_eq, Expr.expOf, Expr.required, bind,
          Except.bind, pure, Except.pure]
  | @pow base exponent base' exponent' first second =>
      cases base <;> cases base' <;> cases exponent <;> cases exponent' <;>
        simp_all [compose, Compose.pow_eq, Expr.powOf, Expr.required, bind,
          Except.bind, pure, Except.pure]
  | @round strategy operand interval operand' interval' first second =>
      cases operand <;> cases operand' <;>
        simp_all [compose, Compose.round_eq, Expr.roundOf, Expr.required, bind,
          Except.bind, pure, Except.pure]

/-- What a function makes of the operands that are there, from left to right. -/
def arguments : Call (Option Operand) → List Expr
  | .clamp lower preferred upper =>
      (Compose.bound lower).toList ++
        (preferred.map Operand.asArgument).toList ++
        (Compose.bound upper).toList
  | call => call.operands.filterMap (Option.map Operand.asArgument)

/-- The parts of a function are its arguments. -/
theorem parts_compose
    (function : call.IsFunction)
    (composed : call.compose = .ok expression) :
    expression.parts = call.arguments := by
  cases call with
  | arithmetic operation operands => exact function.elim
  | extremum which operands =>
      rcases Compose.extremum_eq_ok_iff.mp composed with
        ⟨first, rest, there, rfl⟩
      have made := congrArg (List.map Operand.asArgument) there
      simpa [Expr.parts, arguments, Call.operands, Compose.present,
        List.map_filterMap] using made.symm
  | clamp lower preferred upper =>
      rcases Compose.clamp_eq_ok_iff.mp composed with
        ⟨lower', preferred', upper', isLower, rfl, isUpper, rfl⟩
      simp [Expr.parts, arguments, isLower, isUpper]
  | exp operand =>
      rcases Compose.exp_eq_ok_iff.mp composed with ⟨operand', rfl, rfl⟩
      rfl
  | pow base exponent =>
      rcases Compose.pow_eq_ok_iff.mp composed with
        ⟨base', exponent', rfl, rfl, rfl⟩
      rfl
  | round strategy operand interval =>
      rcases Compose.round_eq_ok_iff.mp composed with ⟨operand', rfl, rfl⟩
      cases interval <;> rfl

end Call

end CssMath
