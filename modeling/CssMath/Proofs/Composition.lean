import CssMath.Compose.Function

/-!
# Laws of composition

One law for each function.  It says when the composition succeeds and what it
makes, so that what is proved about compositions need not look into their
definitions.  The arguments are taken out of one calculation each.

A composition looks for what is missing, and so does the constructor to which
it hands its arguments.  The constructor finds nothing that the composition
has not found, so the composition is the constructor applied to the arguments
(`extremum_eq`, `exp_eq`, `pow_eq`, `round_eq`).
-/

namespace CssMath.Compose

/-! ## Operands that are there -/

@[simp]
theorem present_nil : present [] = [] := rfl

@[simp]
theorem present_cons_none (operands : List (Option Operand)) :
    present (none :: operands) = present operands := rfl

@[simp]
theorem present_cons_some
    (operand : Operand) (operands : List (Option Operand)) :
    present (some operand :: operands) = operand :: present operands := rfl

@[simp]
theorem mem_present
    {operand : Operand} {operands : List (Option Operand)} :
    operand ∈ present operands ↔ some operand ∈ operands := by
  simp [present]

/-! ## Operands that are required -/

@[simp]
theorem requiredOperand_none (operation : Operation) (argument : Argument) :
    requiredOperand operation argument none =
      .error (.missingArgument operation argument) := rfl

@[simp]
theorem requiredOperand_some
    (operation : Operation) (argument : Argument) (operand : Operand) :
    requiredOperand operation argument (some operand) =
      .ok operand.asArgument := rfl

variable
    {operation : Operation}
    {operands : List (Option Operand)}

theorem requiredOperands_of_eq_nil (nothing : present operands = []) :
    requiredOperands operation operands = .error (.emptyInput operation) := by
  rw [requiredOperands, nothing]
  rfl

theorem requiredOperands_of_eq_cons
    {first : Operand} {rest : List Operand}
    (there : present operands = first :: rest) :
    requiredOperands operation operands =
      .ok ((first :: rest).map Operand.asArgument) := by
  rw [requiredOperands, there]
  rfl

/-- What was found to be there need not be looked for again. -/
theorem extremum_eq (which : Extremum) (operands : List (Option Operand)) :
    extremum which operands =
      Expr.extremumOf which ((present operands).map Operand.asArgument) := by
  unfold extremum requiredOperands
  cases present operands <;> rfl

theorem exp_eq (operand : Option Operand) :
    exp operand = Expr.expOf (operand.map Operand.asArgument) := by
  cases operand <;> rfl

theorem pow_eq (base exponent : Option Operand) :
    pow base exponent =
      Expr.powOf (base.map Operand.asArgument)
        (exponent.map Operand.asArgument) := by
  cases base <;> cases exponent <;> rfl

theorem round_eq
    (strategy : Option String) (operand interval : Option Operand) :
    round strategy operand interval =
      Expr.roundOf strategy (operand.map Operand.asArgument)
        (interval.map Operand.asArgument) := by
  cases operand <;> rfl

/-! ## Functions -/

variable {expression : Expr}

theorem extremum_eq_ok_iff {which : Extremum} :
    extremum which operands = .ok expression ↔
      ∃ first rest,
        present operands = first :: rest ∧
        .extremum which first.asArgument (rest.map Operand.asArgument) =
          expression := by
  rw [extremum_eq]
  cases present operands with
  | nil => simp [Expr.extremumOf]
  | cons first rest =>
      simp only [List.map_cons, Expr.extremumOf, Except.ok.injEq,
        List.cons.injEq]
      constructor
      · intro equal
        exact ⟨first, rest, ⟨rfl, rfl⟩, equal⟩
      · rintro ⟨_, _, ⟨rfl, rfl⟩, equal⟩
        exact equal

/-- A clamp needs all its arguments; an open bound is there too. -/
theorem clamp_eq_ok_iff {lower preferred upper : Option Operand} :
    clamp lower preferred upper = .ok expression ↔
      ∃ lower' preferred' upper',
        bound lower = some lower' ∧
        preferred = some preferred' ∧
        bound upper = some upper' ∧
        .clamp lower' preferred'.asArgument upper' = expression := by
  unfold clamp
  cases bound lower <;> cases preferred <;> cases bound upper <;>
    simp [Expr.required, bind, Except.bind, pure, Except.pure]

theorem exp_eq_ok_iff {operand : Option Operand} :
    exp operand = .ok expression ↔
      ∃ operand',
        operand = some operand' ∧
        .exp operand'.asArgument = expression := by
  cases operand <;>
    simp [exp_eq, Expr.expOf, Expr.required, bind, Except.bind, pure,
      Except.pure]

theorem pow_eq_ok_iff {base exponent : Option Operand} :
    pow base exponent = .ok expression ↔
      ∃ base' exponent',
        base = some base' ∧
        exponent = some exponent' ∧
        .pow base'.asArgument exponent'.asArgument = expression := by
  cases base <;> cases exponent <;>
    simp [pow_eq, Expr.powOf, Expr.required, bind, Except.bind, Pure.pure,
      Except.pure]

/-- Of the arguments of a rounding only the interval may be absent. -/
theorem round_eq_ok_iff
    {strategy : Option String} {operand interval : Option Operand} :
    round strategy operand interval = .ok expression ↔
      ∃ operand',
        operand = some operand' ∧
        .round strategy operand'.asArgument
            (interval.map Operand.asArgument) =
          expression := by
  cases operand <;>
    simp [round_eq, Expr.roundOf, Expr.required, bind, Except.bind, pure,
      Except.pure]

end CssMath.Compose
