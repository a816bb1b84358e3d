import CssMath.Proofs.Meaning.Interpretation
import CssMath.Proofs.Program

/-!
# Preservation of meaning

The direct meaning of a program applies its calls to the values of its
operands, without composing anything: an arithmetic operation combines the
values of the operands that are there from left to right, and any other
operation is the function that the interpretation gives to it.

Composing keeps this meaning, except that a division may have a divisor that
is a product.  `Interpretation.value_compose` says so of one call, and programs
without divisions follow by induction over their calls.  The argument for a
chain is that behind a plus, a minus or a multiplication sign it is added,
subtracted or multiplied as a whole.
-/

namespace CssMath

universe u

variable
    {K : Type u}
    [Field K]

/-- The operation of the field that an arithmetic operation repeats. -/
def Arithmetic.combine : Arithmetic → K → K → K
  | .add => fun left right => left + right
  | .subtract => fun left right => left - right
  | .multiply => fun left right => left * right
  | .divide => fun left right => left / right

/--
What an operand means as a value, and what it means as a bound of a clamp,
where one text is the open bound.
-/
structure Reading (K : Type u) where
  value : K
  bound : K

namespace Interpretation

variable (interpretation : Interpretation K)

/-- The value of an operand. -/
def operand : Operand → K
  | .scalar scalar => interpretation.value scalar.expr
  | .expr expression => interpretation.value expression

/-- The value of an operand that bounds a clamp. -/
def bound : Operand → K
  | .scalar (.verbatim "none") => interpretation.value .openBound
  | operand => interpretation.operand operand

/-- What a call can see of the value of an operand. -/
def reading (operand : Operand) : Reading K :=
  ⟨interpretation.operand operand, interpretation.bound operand⟩

/-- The meaning of a call from the readings of its operands. -/
def call : Call (Option (Reading K)) → Option K
  | .arithmetic operation operands =>
      accumulate operation.combine
        (operands.filterMap (Option.map Reading.value))
  | .extremum which operands =>
      match operands.filterMap (Option.map Reading.value) with
      | [] => none
      | first :: others =>
          some (interpretation.extremum which (first :: others))
  | .clamp lower preferred upper => do
      let lower ← lower
      let preferred ← preferred
      let upper ← upper
      return interpretation.clamp lower.bound preferred.value upper.bound
  | .exp operand => return interpretation.exp (← operand).value
  | .pow base exponent => do
      let base ← base
      let exponent ← exponent
      return interpretation.pow base.value exponent.value
  | .round strategy operand interval =>
      return interpretation.round strategy (← operand).value
        (interval.map Reading.value)

/-- The meaning of a program from the inside out; nothing if it is absent. -/
def program (program : Program) : Option (Reading K) :=
  program.fold none (fun operand => some (interpretation.reading operand))
    fun call => (interpretation.call call).map fun value => ⟨value, value⟩

end Interpretation

/-- The direct meaning of a program. -/
def Program.meaning
    (interpretation : Interpretation K) (program : Program) : Option K :=
  (interpretation.program program).map Reading.value

namespace Interpretation

variable (interpretation : Interpretation K)

/-! ## Operands -/

theorem value_asMember (operand : Operand) :
    interpretation.value operand.asMember =
      interpretation.operand operand := by
  cases operand with
  | scalar scalar => rfl
  | expr expression => exact interpretation.value_withoutCalc expression

theorem value_asArgument (operand : Operand) :
    interpretation.value operand.asArgument =
      interpretation.operand operand := by
  cases operand with
  | scalar scalar => rfl
  | expr expression => exact interpretation.value_withoutOneCalc expression

theorem value_bound
    {operand : Operand} {expression : Expr}
    (isBound : Compose.bound (some operand) = some expression) :
    interpretation.value expression = interpretation.bound operand := by
  unfold Compose.bound at isBound
  split at isBound
  · rename_i isOpen
    rcases Option.some.inj isOpen with rfl
    rcases Option.some.inj isBound with rfl
    rfl
  · rename_i notOpen
    rcases Option.some.inj isBound with rfl
    rw [value_asArgument, bound]
    intro isOpen
    exact notOpen (congrArg some isOpen)

/-- The blanks around the signs of a plain sum do not matter. -/
theorem termsFrom_trimmedTerms
    {rest : List (String × Expr)}
    (signs : ∀ step ∈ rest, IsSign (trimBlanks step.1))
    (total : K) :
    interpretation.termsFrom total (Expr.trimmedTerms rest) =
      interpretation.termsFrom total rest := by
  rw [termsFrom_eq_foldl, termsFrom_eq_foldl, Expr.trimmedTerms,
    List.foldl_map]
  apply List.foldl_ext
  intro total term member
  simp only [step, (signs term member).trimBlanks]

theorem chainValue_terms
    {expression : Expr} (plain : expression.Plain) :
    interpretation.chainValue .sum expression.terms =
      interpretation.value expression := by
  cases expression with
  | sum first operator second rest =>
      have signs := (Expr.everywhere_sum_iff.mp plain).1
      rw [chainValue_sum]
      exact interpretation.termsFrom_trimmedTerms signs _
  | _ => rfl

theorem chainValue_factors (expression : Expr) :
    interpretation.chainValue .product expression.factors =
      interpretation.value expression := by
  rw [chainValue_product]
  cases expression <;> rfl

/-- The chain of a plain operand has the value of the operand. -/
theorem chainValue_operand
    (level : Kind) {operand : Operand} (plain : operand.Plain) :
    interpretation.chainValue level (operand.asMember.chainAt level) =
      interpretation.operand operand := by
  rw [← value_asMember]
  cases level with
  | sum => exact interpretation.chainValue_terms plain.asMember
  | _ => exact interpretation.chainValue_factors operand.asMember

/-! ## Arithmetic -/

variable
    {operands : List (Option Operand)}
    {expression : Expr}

/-- The values of the operands that are there. -/
theorem filterMap_reading (operands : List (Option Operand)) :
    (operands.map (Option.map interpretation.reading)).filterMap
        (Option.map Reading.value) =
      (Compose.present operands).map interpretation.operand := by
  induction operands with
  | nil => rfl
  | cons operand rest inductionHypothesis =>
      cases operand with
      | none => simpa using inductionHypothesis
      | some operand => simpa [reading] using inductionHypothesis

/-- A plain chain behind the operator of an operation is combined as a whole. -/
theorem foldl_behind
    {operation : Arithmetic} (noDivision : operation ≠ .divide)
    {chain : Chain}
    (members : chain.All (IsOperator operation.level) Expr.Plain) (total : K) :
    (chain.behind operation.operator operation.carry).foldl
        (interpretation.step operation.level) total =
      operation.combine total
        (interpretation.chainValue operation.level chain) := by
  cases operation with
  | add =>
      exact (interpretation.termsFrom_eq_foldl _ _).symm.trans
        (interpretation.termsFrom_behind_plus members total)
  | subtract =>
      exact (interpretation.termsFrom_eq_foldl _ _).symm.trans
        (interpretation.termsFrom_behind_minus members total)
  | multiply =>
      exact (interpretation.factorsFrom_eq_foldl _ _).symm.trans
        (interpretation.factorsFrom_behind_times members total)
  | divide => exact (noDivision rfl).elim

/-- Sums, differences and products mean what the operation does to the values. -/
theorem value_arithmetic
    {operation : Arithmetic}
    (noDivision : operation ≠ .divide)
    (plain : ∀ operand ∈ Compose.present operands, operand.Plain)
    (composed : operation.compose operands = .ok expression) :
    accumulate operation.combine
        ((Compose.present operands).map interpretation.operand) =
      some (interpretation.value expression) := by
  rcases Arithmetic.compose_eq_ok_iff.mp composed with ⟨chain, joins, rfl⟩
  have whole : ∀ operand ∈ Compose.present operands,
      interpretation.chainValue operation.level
          (operand.asMember.chainAt operation.level) =
        interpretation.operand operand := by
    intro operand member
    exact interpretation.chainValue_operand _ (plain operand member)
  have joined := Chain.fold_join_map _ _ whole fun operand member total => by
    have members := (plain operand member).asMember.chainAt operation.level
    rw [interpretation.foldl_behind noDivision members, whole operand member]
  rw [← Arithmetic.chain?, joins] at joined
  rw [← joined, value_calc, value_ofChain]
  rfl

/-! ## Calls -/

/-- A call of plain operands that is not a division keeps their meaning. -/
theorem value_compose
    {call : Call (Option Operand)}
    (noDivision : call.operation ≠ .divide)
    (plain : ∀ operand, some operand ∈ call.operands → operand.Plain)
    (composed : call.compose = .ok expression) :
    interpretation.call (call.map (Option.map interpretation.reading)) =
      some (interpretation.value expression) := by
  cases call with
  | arithmetic operation operands =>
      simp only [Call.map, Interpretation.call, filterMap_reading]
      refine interpretation.value_arithmetic ?_ ?_ composed
      · rintro rfl
        exact noDivision rfl
      · intro operand member
        exact plain operand (Compose.mem_present.mp member)
  | extremum which operands =>
      rcases Compose.extremum_eq_ok_iff.mp composed with
        ⟨first, rest, there, rfl⟩
      simp only [Call.map, Interpretation.call, filterMap_reading, there,
        List.map_cons]
      simp [value, values_eq_map, value_asArgument, Function.comp_def]
  | clamp lower preferred upper =>
      rcases Compose.clamp_eq_ok_iff.mp composed with
        ⟨lower', preferred', upper', isLower, rfl, isUpper, rfl⟩
      rcases Compose.exists_of_bound isLower with ⟨lower, rfl⟩
      rcases Compose.exists_of_bound isUpper with ⟨upper, rfl⟩
      simp [Call.map, Interpretation.call, reading, value, value_asArgument,
        interpretation.value_bound isLower,
        interpretation.value_bound isUpper]
  | exp operand =>
      rcases Compose.exp_eq_ok_iff.mp composed with ⟨operand', rfl, rfl⟩
      simp [Call.map, Interpretation.call, reading, value, value_asArgument]
  | pow base exponent =>
      rcases Compose.pow_eq_ok_iff.mp composed with
        ⟨base', exponent', rfl, rfl, rfl⟩
      simp [Call.map, Interpretation.call, reading, value, value_asArgument]
  | round strategy operand interval =>
      rcases Compose.round_eq_ok_iff.mp composed with ⟨operand', rfl, rfl⟩
      simp [Call.map, Interpretation.call, reading, value, valueOption_eq_map,
        value_asArgument, Function.comp_def]

/-! ## Programs -/

/--
What the runs of programs are known for: the reading of the result is that of
the program, and the result is plain again, so that it can be an operand.
-/
def Reads (program : Program) (result : Option Operand) : Prop :=
  result.map interpretation.reading = interpretation.program program ∧
    ∀ operand ∈ result, operand.Plain

theorem program_apply (call : Call Program) :
    interpretation.program (.apply call) =
      (interpretation.call (call.map interpretation.program)).map
        fun value => ⟨value, value⟩ := by
  rw [program, Program.fold_apply]
  rfl

theorem reads_apply
    {call : Call Program} {operands : Call (Option Operand)}
    (noDivision : call.operation ≠ .divide)
    (related : call.Related interpretation.Reads operands)
    (composed : operands.compose = .ok expression) :
    interpretation.Reads (.apply call) (some (.expr expression)) := by
  have plain : ∀ operand, some operand ∈ operands.operands →
      operand.Plain := by
    intro operand member
    have plainResults := forall_of_forall₂ related.operands
      fun _ _ reads => reads.2
    exact plainResults (some operand) member operand rfl
  have equal :
      operands.map (Option.map interpretation.reading) =
        call.map interpretation.program :=
    Call.Related.map_eq
      (related.imp fun _ _ _ reads => reads.1)
  have meaning :=
    interpretation.value_compose
      (by rwa [← related.operation]) plain composed
  constructor
  · rw [program_apply, ← equal, meaning]
    rfl
  · rintro operand ⟨⟩
    exact Call.plain_compose plain composed

/--
If a program without divisions runs on plain operands, then its result means
what the program means.
-/
theorem operand_run
    {program : Program} {result : Option Operand}
    (plain :
      program.Every (fun call => call.operation ≠ .divide) Operand.Plain)
    (success : program.run = .ok result) :
    result.map interpretation.operand =
      program.meaning interpretation := by
  have reads : interpretation.Reads program result := by
    refine plain.run_induction ?_ ?_ ?_ success
    · exact ⟨rfl, by simp⟩
    · intro operand plain
      exact ⟨rfl, by rintro _ ⟨⟩; exact plain⟩
    · intro call operands expression noDivision related composed
      exact interpretation.reads_apply noDivision related composed
  rw [Program.meaning, ← reads.1, Option.map_map]
  rfl

/-- Nine less an absent operand and less the sum of five and three less one. -/
def nestedDifference : Program :=
  .apply (.arithmetic .subtract
    [ .given (.scalar (.integer 9)),
      .absent,
      .apply (.arithmetic .add
        [ .given (.scalar (.verbatim "5")),
          .given (.expr (.calc
            (.sum (.number "3") " - " (.number "1") [])))])])

/-- The calculation of nine less five, less three and more one. -/
def nestedDifferenceResult : Expr :=
  .calc (.sum (.number "9") "-" (.number "5")
    [("-", .number "3"), ("+", .number "1")])

theorem operand_run_nestedDifference :
    nestedDifference.Every
        (fun call => call.operation ≠ .divide) Operand.Plain ∧
      nestedDifference.run = .ok (some (.expr nestedDifferenceResult)) ∧
      some (rational.value nestedDifferenceResult) =
        nestedDifference.meaning rational := by
  have plainTree :
      (Expr.calc (.sum (.number "3") " - " (.number "1") [])).Plain := by
    apply Expr.plain_calc
    refine Expr.everywhere_sum_iff.mpr ⟨?_, Expr.plain_leaf _ _, ?_⟩
    · intro step member
      rcases List.mem_singleton.mp member with rfl
      exact Or.inr (by rfl)
    · intro step member
      rcases List.mem_singleton.mp member with rfl
      exact Expr.plain_leaf _ _
  have plain :
      nestedDifference.Every
        (fun call => call.operation ≠ .divide) Operand.Plain := by
    refine .apply (by simp [Call.operation, Arithmetic.operation]) ?_
    simp only [Call.operands, List.forall_mem_cons]
    refine ⟨.given trivial, .absent, ?_, by simp⟩
    refine .apply (by simp [Call.operation, Arithmetic.operation]) ?_
    simp only [Call.operands, List.forall_mem_cons]
    exact ⟨.given trivial, .given plainTree, by simp⟩
  have success :
      nestedDifference.run = .ok (some (.expr nestedDifferenceResult)) := by
    rfl
  exact ⟨plain, success, rational.operand_run plain success⟩

end Interpretation

end CssMath
