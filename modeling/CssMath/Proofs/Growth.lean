import CssMath.Proofs.Interchange
import CssMath.Proofs.Size
import Mathlib.Data.Option.Basic

/-!
# Growth

A composed expression is little larger than its operands together: each of them
comes with a few more nodes, and what is put around them adds a few nodes and
at most three levels (`Call.grownFrom_compose`).

Repeated composition need not deepen an expression at all.  A running result
into which scalars are folded one by one, all with sums or all with products,
stays a calculation of one flat chain.  `Operand.IsFlat` is the invariant: one
step keeps it (`Compose.exists_nextResult`), and so does a run of any length
(`Compose.exists_runningResult`).
-/

namespace CssMath

/-! ## Operands and arguments -/

namespace Operand

/-- An operand as it is given, before anything is taken out of it. -/
def whole : Operand → Expr
  | .scalar value => value.expr
  | .expr expression => expression

theorem noLarger_asMember (operand : Operand) :
    operand.asMember.NoLarger operand.whole := by
  cases operand with
  | scalar value => exact .refl value.expr
  | expr expression => exact expression.noLarger_withoutCalc

theorem noLarger_asArgument (operand : Operand) :
    operand.asArgument.NoLarger operand.whole := by
  cases operand with
  | scalar value => exact .refl value.expr
  | expr expression => exact expression.noLarger_withoutOneCalc

end Operand

/-- A bound is made of an operand that is there, and is no larger. -/
theorem Compose.noLarger_bound (operand : Option Operand) :
    List.Forall₂ (fun operand argument => argument.NoLarger operand.whole)
      operand.toList (bound operand).toList := by
  cases operand with
  | none => exact .nil
  | some operand =>
      rcases exists_bound_some operand with ⟨argument, made⟩
      rw [made]
      refine .cons ?_ .nil
      rcases bound_eq_some made with rfl | ⟨_, ⟨⟩, rfl⟩
      · exact Expr.noLarger_leaf .keyword "none" operand.whole
      · exact operand.noLarger_asArgument

/-- The arguments of a function are no larger than the operands they are made of. -/
theorem Call.noLarger_arguments (call : Call (Option Operand)) :
    List.Forall₂ (fun operand argument => argument.NoLarger operand.whole)
      (Compose.present call.operands) call.arguments := by
  have ofOperands (operands : List (Option Operand)) :
      List.Forall₂ (fun operand argument => argument.NoLarger operand.whole)
        (Compose.present operands)
        (operands.filterMap (Option.map Operand.asArgument)) := by
    rw [Compose.filterMap_asArgument, List.forall₂_map_right_iff,
      List.forall₂_same]
    exact fun operand _ => operand.noLarger_asArgument
  cases call with
  | clamp lower preferred upper =>
      have there :
          Compose.present [lower, preferred, upper] =
            lower.toList ++ preferred.toList ++ upper.toList := by
        cases lower <;> cases preferred <;> cases upper <;> rfl
      rw [arguments, operands, there]
      refine List.rel_append (List.rel_append ?_ ?_) ?_
      · exact Compose.noLarger_bound lower
      · cases preferred with
        | none => exact .nil
        | some operand => exact .cons operand.noLarger_asArgument .nil
      · exact Compose.noLarger_bound upper
  | _ => exact ofOperands _

/-! ## Functions -/

/-- Around its parts a function has a few nodes, and one more for each of them. -/
theorem Expr.IsFunction.nodeCount_le
    {expression : Expr} (function : expression.IsFunction) :
    expression.nodeCount ≤ 5 + chainCount expression.parts := by
  rw [nodeCount_eq, chainCount_eq]
  have few : expression.punctuation ≤ 4 + expression.parts.length := by
    cases expression with
    | exp content => simp [punctuation, parts]
    | pow base exponent => simp [punctuation, parts]
    | round strategy content interval =>
        cases strategy <;> simp [punctuation, parts] <;> omega
    | extremum which first rest => simp [punctuation, parts]; omega
    | clamp lower preferred upper => simp [punctuation, parts]
    | _ => exact function.elim
  omega

namespace Call

variable
    {call : Call (Option Operand)}
    {expression : Expr}

theorem nodeCount_compose_le
    (function : call.IsFunction)
    (composed : call.compose = .ok expression) :
    expression.nodeCount ≤
      5 + ((Compose.present call.operands).map fun operand =>
        1 + operand.whole.nodeCount).sum := by
  have noLarger :
      Expr.chainCount call.arguments ≤
        ((Compose.present call.operands).map fun operand =>
          1 + operand.whole.nodeCount).sum := by
    apply List.Forall₂.sum_le_sum
    rw [List.forall₂_map_left_iff, List.forall₂_map_right_iff]
    exact call.noLarger_arguments.flip.imp fun argument operand made =>
      Nat.add_le_add_left made.nodeCount 1
  have around := (isFunction_compose function composed).nodeCount_le
  rw [parts_compose function composed] at around
  omega

theorem depth_compose_le
    {bound : Nat}
    (function : call.IsFunction)
    (composed : call.compose = .ok expression)
    (positive : 1 ≤ bound)
    (bounded : ∀ operand ∈ Compose.present call.operands,
      operand.whole.depth ≤ bound) :
    expression.depth ≤ bound + 1 := by
  rw [Expr.depth_le_succ_iff positive, parts_compose function composed]
  have shallow :
      List.Forall₂ (fun _ argument => argument.depth ≤ bound)
        (Compose.present call.operands) call.arguments :=
    forall₂_imp_of_mem call.noLarger_arguments
      fun operand there argument noLarger =>
        noLarger.depth.trans (bounded operand there)
  exact forall_of_forall₂ shallow fun _ _ small => small

end Call

/-! ## Sums and products -/

namespace Arithmetic

variable
    {operation : Arithmetic}
    {operands : List (Option Operand)}
    {chain : Chain}
    {expression : Expr}

/-- The members of a joined chain are those of the operands that are there. -/
theorem members_chain?
    (joins : operation.chain? operands = some chain) :
    chain.members =
      (Compose.present operands).flatMap fun operand =>
        (operand.asMember.chainAt operation.level).members := by
  rw [Chain.members_join joins, List.flatMap_map]

theorem nodeCount_compose_le
    (composed : operation.compose operands = .ok expression) :
    expression.nodeCount ≤
      4 + ((Compose.present operands).map fun operand =>
        operand.whole.nodeCount + 4).sum := by
  rcases compose_eq_ok_iff.mp composed with ⟨chain, joins, rfl⟩
  calc
    (Expr.calc (.ofChain operation.level chain)).nodeCount
        = 4 + (Expr.ofChain operation.level chain).nodeCount := by
          rw [Expr.nodeCount_eq]
          simp [Expr.punctuation, Expr.parts]
    _ ≤ 4 + Expr.chainCount chain.members :=
          Nat.add_le_add_left (Expr.nodeCount_ofChain_le _ chain) 4
    _ = 4 + ((Compose.present operands).map fun operand =>
          Expr.chainCount
            (operand.asMember.chainAt operation.level).members).sum := by
          rw [members_chain? joins, Expr.chainCount_flatMap]
    _ ≤ 4 + ((Compose.present operands).map fun operand =>
          operand.whole.nodeCount + 4).sum := by
          refine Nat.add_le_add_left (List.sum_le_sum fun operand _ => ?_) 4
          have taken := operand.asMember.chainCount_chainAt_le operation.level
          have given := operand.noLarger_asMember.nodeCount
          omega

/-- A sum may be put in brackets, then in a product, and then in a calculation. -/
theorem depth_compose_le
    {bound : Nat}
    (composed : operation.compose operands = .ok expression)
    (bounded : ∀ operand ∈ Compose.present operands,
      operand.whole.depth ≤ bound) :
    expression.depth ≤ bound + 3 := by
  rcases compose_eq_ok_iff.mp composed with ⟨chain, joins, rfl⟩
  have members : ∀ member ∈ chain.members, member.depth ≤ bound + 1 := by
    intro member inChain
    rw [members_chain? joins, List.mem_flatMap] at inChain
    rcases inChain with ⟨operand, there, inOperand⟩
    have given := operand.noLarger_asMember.depth.trans (bounded operand there)
    exact Expr.depth_members_chainAt_le operation.level given member inOperand
  have whole := Expr.depth_ofChain_le operation.level (by omega) members
  rw [Expr.depth_le_succ_iff (by omega)]
  simpa [Expr.parts] using whole

end Arithmetic

/-! ## Calls -/

/--
An expression that is grown from some others.  Besides their nodes it has four
for each of them and seven in all, at most, and it is at most three levels
deeper than the deepest.
-/
structure Expr.GrownFrom (expression : Expr) (origins : List Expr) : Prop where
  nodeCount :
    expression.nodeCount ≤
      7 + (origins.map fun origin => origin.nodeCount + 4).sum
  depth : expression.depth ≤ 3 + greatest (origins.map Expr.depth)

theorem Operand.depth_whole_le_greatest
    {operand : Operand} {operands : List Operand} (there : operand ∈ operands) :
    operand.whole.depth ≤
      greatest ((operands.map whole).map Expr.depth) :=
  (greatest_le_iff _ _).mp le_rfl _
    (List.mem_map_of_mem (List.mem_map_of_mem there))

theorem Arithmetic.grownFrom_compose
    {operation : Arithmetic}
    {operands : List (Option Operand)}
    {expression : Expr}
    (composed : operation.compose operands = .ok expression) :
    expression.GrownFrom ((Compose.present operands).map Operand.whole) where
  nodeCount := by
    have counted := nodeCount_compose_le composed
    rw [List.map_map, Function.comp_def]
    omega
  depth := by
    have measured := depth_compose_le composed fun operand =>
      Operand.depth_whole_le_greatest
    omega

namespace Call

variable
    {call : Call (Option Operand)}
    {expression : Expr}

theorem grownFrom_function
    (function : call.IsFunction)
    (composed : call.compose = .ok expression) :
    expression.GrownFrom
      ((Compose.present call.operands).map Operand.whole) where
  nodeCount := by
    have counted := nodeCount_compose_le function composed
    have fewer :
        ((Compose.present call.operands).map fun operand =>
          1 + operand.whole.nodeCount).sum ≤
        ((Compose.present call.operands).map fun operand =>
          operand.whole.nodeCount + 4).sum :=
      List.sum_le_sum fun operand _ => by omega
    rw [List.map_map, Function.comp_def]
    omega
  depth := by
    have measured :=
      depth_compose_le function composed (le_max_left 1 _)
        fun operand there =>
          (Operand.depth_whole_le_greatest there).trans (le_max_right 1 _)
    omega

/-- What a call composes is grown from the operands that are there. -/
theorem grownFrom_compose
    (composed : call.compose = .ok expression) :
    expression.GrownFrom
      ((Compose.present call.operands).map Operand.whole) := by
  cases call with
  | arithmetic operation operands => exact Arithmetic.grownFrom_compose composed
  | _ => exact grownFrom_function trivial composed

end Call

/-- An argument is made of its operand without growing at all. -/
theorem Operand.grownFrom_asArgument (operand : Operand) :
    operand.asArgument.GrownFrom [operand.whole] where
  nodeCount := by
    have noLarger := operand.noLarger_asArgument.nodeCount
    simp only [List.map_singleton, List.sum_singleton]
    omega
  depth := by
    have noLarger := operand.noLarger_asArgument.depth
    have deepest :=
      depth_whole_le_greatest (List.mem_singleton_self operand)
    exact noLarger.trans (deepest.trans (Nat.le_add_left _ 3))

/-! ## Accumulation -/

/-- A value that is at most two deep and is no calculation, sum or product. -/
structure Expr.IsShort (expression : Expr) : Prop where
  depth : expression.depth ≤ 2
  noCalc : expression.kind ≠ .calc
  noSum : expression.kind ≠ .sum
  noProduct : expression.kind ≠ .product

theorem Scalar.isShort (scalar : Scalar) : scalar.expr.IsShort where
  depth := by
    rw [Expr.depth_le_succ_iff le_rfl]
    rcases scalar.expr_eq with
      ⟨text, equal⟩ | ⟨numeral, equal⟩ | ⟨numeral, unit, equal⟩ |
      ⟨text, equal⟩ <;>
    simp [equal, Expr.parts]
  noCalc := scalar.kind_expr_ne.1
  noSum := scalar.kind_expr_ne.2.1
  noProduct := scalar.kind_expr_ne.2.2

/-- A short value is a chain of one member, which is itself. -/
theorem Expr.IsShort.members_chainAt
    {expression : Expr} (short : expression.IsShort) (level : Kind) :
    (expression.chainAt level).members = [expression] := by
  by_cases isSum : level = .sum
  · subst isSum
    rw [chainAt, terms_of_kind_ne short.noSum]
    rfl
  · rw [chainAt_of_ne isSum,
      factors_of_kind_ne short.noSum short.noProduct]
    rfl

/-- An operand of which a sum or a product takes short values only. -/
structure Operand.IsFlat (level : Kind) (operand : Operand) : Prop where
  members :
    ∀ member ∈ (operand.asMember.chainAt level).members, member.IsShort
  depth : operand.whole.depth ≤ 4

theorem Scalar.isFlat (scalar : Scalar) (level : Kind) :
    Operand.IsFlat level (.scalar scalar) where
  members := by
    rw [Operand.asMember, scalar.isShort.members_chainAt level,
      List.forall_mem_singleton]
    exact scalar.isShort
  depth := scalar.isShort.depth.trans (by omega)

/-- The calculation of a chain of short values is such a chain again. -/
theorem Chain.isFlat_calc
    {chain : Chain}
    (level : Kind)
    (short : ∀ member ∈ chain.members, member.IsShort) :
    Operand.IsFlat level (.expr (.calc (.ofChain level chain))) where
  members := by
    rw [Operand.asMember, Expr.withoutCalc]
    rcases Expr.ofChain_cases level chain with
      ⟨only, members⟩ | ⟨_, _, members⟩
    · have first := short chain.first (by simp [members])
      rw [only, Expr.withoutCalc_of_kind_ne first.noCalc,
        first.members_chainAt, List.forall_mem_singleton]
      exact first
    · rw [members]
      exact short
  depth := by
    rw [Operand.whole, Expr.depth_le_succ_iff (by omega)]
    have inside :=
      Expr.depth_ofChain_le level (by omega) fun member inChain =>
        (short member inChain).depth
    simpa [Expr.parts] using inside

namespace Compose

/-- Fold a scalar into a running result; nothing may have run before. -/
def nextResult (running : Option Operand) (step : Arithmetic × Scalar) :
    Except Fault (Option Operand) := do
  let result ← step.1.compose [running, some (.scalar step.2)]
  return some (.expr result)

/-- Fold scalars into a running result one after the other. -/
def runningResult
    (running : Option Operand) (steps : List (Arithmetic × Scalar)) :
    Except Fault (Option Operand) :=
  steps.foldlM nextResult running

/-- A step succeeds and leaves the running result flat. -/
theorem exists_nextResult
    {running : Option Operand} {step : Arithmetic × Scalar}
    (flat : ∀ operand ∈ running, operand.IsFlat step.1.level) :
    ∃ result, nextResult running step = .ok (some result) ∧
      result.IsFlat step.1.level := by
  rcases step with ⟨operation, scalar⟩
  have joinable :
      operation.chain? [running, some (.scalar scalar)] ≠ none := by
    rw [ne_eq, Arithmetic.chain?_eq_none_iff]
    cases running <;> simp
  rcases Option.ne_none_iff_exists'.mp joinable with ⟨chain, joins⟩
  refine ⟨.expr (.calc (.ofChain operation.level chain)), ?_, ?_⟩
  · have composed := Arithmetic.compose_eq_ok_iff.mpr ⟨chain, joins, rfl⟩
    rw [nextResult, composed]
    rfl
  · apply chain.isFlat_calc
    intro member inChain
    rw [Arithmetic.members_chain? joins, List.mem_flatMap] at inChain
    rcases inChain with ⟨operand, there, inOperand⟩
    rw [mem_present, List.mem_pair] at there
    rcases there with isRunning | isScalar
    · exact (flat operand isRunning.symm).members member inOperand
    · cases isScalar
      exact (scalar.isFlat operation.level).members member inOperand

/-- Any number of steps succeed and leave the running result flat. -/
theorem exists_runningResult
    {level : Kind} {steps : List (Arithmetic × Scalar)}
    (sameLevel : ∀ step ∈ steps, step.1.level = level)
    {running : Option Operand}
    (flat : ∀ operand ∈ running, operand.IsFlat level)
    (nonempty : running ≠ none ∨ steps ≠ []) :
    ∃ result, runningResult running steps = .ok (some result) ∧
      result.IsFlat level := by
  induction steps generalizing running with
  | nil =>
      rcases nonempty with there | steps
      · rcases Option.ne_none_iff_exists'.mp there with ⟨operand, rfl⟩
        exact ⟨operand, rfl, flat operand rfl⟩
      · exact (steps rfl).elim
  | cons step steps inductionHypothesis =>
      rw [List.forall_mem_cons] at sameLevel
      rcases sameLevel with ⟨rfl, sameLevel⟩
      rcases exists_nextResult flat with ⟨next, composed, flatNext⟩
      have flatRunning :
          ∀ operand ∈ some next, operand.IsFlat step.1.level := by
        rintro operand ⟨⟩
        exact flatNext
      rcases
        inductionHypothesis sameLevel flatRunning
          (Or.inl (Option.some_ne_none next)) with
        ⟨result, found, flatResult⟩
      refine ⟨result, ?_, flatResult⟩
      rw [runningResult, List.foldlM_cons, composed]
      exact found

/--
Compositions add little to their operands, and folding in scalars, any number
of them but at one level, never makes a running result deeper than four.
-/
theorem grows_linearly :
    (∀ (call : Call (Option Operand)) (expression : Expr),
      call.compose = .ok expression →
        expression.GrownFrom
          ((present call.operands).map Operand.whole)) ∧
      (∀ operand : Operand, operand.asArgument.GrownFrom [operand.whole]) ∧
      ∀ (level : Kind) (first : Option Scalar)
        (steps : List (Arithmetic × Scalar)),
        (∀ step ∈ steps, step.1.level = level) →
        (first ≠ none ∨ steps ≠ []) →
        ∃ result,
          runningResult (first.map .scalar) steps = .ok (some result) ∧
            result.whole.depth ≤ 4 := by
  refine ⟨fun _ _ => Call.grownFrom_compose,
    Operand.grownFrom_asArgument, ?_⟩
  intro level first steps sameLevel nonempty
  have flat : ∀ operand ∈ first.map Operand.scalar,
      operand.IsFlat level := by
    rintro operand isFirst
    rcases Option.mem_map.mp isFirst with ⟨scalar, _, rfl⟩
    exact scalar.isFlat level
  have started :
      first.map Operand.scalar ≠ none ∨ steps ≠ [] := by
    simpa using nonempty
  rcases exists_runningResult sameLevel flat started with
    ⟨result, found, flatResult⟩
  exact ⟨result, found, flatResult.depth⟩

/-- A sum that is put in brackets, and a running result with nothing before. -/
theorem grows_linearly_bracketed :
    let addend : Expr := .sum (.number "1") "+" (.number "2") []
    let product : Expr :=
      .calc (.product (.group addend) "*" (.number "True") [])
    let steps : List (Arithmetic × Scalar) :=
      [(.divide, .integer 0), (.multiply, .truth false)]
    product.GrownFrom [addend, .number "True"] ∧
      ∃ result,
        runningResult none steps = .ok (some result) ∧
          result.whole.depth ≤ 4 := by
  intro addend product steps
  rcases grows_linearly with ⟨calls, _, runs⟩
  constructor
  · exact
      calls
        (.arithmetic .multiply
          [some (.expr addend), none, some (.scalar (.truth true))])
        product rfl
  · exact runs .product none steps (by decide) (by decide)

end Compose

end CssMath
