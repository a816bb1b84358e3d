import CssMath.Proofs.Chain
import CssMath.Proofs.Interchange
import Mathlib.Logic.Function.Iterate

/-!
# Calculations around operands

A chain takes its members out of all the calculations around them, and a
function takes its arguments out of one.  So an arithmetic operation composes
the same of an operand in any number of calculations
(`Call.compose_filled_arithmetic`), while a function sees all of them but the
outermost: another calculation around an operand is seen unless it is the
first one (`Call.compose_filled_wrapped_eq_iff`), and an operand in two
calculations leaves one of them as a part of the result
(`Call.exists_calc_mem_parts_iff`).  The two are put together in
`Call.HidesCalcs`.

Operands are compared in all places of a call at once.  A template is a call
some of whose places are open, and each of them is filled with one expression.
-/

namespace CssMath

/-! ## Layers of calculations -/

namespace Expr

/-- An expression within some calculations, one around the other. -/
def wrapped (layers : Nat) (expression : Expr) : Expr :=
  «calc»^[layers] expression

@[simp]
theorem wrapped_zero (expression : Expr) :
    wrapped 0 expression = expression := rfl

theorem wrapped_succ (layers : Nat) (expression : Expr) :
    wrapped (layers + 1) expression = .calc (wrapped layers expression) :=
  Function.iterate_succ_apply' «calc» layers expression

theorem wrapped_calc (layers : Nat) (expression : Expr) :
    wrapped layers (.calc expression) = wrapped (layers + 1) expression :=
  (Function.iterate_succ_apply «calc» layers expression).symm

theorem sizeOf_wrapped (layers : Nat) (expression : Expr) :
    sizeOf (wrapped layers expression) = layers + sizeOf expression := by
  induction layers with
  | zero => simp
  | succ layers inductionHypothesis =>
      rw [wrapped_succ, calc.sizeOf_spec, inductionHypothesis]
      omega

theorem wrapped_eq_self_iff {layers : Nat} {expression : Expr} :
    wrapped layers expression = expression ↔ layers = 0 := by
  constructor
  · intro same
    have sizes := congrArg sizeOf same
    rw [sizeOf_wrapped] at sizes
    omega
  · rintro rfl
    rfl

/-- All calculations are removed, however many there are. -/
theorem withoutCalc_wrapped (layers : Nat) (expression : Expr) :
    (wrapped layers expression).withoutCalc = expression.withoutCalc := by
  induction layers with
  | zero => rfl
  | succ layers inductionHypothesis =>
      rw [wrapped_succ, withoutCalc, inductionHypothesis]

theorem kind_eq_calc_iff {expression : Expr} :
    expression.kind = .calc ↔ ∃ content, expression = .calc content := by
  constructor
  · intro isCalc
    by_contra noCalc
    -- An expression that is not a calculation has none to remove.
    have unwrapped : expression.withoutCalc = expression := by
      cases expression with
      | «calc» content => exact (noCalc ⟨content, rfl⟩).elim
      | _ => rfl
    exact expression.kind_withoutCalc_ne (by rwa [unwrapped])
  · rintro ⟨content, rfl⟩
    rfl

/-- Removing one calculation undoes one layer, and only around what has none yet. -/
theorem withoutOneCalc_wrapped_eq_iff {layers : Nat} {expression : Expr} :
    (wrapped layers expression).withoutOneCalc = expression.withoutOneCalc ↔
      layers = 0 ∨ layers = 1 ∧ expression.kind ≠ .calc := by
  cases layers with
  | zero => simp
  | succ layers =>
      rw [wrapped_succ, withoutOneCalc]
      fun_cases withoutOneCalc expression with
      | case1 content =>
          rw [wrapped_calc, wrapped_eq_self_iff]
          simp [kind]
      | case2 expression noCalc =>
          have notCalc : expression.kind ≠ .calc := by
            rw [ne_eq, kind_eq_calc_iff]
            rintro ⟨content, equal⟩
            exact noCalc content equal
          rw [wrapped_eq_self_iff]
          simp [notCalc]

end Expr

/-! ## Open places -/

namespace Call

theorem related_map
    {α β γ : Type*} {relation : β → γ → Prop}
    {change : α → β} {change' : α → γ}
    {call : Call α}
    (each : ∀ operand ∈ call.operands,
      relation (change operand) (change' operand)) :
    (call.map change).Related relation (call.map change') := by
  have ofList (items : List α)
      (each : ∀ item ∈ items, relation (change item) (change' item)) :
      List.Forall₂ relation (items.map change) (items.map change') := by
    rw [List.forall₂_map_left_iff, List.forall₂_map_right_iff,
      List.forall₂_same]
    exact each
  cases call with
  | arithmetic operation operands =>
      exact .arithmetic operation (ofList operands each)
  | extremum which operands => exact .extremum which (ofList operands each)
  | clamp lower preferred upper =>
      simp only [operands, List.forall_mem_cons] at each
      exact .clamp each.1 each.2.1 each.2.2.1
  | exp operand =>
      simp only [operands, List.forall_mem_cons] at each
      exact .exp each.1
  | pow base exponent =>
      simp only [operands, List.forall_mem_cons] at each
      exact .pow each.1 each.2.1
  | round strategy operand interval =>
      simp only [operands, List.forall_mem_cons] at each
      exact .round strategy each.1 each.2.1

/-- Put an expression into the places that a call leaves open. -/
def filled
    (template : Call (Option (Option Operand))) (expression : Expr) :
    Call (Option Operand) :=
  template.map fun place => place.getD (some (.expr expression))

@[simp]
theorem isFunction_map
    {α β : Type*} (change : α → β) (call : Call α) :
    (call.map change).IsFunction ↔ call.IsFunction := by
  cases call <;> rfl

variable
    {template : Call (Option (Option Operand))}
    {left right : Expr}

/-- An arithmetic operation does not see the calculations around its operands. -/
theorem compose_filled_arithmetic
    (arithmetic : ¬ template.IsFunction)
    (same : left.withoutCalc = right.withoutCalc) :
    (template.filled left).compose = (template.filled right).compose := by
  cases template with
  | arithmetic operation places =>
      refine operation.compose_congr ?_
      rw [List.forall₂_map_left_iff, List.forall₂_map_right_iff,
        List.forall₂_same]
      intro place _
      cases place with
      | none => simp [Operand.SameMember, Operand.asMember, same]
      | some operand => rfl
  | _ => exact (arithmetic trivial).elim

/-- A function sees only what fills its open places, less one calculation. -/
theorem compose_filled_function
    (function : template.IsFunction)
    (same : none ∈ template.operands →
      left.withoutOneCalc = right.withoutOneCalc) :
    (template.filled left).compose = (template.filled right).compose := by
  refine compose_congr ((isFunction_map _ template).mpr function)
    (related_map ?_)
  intro place member
  cases place with
  | none =>
      constructor <;>
        simp [Compose.bound, Operand.asArgument, same member]
  | some operand => exact ⟨rfl, rfl⟩

/-- Whatever fills the open places of a function, it fails alike. -/
theorem compose_filled_error
    {fault : Fault}
    (function : template.IsFunction)
    (failed : (template.filled left).compose = .error fault) :
    (template.filled right).compose = .error fault := by
  refine compose_error_congr ((isFunction_map _ template).mpr function)
    (related_map ?_) failed
  intro place _
  cases place <;> rfl

theorem eq_of_filterMap_getD
    {α β : Type*} (change : α → β) {left right : α}
    {places : List (Option (Option α))}
    (isOpen : none ∈ places)
    (same :
      (places.filterMap fun place => (place.getD (some left)).map change) =
        places.filterMap fun place =>
          (place.getD (some right)).map change) :
    change left = change right := by
  induction places with
  | nil => simp at isOpen
  | cons place places inductionHypothesis =>
      cases place with
      | none =>
          simp only [List.filterMap_cons, Option.getD_none, Option.map_some,
            List.cons.injEq] at same
          exact same.1
      | some operand =>
          refine inductionHypothesis (by simpa using isOpen) ?_
          cases operand <;> simpa using same

/-- What fills an open place can be told from the arguments. -/
theorem withoutOneCalc_eq_of_arguments
    (function : template.IsFunction)
    (isOpen : none ∈ template.operands)
    (same : (template.filled left).arguments =
      (template.filled right).arguments) :
    left.withoutOneCalc = right.withoutOneCalc := by
  cases template with
  | clamp lower preferred upper =>
      cases lower <;> cases preferred <;> cases upper <;>
        simp_all [filled, map, arguments, operands, Compose.bound,
          Operand.asArgument]
  | _ =>
      simp only [filled, map, arguments, operands, List.filterMap_map] at same
      exact eq_of_filterMap_getD Operand.asArgument isOpen same

/--
Calculations around what fills the open places make no difference to an
arithmetic operation.  To a function that succeeds they do, apart from a first
calculation around an expression that is none itself.
-/
theorem compose_filled_wrapped_eq_iff
    (template : Call (Option (Option Operand)))
    (expression : Expr)
    (layers : Nat) :
    (template.filled (expression.wrapped layers)).compose =
        (template.filled expression).compose ↔
      ¬ template.IsFunction ∨
        none ∉ template.operands ∨
        (∃ fault, (template.filled expression).compose = .error fault) ∨
        layers = 0 ∨
        layers = 1 ∧ expression.kind ≠ .calc := by
  by_cases function : template.IsFunction
  swap
  · have same := compose_filled_arithmetic function
      (Expr.withoutCalc_wrapped layers expression)
    simp [function, same]
  by_cases isOpen : none ∈ template.operands
  swap
  · have same := @compose_filled_function template
      (expression.wrapped layers) expression
      function fun isOpen' => (isOpen isOpen').elim
    simp [isOpen, same]
  have filledFunction (filling : Expr) : (template.filled filling).IsFunction :=
    (isFunction_map _ template).mpr function
  cases composed : (template.filled expression).compose with
  | error fault => simp [compose_filled_error function composed]
  | ok result =>
      rw [← composed]
      simp only [function, isOpen, not_true_eq_false, composed, reduceCtorEq,
        exists_false, false_or]
      rw [← Expr.withoutOneCalc_wrapped_eq_iff]
      constructor
      · intro same
        refine withoutOneCalc_eq_of_arguments function isOpen ?_
        rw [← parts_compose (filledFunction _) same,
          ← parts_compose (filledFunction _) composed]
      · intro same
        rw [compose_filled_function function fun _ => same, composed]

/-! ## Calculations that are left -/

theorem withoutOneCalc_mem_arguments
    {call : Call (Option Operand)} {expression : Expr}
    (member : some (.expr expression) ∈ call.operands) :
    expression.withoutOneCalc ∈ call.arguments := by
  cases call with
  | clamp lower preferred upper =>
      simp only [operands, List.mem_cons, List.not_mem_nil, or_false] at member
      rcases member with rfl | rfl | rfl <;>
        simp [arguments, Compose.bound, Operand.asArgument]
  | _ => exact List.mem_filterMap.mpr ⟨_, member, rfl⟩

end Call

theorem Operand.kind_asArgument_eq_calc_iff {operand : Operand} :
    operand.asArgument.kind = .calc ↔
      ∃ content, operand = .expr (.wrapped 2 content) := by
  cases operand with
  | scalar scalar => simp [asArgument, scalar.kind_expr_ne.1]
  | expr expression =>
      simp only [asArgument, Operand.expr.injEq]
      fun_cases Expr.withoutOneCalc expression with
      | case1 inner =>
          rw [Expr.kind_eq_calc_iff]
          simp [Expr.wrapped_succ]
      | case2 expression noCalc =>
          rw [Expr.kind_eq_calc_iff]
          constructor
          · rintro ⟨content, rfl⟩
            exact (noCalc content rfl).elim
          · rintro ⟨content, rfl⟩
            exact (noCalc _ (Expr.wrapped_succ 1 content)).elim

namespace Call

/-- An argument is a calculation just if the operand is in two of them. -/
theorem exists_calc_mem_parts_iff
    {call : Call (Option Operand)}
    {result : Expr}
    (function : call.IsFunction)
    (composed : call.compose = .ok result) :
    (∃ part ∈ result.parts, part.kind = .calc) ↔
      ∃ content,
        some (Operand.expr (.wrapped 2 content)) ∈ call.operands := by
  constructor
  · rintro ⟨part, member, isCalc⟩
    rcases mem_parts_compose function composed member with
      rfl | ⟨operand, operandMember, rfl⟩
    · cases isCalc
    · rcases Operand.kind_asArgument_eq_calc_iff.mp isCalc with ⟨content, rfl⟩
      exact ⟨content, operandMember⟩
  · rintro ⟨content, member⟩
    refine ⟨.calc content, ?_, rfl⟩
    rw [parts_compose function composed]
    exact withoutOneCalc_mem_arguments member

/--
What becomes of calculations around the filling of a template: when they make
no difference to the result, and when an argument of the result is itself a
calculation.  Every call is a template, one with all its places closed.
-/
structure HidesCalcs
    (template : Call (Option (Option Operand)))
    (expression : Expr)
    (layers : Nat) : Prop where
  unchanged :
    (template.filled (expression.wrapped layers)).compose =
        (template.filled expression).compose ↔
      ¬ template.IsFunction ∨
        none ∉ template.operands ∨
        (∃ fault, (template.filled expression).compose = .error fault) ∨
        layers = 0 ∨
        layers = 1 ∧ expression.kind ≠ .calc
  argument :
    ∀ result,
      template.IsFunction →
        (template.filled (expression.wrapped layers)).compose = .ok result →
          ((∃ part ∈ result.parts, part.kind = .calc) ↔
            ∃ content,
              some (Operand.expr (.wrapped 2 content)) ∈
                (template.filled (expression.wrapped layers)).operands)

/-- A function hides one calculation around an operand, and arithmetic all of them. -/
theorem hidesCalcs
    (template : Call (Option (Option Operand)))
    (expression : Expr)
    (layers : Nat) :
    HidesCalcs template expression layers where
  unchanged := compose_filled_wrapped_eq_iff template expression layers
  argument _ function composed :=
    exists_calc_mem_parts_iff ((isFunction_map _ template).mpr function)
      composed

/-- Of two calculations around an operand, a minimum keeps the inner one. -/
theorem compose_min_wrapped_ne :
    (Call.extremum .min
          [some (.expr (.calc (.calc (.number "1"))))]).compose ≠
      (Call.extremum .min [some (.expr (.calc (.number "1")))]).compose := by
  intro same
  cases same

end Call

end CssMath
