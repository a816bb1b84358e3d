import CssMath.Compose.Function
import Mathlib.Data.List.Forall2

/-!
# Calls

A call is an operation with its operands.  The operands can be of any type:
those of `Call (Option Operand)` are there or absent, and such a call composes
an expression.  The two named extrema and the four named roundings are calls
at their own values, so what holds of every call holds of them.

Two calls are related if they are calls of one operation and their operands
are related in pairs.  Traversing a call is related to it by success on each
operand (`traverse_eq_ok_iff`).
-/

namespace CssMath

universe u v w

/-! ## Success on every item of a list -/

theorem bind_eq_ok_iff
    {α : Type u} {β : Type v}
    {result : Except Fault α} {next : α → Except Fault β} {final : β} :
    result.bind next = .ok final ↔
      ∃ value, result = .ok value ∧ next value = .ok final := by
  cases result <;> simp [Except.bind]

theorem mapM_eq_ok_iff
    {α : Type u} {β : Type v}
    {find : α → Except Fault β} {items : List α} {results : List β} :
    items.mapM find = .ok results ↔
      List.Forall₂ (fun item result => find item = .ok result)
        items results := by
  induction items generalizing results with
  | nil =>
      rw [List.mapM_nil, List.forall₂_nil_left_iff]
      constructor
      · intro equal
        cases equal
        rfl
      · rintro rfl
        rfl
  | cons item rest inductionHypothesis =>
      rw [List.mapM_cons, List.forall₂_cons_left_iff]
      constructor
      · intro success
        rcases bind_eq_ok_iff.mp success with ⟨first, found, success⟩
        rcases bind_eq_ok_iff.mp success with ⟨others, foundOthers, equal⟩
        cases equal
        exact ⟨first, others, found, inductionHypothesis.mp foundOthers, rfl⟩
      · rintro ⟨first, others, found, foundOthers, rfl⟩
        rw [found, inductionHypothesis.mpr foundOthers]
        rfl

theorem exists_forall₂
    {α : Type u} {β : Type v}
    {relation : α → β → Prop} {items : List α}
    (found : ∀ item ∈ items, ∃ result, relation item result) :
    ∃ results, List.Forall₂ relation items results := by
  induction items with
  | nil => exact ⟨[], .nil⟩
  | cons item rest inductionHypothesis =>
      rw [List.forall_mem_cons] at found
      rcases found.1 with ⟨result, head⟩
      rcases inductionHypothesis found.2 with ⟨results, tail⟩
      exact ⟨result :: results, .cons head tail⟩

theorem forall_of_forall₂
    {α : Type u} {β : Type v}
    {relation : α → β → Prop} {property : β → Prop}
    {items : List α} {results : List β}
    (each : List.Forall₂ relation items results)
    (implies : ∀ item result, relation item result → property result) :
    ∀ result ∈ results, property result := by
  induction each with
  | nil => simp
  | cons head tail inductionHypothesis =>
      rw [List.forall_mem_cons]
      exact ⟨implies _ _ head, inductionHypothesis⟩

/-- A relation between lists need only be widened on the items that occur. -/
theorem forall₂_imp_of_mem
    {α : Type u} {β : Type v}
    {relation relation' : α → β → Prop}
    {items : List α} {results : List β}
    (each : List.Forall₂ relation items results)
    (implies : ∀ item ∈ items, ∀ result,
      relation item result → relation' item result) :
    List.Forall₂ relation' items results := by
  induction each with
  | nil => exact .nil
  | cons head tail inductionHypothesis =>
      refine .cons (implies _ (by simp) _ head) (inductionHypothesis ?_)
      intro item member
      exact implies item (by simp [member])

theorem map_eq_of_forall₂
    {α : Type u} {β : Type v} {γ : Type w}
    {change : α → γ} {change' : β → γ}
    {items : List α} {results : List β}
    (each :
      List.Forall₂ (fun item result => change' result = change item)
        items results) :
    results.map change' = items.map change := by
  have equal :
      List.Forall₂ (· = ·) (items.map change) (results.map change') := by
    rw [List.forall₂_map_left_iff, List.forall₂_map_right_iff]
    exact each.imp fun _ _ equal => equal.symm
  rw [List.forall₂_eq_eq_eq] at equal
  exact equal.symm

/-! ## Calls -/

/-- The operations that join chains. -/
inductive Arithmetic where
  | add
  | subtract
  | multiply
  | divide
  deriving DecidableEq, Repr

namespace Arithmetic

/-- The operation that a fault names. -/
def operation : Arithmetic → Operation
  | .add => .add
  | .subtract => .subtract
  | .multiply => .multiply
  | .divide => .divide

/-- The composition of operands by an operation. -/
def compose : Arithmetic → List (Option Operand) → Except Fault Expr
  | .add => Compose.add
  | .subtract => Compose.subtract
  | .multiply => Compose.multiply
  | .divide => Compose.divide

end Arithmetic

/-- An operation with its operands. -/
inductive Call (α : Type u) where
  | arithmetic (operation : Arithmetic) (operands : List α)
  | extremum (which : Extremum) (operands : List α)
  | clamp (lower preferred upper : α)
  | exp (operand : α)
  | pow (base exponent : α)
  | round (strategy : Option String) (operand interval : α)
  deriving Repr

namespace Call

variable
    {α : Type u}
    {β : Type v}
    {γ : Type w}

/-- The operation that a call makes. -/
def operation : Call α → Operation
  | .arithmetic operation _ => operation.operation
  | .extremum which _ => which.operation
  | .clamp _ _ _ => .clamp
  | .exp _ => .exp
  | .pow _ _ => .pow
  | .round _ _ _ => .round

/-- The operands of a call, from left to right. -/
def operands : Call α → List α
  | .arithmetic _ operands => operands
  | .extremum _ operands => operands
  | .clamp lower preferred upper => [lower, preferred, upper]
  | .exp operand => [operand]
  | .pow base exponent => [base, exponent]
  | .round _ operand interval => [operand, interval]

/-- The four operations that join chains are made by calls of their kind only. -/
theorem exists_of_operation
    {call : Call α} (arithmetic : Arithmetic)
    (same : call.operation = arithmetic.operation) :
    ∃ operands, call = .arithmetic arithmetic operands := by
  cases call with
  | arithmetic operation operands =>
      have equal : operation = arithmetic := by
        cases operation <;> cases arithmetic <;> first | rfl | cases same
      exact ⟨operands, by rw [equal]⟩
  | extremum which operands =>
      cases arithmetic <;> cases which <;> cases same
  | _ => cases arithmetic <;> cases same

/-- The call of the same operation on other operands. -/
def map (change : α → β) : Call α → Call β
  | .arithmetic operation operands =>
      .arithmetic operation (operands.map change)
  | .extremum which operands => .extremum which (operands.map change)
  | .clamp lower preferred upper =>
      .clamp (change lower) (change preferred) (change upper)
  | .exp operand => .exp (change operand)
  | .pow base exponent => .pow (change base) (change exponent)
  | .round strategy operand interval =>
      .round strategy (change operand) (change interval)

/-- Find each operand in turn; the first that fails makes the call fail. -/
def traverse (find : α → Except Fault β) : Call α → Except Fault (Call β)
  | .arithmetic operation operands =>
      return .arithmetic operation (← operands.mapM find)
  | .extremum which operands =>
      return .extremum which (← operands.mapM find)
  | .clamp lower preferred upper =>
      return .clamp (← find lower) (← find preferred) (← find upper)
  | .exp operand => return .exp (← find operand)
  | .pow base exponent => return .pow (← find base) (← find exponent)
  | .round strategy operand interval =>
      return .round strategy (← find operand) (← find interval)

@[simp]
theorem operation_map (change : α → β) (call : Call α) :
    (call.map change).operation = call.operation := by
  cases call <;> rfl

@[simp]
theorem operands_map (change : α → β) (call : Call α) :
    (call.map change).operands = call.operands.map change := by
  cases call <;> rfl

theorem traverse_map
    (change : α → Except Fault β) (call : Call α) :
    (call.map change).traverse id = call.traverse change := by
  cases call <;>
    simp only [map, traverse, List.mapM_map, Function.id_comp, id_eq]

/-- The expression that a call composes. -/
def compose : Call (Option Operand) → Except Fault Expr
  | .arithmetic operation operands => operation.compose operands
  | .extremum which operands => Compose.extremum which operands
  | .clamp lower preferred upper => Compose.clamp lower preferred upper
  | .exp operand => Compose.exp operand
  | .pow base exponent => Compose.pow base exponent
  | .round strategy operand interval =>
      Compose.round strategy operand interval

/-! ### Extrema and roundings by name -/

theorem compose_min (operands : List (Option Operand)) :
    (Call.extremum .min operands).compose = Compose.min operands := rfl

theorem compose_max (operands : List (Option Operand)) :
    (Call.extremum .max operands).compose = Compose.max operands := rfl

theorem compose_roundNearest (operand interval : Option Operand) :
    (Call.round (some "nearest") operand interval).compose =
      Compose.roundNearest operand interval := rfl

theorem compose_roundUp (operand interval : Option Operand) :
    (Call.round (some "up") operand interval).compose =
      Compose.roundUp operand interval := rfl

theorem compose_roundDown (operand interval : Option Operand) :
    (Call.round (some "down") operand interval).compose =
      Compose.roundDown operand interval := rfl

theorem compose_roundToZero (operand interval : Option Operand) :
    (Call.round (some "to-zero") operand interval).compose =
      Compose.roundToZero operand interval := rfl

/-! ## Related calls -/

/-- Calls of one operation whose operands are related in pairs. -/
inductive Related (relation : α → β → Prop) : Call α → Call β → Prop where
  | arithmetic
      (operation : Arithmetic)
      {operands : List α} {results : List β}
      (each : List.Forall₂ relation operands results) :
      Related relation
        (.arithmetic operation operands)
        (.arithmetic operation results)
  | extremum
      (which : Extremum)
      {operands : List α} {results : List β}
      (each : List.Forall₂ relation operands results) :
      Related relation
        (.extremum which operands)
        (.extremum which results)
  | clamp
      {lower preferred upper : α} {lower' preferred' upper' : β}
      (first : relation lower lower')
      (second : relation preferred preferred')
      (third : relation upper upper') :
      Related relation
        (.clamp lower preferred upper)
        (.clamp lower' preferred' upper')
  | exp
      {operand : α} {operand' : β}
      (only : relation operand operand') :
      Related relation (.exp operand) (.exp operand')
  | pow
      {base exponent : α} {base' exponent' : β}
      (first : relation base base')
      (second : relation exponent exponent') :
      Related relation (.pow base exponent) (.pow base' exponent')
  | round
      (strategy : Option String)
      {operand interval : α} {operand' interval' : β}
      (first : relation operand operand')
      (second : relation interval interval') :
      Related relation
        (.round strategy operand interval)
        (.round strategy operand' interval')

namespace Related

variable
    {relation relation' : α → β → Prop}
    {call : Call α}
    {results : Call β}

theorem operation
    (related : Related relation call results) :
    call.operation = results.operation := by
  cases related <;> rfl

theorem operands
    (related : Related relation call results) :
    List.Forall₂ relation call.operands results.operands := by
  cases related <;> simp_all [Call.operands]

/-- A relation need only be widened on the operands of the call. -/
theorem imp
    (related : Related relation call results)
    (implies : ∀ operand ∈ call.operands, ∀ result,
      relation operand result → relation' operand result) :
    Related relation' call results := by
  cases related with
  | arithmetic operation each =>
      exact .arithmetic operation (forall₂_imp_of_mem each implies)
  | extremum which each =>
      exact .extremum which (forall₂_imp_of_mem each implies)
  | clamp first second third =>
      exact .clamp
        (implies _ (by simp [Call.operands]) _ first)
        (implies _ (by simp [Call.operands]) _ second)
        (implies _ (by simp [Call.operands]) _ third)
  | exp only =>
      exact .exp (implies _ (by simp [Call.operands]) _ only)
  | pow first second =>
      exact .pow
        (implies _ (by simp [Call.operands]) _ first)
        (implies _ (by simp [Call.operands]) _ second)
  | round strategy first second =>
      exact .round strategy
        (implies _ (by simp [Call.operands]) _ first)
        (implies _ (by simp [Call.operands]) _ second)

/-- Calls become equal when what relates their operands is an equation. -/
theorem map_eq
    {change : α → γ} {change' : β → γ}
    (related :
      Related (fun operand result => change' result = change operand)
        call results) :
    results.map change' = call.map change := by
  cases related with
  | arithmetic operation each =>
      simp only [Call.map, map_eq_of_forall₂ each]
  | extremum which each =>
      simp only [Call.map, map_eq_of_forall₂ each]
  | clamp first second third => simp only [Call.map, first, second, third]
  | exp only => simp only [Call.map, only]
  | pow first second => simp only [Call.map, first, second]
  | round strategy first second => simp only [Call.map, first, second]

end Related

/-- A call is traversed with success just if each operand is found. -/
theorem traverse_eq_ok_iff
    {find : α → Except Fault β}
    {call : Call α} {results : Call β} :
    call.traverse find = .ok results ↔
      Related (fun operand result => find operand = .ok result)
        call results := by
  constructor
  · intro success
    cases call with
    | arithmetic operation operands =>
        rcases bind_eq_ok_iff.mp success with ⟨found, each, equal⟩
        cases equal
        exact .arithmetic operation (mapM_eq_ok_iff.mp each)
    | extremum which operands =>
        rcases bind_eq_ok_iff.mp success with ⟨found, each, equal⟩
        cases equal
        exact .extremum which (mapM_eq_ok_iff.mp each)
    | clamp lower preferred upper =>
        rcases bind_eq_ok_iff.mp success with ⟨lower', first, success⟩
        rcases bind_eq_ok_iff.mp success with ⟨preferred', second, success⟩
        rcases bind_eq_ok_iff.mp success with ⟨upper', third, equal⟩
        cases equal
        exact .clamp first second third
    | exp operand =>
        rcases bind_eq_ok_iff.mp success with ⟨operand', only, equal⟩
        cases equal
        exact .exp only
    | pow base exponent =>
        rcases bind_eq_ok_iff.mp success with ⟨base', first, success⟩
        rcases bind_eq_ok_iff.mp success with ⟨exponent', second, equal⟩
        cases equal
        exact .pow first second
    | round strategy operand interval =>
        rcases bind_eq_ok_iff.mp success with ⟨operand', first, success⟩
        rcases bind_eq_ok_iff.mp success with ⟨interval', second, equal⟩
        cases equal
        exact .round strategy first second
  · intro related
    cases related with
    | arithmetic operation each =>
        simp only [traverse, mapM_eq_ok_iff.mpr each]
        rfl
    | extremum which each =>
        simp only [traverse, mapM_eq_ok_iff.mpr each]
        rfl
    | clamp first second third =>
        simp only [traverse, first, second, third]
        rfl
    | exp only =>
        simp only [traverse, only]
        rfl
    | pow first second =>
        simp only [traverse, first, second]
        rfl
    | round strategy first second =>
        simp only [traverse, first, second]
        rfl

end Call

end CssMath
