import CssMath.Expr.Layout
import CssMath.Proofs.Chain
import CssMath.Proofs.Composition
import CssMath.Proofs.Inheritance
import CssMath.Proofs.Program
import CssMath.Proofs.Tree.Structure

/-!
# The values of compositions

The values in a tree are its numbers, dimensions, percentages, keywords and
opaque texts and the names that it refers to.  The preorder of a tree meets
them in the order in which they are written.

Composing keeps the values.  Calculations, brackets and operators have none,
so the chains of an expression have its values, and the values of joined
chains are those of the chains one after the other (`Chain.values_join`).  Hence
the values of a composition are what its operands bring, from left to right,
and so are those of any composition of compositions.
-/

namespace CssMath

universe u

/-! ## Values of trees -/

namespace Tree

/-- The value that a node is; for a reference it is the name. -/
def value? (tree : Tree) : Option Tree :=
  match tree.kind with
  | .number => some tree
  | .dimension => some tree
  | .percentage => some tree
  | .keyword => some tree
  | .raw => some tree
  | .var => tree.layout.find? fun child => child.kind = .customProperty
  | _ => none

/-- The values in a tree, from left to right. -/
def values (tree : Tree) : List Tree :=
  tree.preorder.filterMap fun node => node.2.value?

/-- The root comes first, and then the values below each child. -/
theorem values_eq (tree : Tree) :
    tree.values = tree.value?.toList ++ tree.layout.flatMap values := by
  have below :
      ((tree.layout.flatMap preorder).map deeper).filterMap
          (fun node => node.2.value?) =
        tree.layout.flatMap values := by
    rw [List.filterMap_map, List.filterMap_flatMap]
    rfl
  rw [values, preorder_eq, List.filterMap_cons, below]
  cases tree.value? <;> rfl

theorem values_leaf (kind : Kind) (text : String) :
    (leaf kind text).values = (leaf kind text).value?.toList := by
  simp [values_eq, layout]

end Tree

namespace Slot

/-- The values in a row of slots, from left to right. -/
def rowValues (slots : List Slot) : List Tree :=
  (rowSubtrees slots).flatMap Tree.values

@[simp]
theorem rowValues_nil : rowValues [] = [] := rfl

@[simp]
theorem rowValues_absent (rest : List Slot) :
    rowValues (.absent :: rest) = rowValues rest := rfl

@[simp]
theorem rowValues_subtree (tree : Tree) (rest : List Slot) :
    rowValues (.subtree tree :: rest) = tree.values ++ rowValues rest := by
  simp [rowValues, rowSubtrees, subtrees]

@[simp]
theorem rowValues_run (slots rest : List Slot) :
    rowValues (.run slots :: rest) = rowValues slots ++ rowValues rest := by
  simp [rowValues, rowSubtrees, subtrees]

@[simp]
theorem rowValues_token (text : String) (rest : List Slot) :
    rowValues (.token text :: rest) = rowValues rest := by
  simp [token, Tree.values_leaf, Tree.value?, Tree.kind]

@[simp]
theorem rowValues_functionName (name : String) (rest : List Slot) :
    rowValues (.functionName name :: rest) = rowValues rest := by
  simp [functionName, Tree.values_leaf, Tree.value?, Tree.kind]

theorem rowValues_map_run
    {α : Type u} (items : List α) (slots : α → List Slot) :
    rowValues (items.map fun item => .run (slots item)) =
      items.flatMap fun item => rowValues (slots item) := by
  induction items with
  | nil => rfl
  | cons item rest inductionHypothesis =>
      rw [List.map_cons, rowValues_run, inductionHypothesis, List.flatMap_cons]

end Slot

theorem Tree.values_branch (kind : Kind) (slots : List Slot) :
    (branch kind slots).values =
      (branch kind slots).value?.toList ++ Slot.rowValues slots :=
  values_eq (branch kind slots)

/-! ## Values of expressions -/

namespace Expr

/-- The values in an expression, from left to right. -/
def values (expression : Expr) : List Tree :=
  expression.tree.values

theorem values_tree (expression : Expr) :
    expression.tree.values = expression.values := rfl

theorem rowValues_optionalSlot (part : Option Expr) (rest : List Slot) :
    Slot.rowValues (optionalSlot part :: rest) =
      part.toList.flatMap values ++ Slot.rowValues rest := by
  cases part <;> simp [optionalSlot, values_tree]

theorem rowValues_strategySlot (strategy : Option String) (rest : List Slot) :
    Slot.rowValues (strategySlot strategy :: rest) = Slot.rowValues rest := by
  cases strategy <;>
    simp [strategySlot, Tree.values_leaf, Tree.value?, Tree.kind]

/-- The values in an expression are itself, if it is one, and those of its parts. -/
theorem values_eq (expression : Expr) :
    expression.values =
      expression.tree.value?.toList ++ expression.parts.flatMap values := by
  rw [values]
  cases expression with
  | leaf kind text => simp [tree, Tree.values_leaf, parts]
  | _ =>
      rw [tree, Tree.values_branch]
      simp [rowValues_optionalSlot, rowValues_strategySlot,
        itemSlots_eq_map, factorSlots_eq_map, termSlots_eq_map, sumToken,
        Slot.rowValues_map_run, List.flatMap_map, parts, Tree.values_leaf,
        Tree.value?, Tree.kind, values_tree]

/-- An expression that is no value itself has the values of its parts. -/
theorem values_of_value?_eq_none
    {expression : Expr} (noValue : expression.tree.value? = none) :
    expression.values = expression.parts.flatMap values := by
  rw [values_eq, noValue]
  rfl

theorem values_calc (content : Expr) :
    («calc» content).values = content.values := by
  rw [values_of_value?_eq_none rfl]
  simp [parts]

theorem values_group (content : Expr) :
    (group content).values = content.values := by
  rw [values_of_value?_eq_none rfl]
  simp [parts]

theorem values_withoutOneCalc (expression : Expr) :
    expression.withoutOneCalc.values = expression.values := by
  fun_cases withoutOneCalc expression with
  | case1 content => exact (values_calc content).symm
  | case2 expression noCalc => rfl

theorem values_withoutCalc (expression : Expr) :
    expression.withoutCalc.values = expression.values := by
  fun_induction withoutCalc expression with
  | case1 content inductionHypothesis =>
      rw [inductionHypothesis, values_calc]
  | case2 expression noCalc => rfl

end Expr

/-! ## Values of chains -/

namespace Chain

variable
    {operator : String}
    {carry : String → String}

/-- The values in a chain, from left to right. -/
def values (chain : Chain) : List Tree :=
  chain.first.values ++ chain.rest.flatMap fun step => step.2.values

/-- A chain has the same values behind any operator. -/
theorem values_behind (chain : Chain) :
    (chain.behind operator carry).flatMap (fun step => step.2.values) =
      chain.values := by
  simp [behind, values, List.flatMap_map]

/-- Joined chains have the values of the chains, one after the other. -/
theorem values_join
    {chains : List Chain} {joined : Chain}
    (joins : Chain.join operator carry chains = some joined) :
    joined.values = chains.flatMap values := by
  cases chains with
  | nil => simp [Chain.join] at joins
  | cons leading others =>
      cases joins
      rw [values, List.flatMap_append, List.flatMap_assoc,
        List.flatMap_cons, ← List.append_assoc]
      simp only [values_behind]
      rfl

end Chain

namespace Expr

/-- The sum or the product of a chain has the values of the chain. -/
theorem values_ofChain (level : Kind) (chain : Chain) :
    (ofChain level chain).values = chain.values := by
  rcases chain with ⟨first, _ | ⟨step, rest⟩⟩
  · cases level <;> simp [ofChain, sumOf, productOf, Chain.values]
  · have members :
        (ofChain level ⟨first, step :: rest⟩).parts =
          first :: (step :: rest).map Prod.snd := by
      cases level <;> rfl
    rw [values_of_value?_eq_none (by cases level <;> rfl), members]
    simp [Chain.values, List.flatMap_map]

/-- Taking an expression apart into a chain keeps its values. -/
theorem values_chainAt (level : Kind) (expression : Expr) :
    (expression.chainAt level).values = expression.values := by
  have alone : Chain.values ⟨expression, []⟩ = expression.values := by
    simp [Chain.values]
  cases expression with
  | sum first operator second rest =>
      cases level with
      | sum =>
          rw [values_of_value?_eq_none rfl]
          simp [chainAt, terms, Chain.values, trimmedTerms, parts,
            List.flatMap_map]
      | _ => simp [chainAt, factors, Chain.values, values_group]
  | product first operator second rest =>
      cases level with
      | sum => exact alone
      | _ =>
          rw [values_of_value?_eq_none rfl]
          simp [chainAt, factors, Chain.values, parts, List.flatMap_map]
  | _ => cases level <;> exact alone

end Expr

/-! ## Values of operands -/

/-- Where an operand stands in a call: as a bound of a clamp, or elsewhere. -/
inductive Place where
  | argument
  | bound
  deriving DecidableEq, Repr

theorem Scalar.values_expr (scalar : Scalar) :
    scalar.expr.values = [scalar.expr.tree] := by
  rcases scalar.expr_eq with
    ⟨text, equal⟩ | ⟨numeral, equal⟩ | ⟨numeral, unit, equal⟩ | ⟨text, equal⟩ <;>
  simp [equal, Expr.values_eq, Expr.parts, Expr.tree, Tree.value?, Tree.kind,
    LeafKind.kind]

namespace Operand

/--
The values that an operand brings to its place.  A scalar brings the value
that it stands for, and as a bound the text `none` stands for the open bound.
-/
def values : Operand → Place → List Tree
  | .scalar value, place =>
      if place = .bound ∧ value = .verbatim "none" then
        [Expr.openBound.tree]
      else
        [value.expr.tree]
  | .expr expression, _ => expression.values

theorem values_asMember (operand : Operand) :
    operand.asMember.values = operand.values .argument := by
  cases operand with
  | scalar value => simp [asMember, values, value.values_expr]
  | expr expression => exact expression.values_withoutCalc

theorem values_asArgument (operand : Operand) :
    operand.asArgument.values = operand.values .argument := by
  cases operand with
  | scalar value => simp [asArgument, values, value.values_expr]
  | expr expression => exact expression.values_withoutOneCalc

/-- What an operand brings to its place; nothing if it is absent. -/
def brings : Option Operand → Place → List Tree
  | none, _ => []
  | some present, place => present.values place

@[simp]
theorem brings_none (place : Place) : brings none place = [] := rfl

@[simp]
theorem brings_some (operand : Operand) (place : Place) :
    brings (some operand) place = operand.values place := rfl

theorem flatMap_brings (operands : List (Option Operand)) :
    (operands.flatMap fun operand => brings operand .argument) =
      (Compose.present operands).flatMap fun present =>
        present.values .argument := by
  induction operands with
  | nil => rfl
  | cons operand rest inductionHypothesis =>
      cases operand <;> simp [inductionHypothesis]

end Operand

theorem Compose.values_bound
    {operand : Option Operand} {expression : Expr}
    (isBound : bound operand = some expression) :
    expression.values = Operand.brings operand .bound := by
  unfold bound at isBound
  split at isBound
  · cases isBound
    rfl
  · rename_i notOpen
    rcases Option.map_eq_some_iff.mp isBound with ⟨present, rfl, rfl⟩
    rw [Operand.values_asArgument]
    cases present with
    | scalar value =>
        have notNone : value ≠ .verbatim "none" := by
          rintro rfl
          exact notOpen rfl
        simp [Operand.values, notNone]
    | expr expression => rfl

/-! ## Values of calls -/

namespace Call

/-- What the operands of a call bring to their places, one after the other. -/
def gather {α : Type u} : Call (Place → List α) → List α
  | .clamp lower preferred upper =>
      lower .bound ++ preferred .argument ++ upper .bound
  | call => call.operands.flatMap fun operand => operand .argument

/-- The values of the operands of a call, from left to right. -/
def values (call : Call (Option Operand)) : List Tree :=
  (call.map Operand.brings).gather

end Call

/-- An arithmetic operation composes what has the values of its operands. -/
theorem Arithmetic.values_compose
    {operation : Arithmetic}
    {operands : List (Option Operand)}
    {expression : Expr}
    (composed : operation.compose operands = .ok expression) :
    expression.values =
      operands.flatMap fun operand => Operand.brings operand .argument := by
  rcases compose_eq_ok_iff.mp composed with ⟨chain, joins, rfl⟩
  rw [Expr.values_calc, Expr.values_ofChain, Chain.values_join joins,
    List.flatMap_map, Operand.flatMap_brings]
  simp only [Expr.values_chainAt, Operand.values_asMember]

/-- A function has the values of its parts. -/
theorem Expr.values_of_isFunction
    {expression : Expr} (isFunction : expression.IsFunction) :
    expression.values = expression.parts.flatMap values := by
  apply values_of_value?_eq_none
  cases expression with
  | extremum which first rest => cases which <;> rfl
  | exp content => rfl
  | pow base exponent => rfl
  | round strategy content interval => rfl
  | clamp lower preferred upper => rfl
  | _ => exact isFunction.elim

namespace Call

variable
    {call : Call (Option Operand)}
    {expression : Expr}

/-- The parts of a function have the values of the operands, in their order. -/
theorem values_parts_compose
    (function : call.IsFunction)
    (composed : call.compose = .ok expression) :
    expression.parts.flatMap Expr.values = call.values := by
  cases call with
  | arithmetic operation operands => exact function.elim
  | extremum which operands =>
      rcases Compose.extremum_eq_ok_iff.mp composed with
        ⟨first, rest, there, rfl⟩
      have brought := Operand.flatMap_brings operands
      rw [there] at brought
      simp [Expr.parts, values, map, gather, Call.operands,
        List.flatMap_map, brought, Operand.values_asArgument]
  | clamp lower preferred upper =>
      rcases Compose.clamp_eq_ok_iff.mp composed with
        ⟨lower', preferred', upper', isLower, rfl, isUpper, rfl⟩
      simp [Expr.parts, values, map, gather,
        Compose.values_bound isLower, Compose.values_bound isUpper,
        Operand.values_asArgument]
  | exp operand =>
      rcases Compose.exp_eq_ok_iff.mp composed with ⟨operand', rfl, rfl⟩
      simp [Expr.parts, values, map, gather, Call.operands,
        Operand.values_asArgument]
  | pow base exponent =>
      rcases Compose.pow_eq_ok_iff.mp composed with
        ⟨base', exponent', rfl, rfl, rfl⟩
      simp [Expr.parts, values, map, gather, Call.operands,
        Operand.values_asArgument]
  | round strategy operand interval =>
      rcases Compose.round_eq_ok_iff.mp composed with ⟨operand', rfl, rfl⟩
      cases interval <;>
        simp [Expr.parts, values, map, gather, Call.operands,
          Operand.values_asArgument]

/-- A composed expression has the values of the operands, in their order. -/
theorem values_compose (composed : call.compose = .ok expression) :
    expression.values = call.values := by
  by_cases function : call.IsFunction
  · rw [Expr.values_of_isFunction (isFunction_compose function composed),
      values_parts_compose function composed]
  · cases call with
    | arithmetic operation operands =>
        rw [Arithmetic.values_compose composed]
        simp [values, map, gather, Call.operands, List.flatMap_map]
    | _ => exact (function trivial).elim

end Call

/-! ## Values of programs -/

namespace Program

/-- The values of the operands that a program is given, from left to right. -/
def values : Program → Place → List Tree :=
  fold (fun _ => []) (fun operand => Operand.brings (some operand))
    fun call _ => call.gather

theorem values_apply (call : Call Program) (place : Place) :
    (apply call).values place = (call.map values).gather := by
  rw [values, fold_apply]

/-- A result brings to any place what the program brings. -/
def SameValues (program : Program) (result : Option Operand) : Prop :=
  Operand.brings result = program.values

theorem sameValues_run
    {program : Program} {result : Option Operand}
    (success : program.run = .ok result) :
    program.SameValues result := by
  have every : program.Every (fun _ => True) (fun _ => True) :=
    every_of_forall (fun _ => trivial) (fun _ => trivial) program
  refine every.run_induction ?_ ?_ ?_ success
  · rfl
  · intro operand _
    rfl
  · intro call operands expression _ related composed
    have brought : operands.map Operand.brings = call.map values :=
      related.map_eq
    funext place
    rw [values_apply, ← brought]
    exact Call.values_compose composed

end Program

/--
Whatever a call or a program composes has the values that its operands bring,
each of them once and in their order.
-/
theorem values_of_composition :
    (∀ (call : Call (Option Operand)) (expression : Expr),
        call.compose = .ok expression →
          expression.values = call.values) ∧
      ∀ (program : Program) (expression : Expr),
        program.run = .ok (some (.expr expression)) →
          expression.values = program.values .argument := by
  constructor
  · intro call expression composed
    exact Call.values_compose composed
  · intro program expression success
    have same := program.sameValues_run success
    exact congrFun same .argument

/-- A sum of a reference and two is subtracted from all, with an open bound on either side. -/
def openClamp : Program :=
  .apply (.clamp
    (.given (.scalar (.verbatim "none")))
    (.apply (.arithmetic .subtract
      [ .given (.scalar (.verbatim "100%")),
        .absent,
        .given (.expr (.calc
          (.sum (.var "--x" (some (.number "1"))) "+" (.number "2") [])))]))
    (.given (.scalar (.verbatim "none"))))

/-- The difference that is clamped. -/
def clampedDifference : Expr :=
  .sum (.percentage "100") "-" (.var "--x" (some (.number "1")))
    [("-", .number "2")]

theorem values_of_composition_openClamp :
    (Call.exp (some (.expr (.calc clampedDifference)))).compose =
        .ok (.exp clampedDifference) ∧
      openClamp.run =
        .ok (some (.expr (.clamp .openBound clampedDifference .openBound))) ∧
      (Expr.exp clampedDifference).values = clampedDifference.values ∧
      (Expr.clamp .openBound clampedDifference .openBound).values =
        [ .leaf .keyword "none",
          (Expr.percentage "100").tree,
          .leaf .customProperty "--x",
          .leaf .number "1",
          .leaf .number "2",
          .leaf .keyword "none"] := by
  have composed :
      (Call.exp (some (.expr (.calc clampedDifference)))).compose =
        .ok (.exp clampedDifference) := by
    rfl
  have success :
      openClamp.run =
        .ok (some (.expr
          (.clamp .openBound clampedDifference .openBound))) := by
    rfl
  refine ⟨composed, success, ?_, ?_⟩
  · rw [values_of_composition.1 _ _ composed]
    rfl
  · rw [values_of_composition.2 _ _ success]
    rfl

end CssMath
