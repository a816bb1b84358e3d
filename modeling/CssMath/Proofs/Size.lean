import CssMath.Expr.Layout
import CssMath.Proofs.Arithmetic
import CssMath.Proofs.Chain
import CssMath.Proofs.Tree.Bounds

/-!
# Sizes of expressions

The size of an expression is that of its tree.  It is told from the sizes of
its parts: the layout adds a node for the expression itself and some for names,
brackets, commas and operators (`Expr.nodeCount_eq`), and the parts stand one
level deeper than the whole (`Expr.depth_le_succ_iff`).

A chain is as large as its members with an operator in front of each but the
first.  Taking an expression apart into a chain adds nothing, apart from the
brackets of a sum among factors, and joining chains adds one operator for each.
-/

namespace CssMath

universe u

/-! ## Rows -/

namespace Slot

@[simp]
theorem size_token (text : String) : (token text).size = 1 := rfl

@[simp]
theorem size_functionName (name : String) : (functionName name).size = 1 := rfl

@[simp]
theorem height_token (text : String) : (token text).height = 1 := rfl

@[simp]
theorem height_functionName (name : String) :
    (functionName name).height = 1 := rfl

theorem rowSize_map_run
    {α : Type u} (items : List α) (slots : α → List Slot) :
    rowSize (items.map fun item => .run (slots item)) =
      (items.map fun item => rowSize (slots item)).sum := by
  induction items with
  | nil => rfl
  | cons item rest inductionHypothesis =>
      rw [List.map_cons, rowSize, inductionHypothesis, List.map_cons,
        List.sum_cons, size]

theorem rowHeight_map_run_le_iff
    {α : Type u} {items : List α} {slots : α → List Slot} {bound : Nat} :
    rowHeight (items.map fun item => .run (slots item)) ≤ bound ↔
      ∀ item ∈ items, rowHeight (slots item) ≤ bound := by
  induction items with
  | nil => simp [rowHeight]
  | cons item rest inductionHypothesis =>
      rw [List.map_cons, rowHeight, Nat.max_le, inductionHypothesis,
        List.forall_mem_cons, height]

end Slot

/-! ## Expressions -/

namespace Expr

/-- The number of nodes in the tree of an expression. -/
def nodeCount (expression : Expr) : Nat :=
  expression.tree.nodeCount

/-- The depth of the tree of an expression. -/
def depth (expression : Expr) : Nat :=
  expression.tree.depth

/-- The number of leaves that the layout of an expression adds to its parts. -/
def punctuation : Expr → Nat
  | .leaf _ _ => 0
  | .dimension _ _ => 2
  | .percentage _ => 2
  | .group _ => 2
  | .var _ fallback => 4 + fallback.toList.length
  | .calc _ => 3
  | .exp _ => 3
  | .pow _ _ => 4
  | .round strategy _ interval =>
      3 + 2 * strategy.toList.length + interval.toList.length
  | .extremum _ _ rest => 3 + rest.length
  | .clamp _ _ _ => 5
  | .product _ _ _ rest => 1 + rest.length
  | .sum _ _ _ rest => 1 + rest.length

theorem size_tree (expression : Expr) :
    expression.tree.size = expression.nodeCount :=
  expression.tree.nodeCount_eq_size.symm

theorem height_tree (expression : Expr) :
    expression.tree.height = expression.depth :=
  expression.tree.depth_eq_height.symm

theorem size_optionalSlot (part : Option Expr) :
    (optionalSlot part).size =
      part.toList.length + (part.toList.map nodeCount).sum := by
  cases part <;> simp [optionalSlot, Slot.size, Slot.rowSize, size_tree]

theorem size_strategySlot (strategy : Option String) :
    (strategySlot strategy).size = 2 * strategy.toList.length := by
  cases strategy <;>
    simp [strategySlot, Slot.size, Slot.rowSize, Tree.size]

/-- An expression has its parts, what is put around them, and itself. -/
theorem nodeCount_eq (expression : Expr) :
    expression.nodeCount =
      1 + expression.punctuation +
        (expression.parts.map nodeCount).sum := by
  rw [← size_tree]
  cases expression with
  | leaf kind text => rfl
  | dimension numeral unit => rfl
  | percentage numeral => rfl
  | _ =>
      rw [tree, Tree.size]
      simp only [Slot.rowSize, Slot.size, Slot.size_token,
        Slot.size_functionName, Slot.rowSize_map_run, size_optionalSlot,
        size_strategySlot, itemSlots_eq_map, factorSlots_eq_map,
        termSlots_eq_map, sumToken, Tree.size, size_tree, List.sum_map_add,
        List.map_const', List.sum_replicate_nat, List.map_map, Function.comp_def,
        parts, punctuation, List.map_cons, List.map_nil, List.sum_cons,
        List.sum_nil, Nat.mul_one]
      omega

theorem height_optionalSlot_le_iff
    {part : Option Expr} {bound : Nat} (positive : 1 ≤ bound) :
    (optionalSlot part).height ≤ bound ↔
      ∀ expression ∈ part, expression.depth ≤ bound := by
  cases part <;>
    simp [optionalSlot, Slot.height, Slot.rowHeight, height_tree, positive]

theorem height_strategySlot_le
    {strategy : Option String} {bound : Nat} (positive : 1 ≤ bound) :
    (strategySlot strategy).height ≤ bound := by
  cases strategy <;>
    simp [strategySlot, Slot.height, Slot.rowHeight, Tree.height, positive]

/-- The parts of an expression stand one level deeper than the whole. -/
theorem depth_le_succ_iff
    {expression : Expr} {bound : Nat} (positive : 1 ≤ bound) :
    expression.depth ≤ bound + 1 ↔
      ∀ part ∈ expression.parts, part.depth ≤ bound := by
  rw [← height_tree]
  cases expression with
  | leaf kind text => simp [tree, Tree.height, parts]
  | _ =>
      rw [tree, Tree.height, Nat.add_comm, Nat.add_le_add_iff_right]
      simp [-Prod.forall, -Prod.exists, Slot.rowHeight, Slot.height,
        Slot.rowHeight_map_run_le_iff, height_optionalSlot_le_iff positive,
        height_strategySlot_le positive, itemSlots_eq_map, factorSlots_eq_map,
        termSlots_eq_map, sumToken, Tree.height, height_tree, positive, parts]

/-! ## What is no larger -/

theorem one_le_depth (expression : Expr) : 1 ≤ expression.depth := by
  rw [← height_tree]
  cases expression <;> simp [tree, Tree.height]

/-- An expression that exceeds another neither in nodes nor in depth. -/
structure NoLarger (expression whole : Expr) : Prop where
  nodeCount : expression.nodeCount ≤ whole.nodeCount
  depth : expression.depth ≤ whole.depth

theorem NoLarger.refl (expression : Expr) : expression.NoLarger expression :=
  ⟨le_rfl, le_rfl⟩

theorem NoLarger.trans
    {inner middle outer : Expr}
    (first : inner.NoLarger middle)
    (second : middle.NoLarger outer) :
    inner.NoLarger outer :=
  ⟨first.nodeCount.trans second.nodeCount, first.depth.trans second.depth⟩

theorem noLarger_leaf (kind : LeafKind) (text : String) (whole : Expr) :
    (leaf kind text).NoLarger whole where
  nodeCount := by
    rw [nodeCount_eq, whole.nodeCount_eq]
    simp only [punctuation, parts, List.map_nil, List.sum_nil]
    omega
  depth := by
    rw [← height_tree]
    exact whole.one_le_depth

theorem noLarger_of_mem_parts
    {part whole : Expr} (member : part ∈ whole.parts) :
    part.NoLarger whole where
  nodeCount := by
    have counted : part.nodeCount ≤ (whole.parts.map Expr.nodeCount).sum :=
      List.le_sum_of_mem (List.mem_map_of_mem member)
    rw [whole.nodeCount_eq]
    omega
  depth := by
    -- One level is granted to the parts, also where there is none below them.
    have below := (depth_le_succ_iff (le_max_left 1 (whole.depth - 1))).mp
      (by omega) part member
    have positive := whole.one_le_depth
    omega

/-- Removing a calculation leaves a part of what there was. -/
theorem noLarger_withoutOneCalc (expression : Expr) :
    expression.withoutOneCalc.NoLarger expression := by
  fun_cases withoutOneCalc expression with
  | case1 content => exact noLarger_of_mem_parts (by simp [parts])
  | case2 expression noCalc => exact NoLarger.refl expression

theorem noLarger_withoutCalc (expression : Expr) :
    expression.withoutCalc.NoLarger expression := by
  fun_induction withoutCalc expression with
  | case1 content inductionHypothesis =>
      exact inductionHypothesis.trans (noLarger_of_mem_parts (by simp [parts]))
  | case2 expression noCalc => exact NoLarger.refl expression

end Expr

/-! ## Chains -/

namespace Chain

/-- The members of a chain, from left to right. -/
def members (chain : Chain) : List Expr :=
  chain.first :: chain.rest.map Prod.snd

theorem members_behind
    (operator : String) (carry : String → String) (chain : Chain) :
    (chain.behind operator carry).map Prod.snd = chain.members := by
  simp [behind, members, Function.comp_def]

/-- Joining chains changes no member. -/
theorem members_join
    {operator : String} {carry : String → String}
    {chains : List Chain} {joined : Chain}
    (joins : join operator carry chains = some joined) :
    joined.members = chains.flatMap members := by
  cases chains with
  | nil => simp [join] at joins
  | cons leading others =>
      simp only [join, Option.some.injEq] at joins
      subst joined
      rw [members, List.map_append, List.map_flatMap, List.flatMap_cons]
      simp only [members_behind]
      rfl

end Chain

namespace Expr

/-- The nodes of some expressions, and an operator for each of them. -/
def chainCount (members : List Expr) : Nat :=
  (members.map fun member => 1 + member.nodeCount).sum

theorem chainCount_eq (members : List Expr) :
    chainCount members = members.length + (members.map nodeCount).sum := by
  simp [chainCount, List.sum_map_add]

theorem chainCount_flatMap
    {α : Type u} (items : List α) (members : α → List Expr) :
    chainCount (items.flatMap members) =
      (items.map fun item => chainCount (members item)).sum := by
  simp [chainCount, List.flatMap_def, List.map_flatten, List.map_map,
    Function.comp_def]

/-- A chain has no operator in front of its first part, and counts itself instead. -/
theorem nodeCount_eq_chainCount
    {expression : Expr}
    (chain : expression.punctuation + 1 = expression.parts.length) :
    expression.nodeCount = chainCount expression.parts := by
  rw [nodeCount_eq, chainCount_eq, ← chain, Nat.add_comm 1]

/--
Taken apart into a chain, an expression is a single member, as it is or in
brackets, or its parts are the members.
-/
theorem members_chainAt (level : Kind) (expression : Expr) :
    (expression.chainAt level).members = [expression] ∨
      (expression.chainAt level).members = [.group expression] ∨
      (expression.chainAt level).members = expression.parts ∧
        expression.nodeCount = chainCount expression.parts := by
  by_cases isSum : level = .sum
  · subst isSum
    cases expression with
    | sum first operator second rest =>
        refine Or.inr (Or.inr ⟨?_, nodeCount_eq_chainCount ?_⟩)
        · simp [chainAt, terms, Chain.members, trimmedTerms, parts,
            Function.comp_def]
        · simp [punctuation, parts, Nat.add_comm]
    | _ => exact Or.inl rfl
  · rw [chainAt_of_ne isSum]
    cases expression with
    | product first operator second rest =>
        refine Or.inr (Or.inr ⟨rfl, nodeCount_eq_chainCount ?_⟩)
        simp [punctuation, parts, Nat.add_comm]
    | sum first operator second rest => exact Or.inr (Or.inl rfl)
    | _ => exact Or.inl rfl

/--
The sum or product of a chain is its only member, or has the members as its
parts and gives them back.
-/
theorem ofChain_cases (level : Kind) (chain : Chain) :
    ofChain level chain = chain.first ∧ chain.members = [chain.first] ∨
      (ofChain level chain).parts = chain.members ∧
        (ofChain level chain).nodeCount = chainCount chain.members ∧
        ((ofChain level chain).withoutCalc.chainAt level).members =
          chain.members := by
  rcases chain with ⟨first, _ | ⟨step, rest⟩⟩ <;>
    by_cases isSum : level = .sum
  · subst isSum
    exact Or.inl ⟨rfl, rfl⟩
  · rw [ofChain_of_ne isSum]
    exact Or.inl ⟨rfl, rfl⟩
  · subst isSum
    refine Or.inr ⟨rfl, nodeCount_eq_chainCount ?_, ?_⟩
    · simp [ofChain, sumOf, punctuation, parts, Nat.add_comm]
    · simp [ofChain, sumOf, withoutCalc, chainAt, terms, Chain.members,
        trimmedTerms, Function.comp_def]
  · rw [ofChain_of_ne isSum, chainAt_of_ne isSum]
    refine Or.inr ⟨rfl, nodeCount_eq_chainCount ?_, rfl⟩
    simp [productOf, punctuation, parts, Nat.add_comm]

/-- At most the brackets of a sum are added to what is taken apart. -/
theorem chainCount_chainAt_le (level : Kind) (expression : Expr) :
    chainCount (expression.chainAt level).members ≤
      expression.nodeCount + 4 := by
  rcases expression.members_chainAt level with
    alone | bracketed | ⟨parts, counted⟩
  · rw [alone, chainCount, List.map_singleton, List.sum_singleton]
    omega
  · have brackets : expression.group.nodeCount = 3 + expression.nodeCount := by
      simp [nodeCount_eq expression.group, punctuation, Expr.parts]
    rw [bracketed, chainCount, List.map_singleton, List.sum_singleton,
      brackets]
    omega
  · rw [parts, counted]
    omega

theorem nodeCount_ofChain_le (level : Kind) (chain : Chain) :
    (ofChain level chain).nodeCount ≤ chainCount chain.members := by
  rcases ofChain_cases level chain with ⟨only, members⟩ | ⟨_, counted, _⟩
  · rw [only, members, chainCount_eq]
    simp
  · exact counted.le

variable
    {expression : Expr}
    {bound : Nat}

theorem depth_members_chainAt_le
    (level : Kind) (bounded : expression.depth ≤ bound) :
    ∀ member ∈ (expression.chainAt level).members,
      member.depth ≤ bound + 1 := by
  have positive := expression.one_le_depth.trans bounded
  intro member inChain
  rcases expression.members_chainAt level with
    alone | bracketed | ⟨members, _⟩
  · rw [alone, List.mem_singleton] at inChain
    subst inChain
    omega
  · rw [bracketed, List.mem_singleton] at inChain
    subst inChain
    rw [depth_le_succ_iff positive]
    simpa [parts] using bounded
  · rw [members] at inChain
    have part := (noLarger_of_mem_parts inChain).depth
    omega

theorem depth_ofChain_le
    {chain : Chain}
    (level : Kind) (positive : 1 ≤ bound)
    (bounded : ∀ member ∈ chain.members, member.depth ≤ bound) :
    (ofChain level chain).depth ≤ bound + 1 := by
  rcases ofChain_cases level chain with ⟨only, members⟩ | ⟨members, _, _⟩
  · rw [only]
    have shallow := bounded chain.first (by simp [members])
    omega
  · rw [depth_le_succ_iff positive, members]
    exact bounded

end Expr

end CssMath
