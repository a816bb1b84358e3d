import CssMath.Proofs.Tree.Structure
import CssMath.Tree.Bounds
import Mathlib.Algebra.Order.BigOperators.Group.List
import Mathlib.Algebra.Order.Group.Int
import Mathlib.Algebra.Order.Group.Nat

/-!
# Trees within bounds

The node count and the depth of a tree are what a recursion over its layout
finds (`Tree.nodeCount_eq_size`, `Tree.depth_eq_height`).  Neither of them is
greater for a node within a tree than for the tree.

The check of a tree compares the two with their bounds and passes just if
neither is exceeded.  Of two excesses it reports that of the node count.  What
it passes it also passes within, and under larger bounds.
-/

namespace CssMath

/-! ## Measures by recursion -/

mutual

/-- The number of nodes in a tree. -/
def Tree.size : Tree → Nat
  | .leaf _ _ => 1
  | .branch _ slots => 1 + Slot.rowSize slots

/-- The number of nodes in a slot. -/
def Slot.size : Slot → Nat
  | .absent => 0
  | .subtree tree => tree.size
  | .run slots => Slot.rowSize slots

/-- The number of nodes in a row of slots. -/
def Slot.rowSize : List Slot → Nat
  | [] => 0
  | slot :: rest => slot.size + Slot.rowSize rest

end

mutual

/-- The number of nodes on the longest path down a tree. -/
def Tree.height : Tree → Nat
  | .leaf _ _ => 1
  | .branch _ slots => 1 + Slot.rowHeight slots

/-- The height of the highest tree in a slot, zero if there is none. -/
def Slot.height : Slot → Nat
  | .absent => 0
  | .subtree tree => tree.height
  | .run slots => Slot.rowHeight slots

/-- The height of the highest tree in a row of slots. -/
def Slot.rowHeight : List Slot → Nat
  | [] => 0
  | slot :: rest => max slot.height (Slot.rowHeight rest)

end

theorem greatest_append (left right : List Nat) :
    greatest (left ++ right) = max (greatest left) (greatest right) := by
  apply eq_of_forall_ge_iff
  intro bound
  rw [Nat.max_le, greatest_le_iff, greatest_le_iff, greatest_le_iff,
    List.forall_mem_append]

mutual

/-- As many nodes are met in preorder as the recursion counts. -/
theorem Tree.nodeCount_eq_size : (tree : Tree) → tree.nodeCount = tree.size
  | .leaf kind text => Tree.nodeCount_eq (.leaf kind text)
  | .branch kind slots => by
      rw [Tree.nodeCount_eq, Tree.layout, Slot.sum_nodeCount_row slots,
        Tree.size]

theorem Slot.sum_nodeCount :
    (slot : Slot) → (slot.subtrees.map Tree.nodeCount).sum = slot.size
  | .absent => rfl
  | .subtree tree => by
      simp [Slot.subtrees, Slot.size, Tree.nodeCount_eq_size tree]
  | .run slots => Slot.sum_nodeCount_row slots

theorem Slot.sum_nodeCount_row :
    (slots : List Slot) →
      ((Slot.rowSubtrees slots).map Tree.nodeCount).sum = Slot.rowSize slots
  | [] => rfl
  | slot :: rest => by
      rw [Slot.rowSubtrees, List.map_append, List.sum_append,
        Slot.sum_nodeCount slot, Slot.sum_nodeCount_row rest, Slot.rowSize]

end

mutual

/-- The deepest node is met as far down as the recursion goes. -/
theorem Tree.depth_eq_height : (tree : Tree) → tree.depth = tree.height
  | .leaf kind text => Tree.depth_eq (.leaf kind text)
  | .branch kind slots => by
      rw [Tree.depth_eq, Tree.layout, Slot.greatest_depth_row slots,
        Tree.height]

theorem Slot.greatest_depth :
    (slot : Slot) → greatest (slot.subtrees.map Tree.depth) = slot.height
  | .absent => rfl
  | .subtree tree => by
      simp [Slot.subtrees, Slot.height, greatest, Tree.depth_eq_height tree]
  | .run slots => Slot.greatest_depth_row slots

theorem Slot.greatest_depth_row :
    (slots : List Slot) →
      greatest ((Slot.rowSubtrees slots).map Tree.depth) =
        Slot.rowHeight slots
  | [] => rfl
  | slot :: rest => by
      rw [Slot.rowSubtrees, List.map_append, greatest_append,
        Slot.greatest_depth slot, Slot.greatest_depth_row rest,
        Slot.rowHeight]

end

/-! ## Nodes within a tree -/

/-- A node is within itself and within every tree that has a child it is within. -/
inductive Tree.Within : Tree → Tree → Prop where
  | here (tree : Tree) :
      Within tree tree
  | inChild {inner child whole : Tree}
      (member : child ∈ whole.children)
      (inside : Within inner child) :
      Within inner whole

theorem Tree.nodeCount_le_of_mem_children
    {child whole : Tree} (member : child ∈ whole.children) :
    child.nodeCount ≤ whole.nodeCount := by
  rw [Tree.children_eq_layout] at member
  have counted : child.nodeCount ≤ (whole.layout.map Tree.nodeCount).sum :=
    List.le_sum_of_mem (List.mem_map_of_mem member)
  rw [whole.nodeCount_eq]
  omega

theorem Tree.depth_le_of_mem_children
    {child whole : Tree} (member : child ∈ whole.children) :
    child.depth ≤ whole.depth := by
  rw [Tree.children_eq_layout] at member
  have reached : child.depth ≤ greatest (whole.layout.map Tree.depth) :=
    (greatest_le_iff _ _).mp le_rfl _ (List.mem_map_of_mem member)
  rw [whole.depth_eq]
  omega

theorem Tree.Within.nodeCount_le
    {inner whole : Tree} (within : inner.Within whole) :
    inner.nodeCount ≤ whole.nodeCount := by
  induction within with
  | here => exact le_rfl
  | inChild member inside inductionHypothesis =>
      exact
        inductionHypothesis.trans (Tree.nodeCount_le_of_mem_children member)

theorem Tree.Within.depth_le
    {inner whole : Tree} (within : inner.Within whole) :
    inner.depth ≤ whole.depth := by
  induction within with
  | here => exact le_rfl
  | inChild member inside inductionHypothesis =>
      exact inductionHypothesis.trans (Tree.depth_le_of_mem_children member)

/-! ## The check -/

namespace Bounds

variable
    {bounds : Bounds}
    {tree : Tree}

theorem check_of_too_many (excess : bounds.maxNodes < tree.nodeCount) :
    bounds.check tree =
      .error ⟨.nodes, bounds.maxNodes, tree.nodeCount⟩ := by
  simp [check, checkNodes, excess, bind, Except.bind]

theorem check_of_too_deep
    (fewEnough : (tree.nodeCount : Int) ≤ bounds.maxNodes)
    (excess : bounds.maxDepth < tree.depth) :
    bounds.check tree = .error ⟨.depth, bounds.maxDepth, tree.depth⟩ := by
  simp [check, checkNodes, checkDepth, not_lt.mpr fewEnough, excess, bind,
    Except.bind]

/-- A tree passes just if neither of its measures exceeds its bound. -/
theorem check_eq_ok_iff :
    bounds.check tree = .ok () ↔
      (tree.nodeCount : Int) ≤ bounds.maxNodes ∧
        (tree.depth : Int) ≤ bounds.maxDepth := by
  rcases lt_or_ge bounds.maxNodes (tree.nodeCount : Int) with
    tooMany | fewEnough
  · rw [check_of_too_many tooMany]
    simp [not_le.mpr tooMany]
  rcases lt_or_ge bounds.maxDepth (tree.depth : Int) with
    tooDeep | shallow
  · rw [check_of_too_deep fewEnough tooDeep]
    simp [not_le.mpr tooDeep]
  · simp [check, checkNodes, checkDepth, not_lt.mpr fewEnough,
      not_lt.mpr shallow, fewEnough, shallow, bind, Except.bind]

/-- The greatest number of nodes that passes. -/
def nodeLimit : Option Bounds → Int
  | none => 4096
  | some bounds => bounds.maxNodes

/-- The greatest depth that passes. -/
def depthLimit : Option Bounds → Int
  | none => 256
  | some bounds => bounds.maxDepth

theorem maxNodes_orStandard (given : Option Bounds) :
    (orStandard given).maxNodes = nodeLimit given := by
  cases given <;> rfl

theorem maxDepth_orStandard (given : Option Bounds) :
    (orStandard given).maxDepth = depthLimit given := by
  cases given <;> rfl

/--
How the check of a tree ends, by its measures and the bounds that are given or
standard, and what else passes if the tree does.
-/
structure ChecksExactly (given : Option Bounds) (tree : Tree) : Prop where
  passes :
    (orStandard given).check tree = .ok () ↔
      (tree.size : Int) ≤ nodeLimit given ∧
        (tree.height : Int) ≤ depthLimit given
  tooMany :
    nodeLimit given < tree.size →
      (orStandard given).check tree =
        .error ⟨.nodes, nodeLimit given, tree.size⟩
  tooDeep :
    (tree.size : Int) ≤ nodeLimit given →
      depthLimit given < tree.height →
        (orStandard given).check tree =
          .error ⟨.depth, depthLimit given, tree.height⟩
  within :
    (orStandard given).check tree = .ok () →
      ∀ inner, inner.Within tree →
        (orStandard given).check inner = .ok ()
  larger :
    (orStandard given).check tree = .ok () →
      ∀ larger, nodeLimit given ≤ nodeLimit larger →
        depthLimit given ≤ depthLimit larger →
          (orStandard larger).check tree = .ok ()

/-- The check is exact for every tree under any bounds or none. -/
theorem checksExactly (given : Option Bounds) (tree : Tree) :
    ChecksExactly given tree where
  passes := by
    rw [check_eq_ok_iff, maxNodes_orStandard, maxDepth_orStandard,
      tree.nodeCount_eq_size, tree.depth_eq_height]
  tooMany excess := by
    rw [← tree.nodeCount_eq_size, ← maxNodes_orStandard] at *
    exact check_of_too_many excess
  tooDeep fewEnough excess := by
    rw [← tree.nodeCount_eq_size, ← maxNodes_orStandard] at fewEnough
    rw [← tree.depth_eq_height, ← maxDepth_orStandard] at *
    exact check_of_too_deep fewEnough excess
  within passed inner inside := by
    rw [check_eq_ok_iff] at *
    have fewer := inside.nodeCount_le
    have lower := inside.depth_le
    omega
  larger passed larger moreNodes moreDepth := by
    rw [← maxNodes_orStandard, ← maxNodes_orStandard] at moreNodes
    rw [← maxDepth_orStandard, ← maxDepth_orStandard] at moreDepth
    rw [check_eq_ok_iff] at *
    omega

end Bounds

end CssMath
