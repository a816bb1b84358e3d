import CssMath.Tree.Outline
import Mathlib.Algebra.BigOperators.Group.List.Basic
import Mathlib.Algebra.GroupWithZero.Nat
import Mathlib.Data.Nat.Basic

/-!
# The structural reading of trees

A tree can be read along its layout: a branch stands for the row of its slots,
a slot for the subtrees that it holds, and a run for its slots one after the
other.  `Tree.layout` and `Tree.preorder` follow this reading by recursion over
nodes, slots and rows.

The functions that work on trees do not recurse.  Each of them is a loop of its
own over a stack of what is still to be visited.  A stack stands for what its
members stand for, and that is the invariant which relates each loop to the
reading (`Slot.gather_eq`, `Tree.countFrom_eq`, `Tree.depthFrom_le_iff`,
`Slot.write_eq`, `Tree.draw_eq`).  From there on the measures, the text and the
outline of a tree satisfy the equations of a recursion over its children.
-/

namespace CssMath

/-! ## The reading -/

mutual

/-- The subtrees that a slot holds, from left to right. -/
def Slot.subtrees : Slot → List Tree
  | .absent => []
  | .subtree tree => [tree]
  | .run slots => Slot.rowSubtrees slots

/-- The subtrees that a row of slots holds, from left to right. -/
def Slot.rowSubtrees : List Slot → List Tree
  | [] => []
  | slot :: rest => slot.subtrees ++ Slot.rowSubtrees rest

end

/-- The subtrees in the layout of a node; absent parts leave nothing. -/
def Tree.layout : Tree → List Tree
  | .leaf _ _ => []
  | .branch _ slots => Slot.rowSubtrees slots

/-- A node one step further from the root. -/
def Tree.deeper (node : Nat × Tree) : Nat × Tree :=
  (node.1 + 1, node.2)

mutual

/-- The nodes of a tree, each before the nodes below it, with their distances. -/
def Tree.preorder : Tree → List (Nat × Tree)
  | .leaf kind text => [(0, .leaf kind text)]
  | .branch kind slots =>
      (0, .branch kind slots) :: (Slot.rowPreorder slots).map Tree.deeper

/-- The nodes in a slot, with their distances from the subtrees it holds. -/
def Slot.preorder : Slot → List (Nat × Tree)
  | .absent => []
  | .subtree tree => tree.preorder
  | .run slots => Slot.rowPreorder slots

/-- The nodes in a row of slots, with their distances from its subtrees. -/
def Slot.rowPreorder : List Slot → List (Nat × Tree)
  | [] => []
  | slot :: rest => slot.preorder ++ Slot.rowPreorder rest

end

mutual

theorem Slot.preorder_eq :
    (slot : Slot) → slot.preorder = slot.subtrees.flatMap Tree.preorder
  | .absent => rfl
  | .subtree tree => by simp [Slot.preorder, Slot.subtrees]
  | .run slots => Slot.rowPreorder_eq slots

/-- The nodes in a row are those of its subtrees. -/
theorem Slot.rowPreorder_eq :
    (slots : List Slot) →
      Slot.rowPreorder slots =
        (Slot.rowSubtrees slots).flatMap Tree.preorder
  | [] => rfl
  | slot :: rest => by
      rw [Slot.rowPreorder, Slot.rowSubtrees, List.flatMap_append,
        Slot.preorder_eq slot, Slot.rowPreorder_eq rest]

end

/-- The root comes first, and then the nodes below each child. -/
theorem Tree.preorder_eq (tree : Tree) :
    tree.preorder =
      (0, tree) :: (tree.layout.flatMap Tree.preorder).map Tree.deeper := by
  cases tree with
  | leaf kind text => rfl
  | branch kind slots =>
      rw [Tree.preorder, Tree.layout, Slot.rowPreorder_eq]

/-- What holds of all nodes of a tree holds of the root and of all below it. -/
theorem Tree.forall_mem_preorder (tree : Tree) (holds : Nat × Tree → Prop) :
    (∀ node ∈ tree.preorder, holds node) ↔
      holds (0, tree) ∧
        ∀ child ∈ tree.layout, ∀ node ∈ child.preorder,
          holds (Tree.deeper node) := by
  rw [Tree.preorder_eq, List.forall_mem_cons, List.forall_mem_map]
  simp only [List.mem_flatMap, forall_exists_index, and_imp]
  exact and_congr_right fun _ => forall_comm.trans
    (forall_congr' fun child => forall_comm)

/-! ## Children -/

theorem Slot.rowSubtrees_append (left right : List Slot) :
    Slot.rowSubtrees (left ++ right) =
      Slot.rowSubtrees left ++ Slot.rowSubtrees right := by
  induction left with
  | nil => rfl
  | cons slot rest inductionHypothesis =>
      rw [List.cons_append, Slot.rowSubtrees, Slot.rowSubtrees,
        inductionHypothesis, List.append_assoc]

/-- Gathering adds what the pending slots hold to what was found before. -/
theorem Slot.gather_eq (pending : List Slot) (found : List Tree) :
    Slot.gather pending found =
      found.reverse ++ Slot.rowSubtrees pending := by
  fun_induction Slot.gather pending found with
  | case1 found => simp [Slot.rowSubtrees]
  | case2 found rest inductionHypothesis =>
      simpa [Slot.rowSubtrees, Slot.subtrees] using inductionHypothesis
  | case3 found tree rest inductionHypothesis =>
      simpa [Slot.rowSubtrees, Slot.subtrees] using inductionHypothesis
  | case4 found slots rest inductionHypothesis =>
      rw [inductionHypothesis, Slot.rowSubtrees_append]
      rfl

/-- The children of a node are the subtrees in its layout. -/
theorem Tree.children_eq_layout (tree : Tree) :
    tree.children = tree.layout := by
  cases tree with
  | leaf kind text => rfl
  | branch kind slots =>
      rw [Tree.children, Slot.gather_eq, Tree.layout]
      simp [Slot.rowSubtrees, Slot.subtrees]

/-! ## Node count -/

theorem Tree.length_preorder (tree : Tree) :
    tree.preorder.length =
      1 + (tree.layout.map fun child => child.preorder.length).sum := by
  rw [Tree.preorder_eq, List.length_cons, List.length_map,
    List.length_flatMap, Nat.add_comm]

/--
Counting adds the nodes of all pending trees to the earlier count.  The order
in which they are taken does not matter for a sum.
-/
theorem Tree.countFrom_eq (pending : List Tree) (count : Nat) :
    Tree.countFrom pending count =
      count + (pending.map fun tree => tree.preorder.length).sum := by
  fun_induction Tree.countFrom pending count with
  | case1 count => simp
  | case2 count tree rest inductionHypothesis =>
      rw [inductionHypothesis, List.map_append, List.sum_append,
        List.map_reverse, List.sum_reverse, Tree.children_eq_layout,
        List.map_cons, List.sum_cons, tree.length_preorder]
      omega

theorem Tree.nodeCount_eq_length (tree : Tree) :
    tree.nodeCount = tree.preorder.length := by
  rw [Tree.nodeCount, Tree.countFrom_eq]
  simp

theorem Tree.nodeCount_eq (tree : Tree) :
    tree.nodeCount = 1 + (tree.layout.map Tree.nodeCount).sum := by
  simp only [funext Tree.nodeCount_eq_length]
  exact tree.length_preorder

/-! ## Depth -/

/--
What the walk finds is within a bound just if this holds of the depth found
earlier and of the depths of all nodes of the pending trees.
-/
theorem Tree.depthFrom_le_iff
    (pending : List (Tree × Nat)) (deepest bound : Nat) :
    Tree.depthFrom pending deepest ≤ bound ↔
      deepest ≤ bound ∧
        ∀ item ∈ pending, ∀ node ∈ item.1.preorder,
          item.2 + node.1 ≤ bound := by
  fun_induction Tree.depthFrom pending deepest with
  | case1 deepest => simp
  | case2 deepest tree depth rest inductionHypothesis =>
      have step :
          (if deepest < depth then depth else deepest) ≤ bound ↔
            deepest ≤ bound ∧ depth ≤ bound := by
        split <;> omega
      rw [dite_eq_ite] at inductionHypothesis
      rw [inductionHypothesis, step, List.forall_mem_cons,
        tree.forall_mem_preorder]
      simp only [List.mem_append, List.mem_reverse, Tree.childrenWith,
        Tree.children_eq_layout, or_imp, forall_and, List.forall_mem_map,
        Tree.deeper, Nat.add_zero, Nat.add_assoc, Nat.add_comm 1, and_assoc]

/-- A bound on the depth is a bound on the distances of all nodes. -/
theorem Tree.depth_le_iff (tree : Tree) (bound : Nat) :
    tree.depth ≤ bound ↔ ∀ node ∈ tree.preorder, node.1 + 1 ≤ bound := by
  rw [Tree.depth, Tree.depthFrom_le_iff]
  simp [Nat.add_comm]

/-- The greatest of some numbers, zero if there are none. -/
def greatest (numbers : List Nat) : Nat :=
  numbers.foldr max 0

theorem greatest_le_iff (numbers : List Nat) (bound : Nat) :
    greatest numbers ≤ bound ↔ ∀ number ∈ numbers, number ≤ bound := by
  induction numbers with
  | nil => simp [greatest]
  | cons number rest inductionHypothesis =>
      rw [List.forall_mem_cons, ← inductionHypothesis]
      exact Nat.max_le

theorem Tree.depth_eq (tree : Tree) :
    tree.depth = 1 + greatest (tree.layout.map Tree.depth) := by
  apply eq_of_forall_ge_iff
  intro bound
  rw [Tree.depth_le_iff, Tree.forall_mem_preorder, Nat.add_comm 1]
  cases bound with
  | zero => simp
  | succ bound =>
      simp only [Nat.add_le_add_iff_right, greatest_le_iff,
        List.forall_mem_map, Tree.depth_le_iff, Tree.deeper, Nat.zero_le,
        true_and]

/-- The depth is one more than the distance of the deepest node. -/
theorem Tree.greatest_distance (tree : Tree) :
    greatest (tree.preorder.map Prod.fst) + 1 = tree.depth := by
  apply eq_of_forall_ge_iff
  intro bound
  rw [Tree.depth_le_iff]
  cases bound with
  | zero =>
      rw [Tree.preorder_eq, List.forall_mem_cons]
      simp
  | succ bound =>
      simp only [Nat.add_le_add_iff_right, greatest_le_iff,
        List.forall_mem_map]

/-! ## Text -/

theorem Slot.rowPreorder_append (left right : List Slot) :
    Slot.rowPreorder (left ++ right) =
      Slot.rowPreorder left ++ Slot.rowPreorder right := by
  simp only [Slot.rowPreorder_eq, Slot.rowSubtrees_append,
    List.flatMap_append]

/-- What the leaves among some nodes hold. -/
def leafTexts (nodes : List (Nat × Tree)) : List String :=
  nodes.filterMap fun node => node.2.leafText?

/-- The distances of nodes have no part in what they hold. -/
theorem leafTexts_deeper (nodes : List (Nat × Tree)) :
    leafTexts (nodes.map Tree.deeper) = leafTexts nodes := by
  rw [leafTexts, List.filterMap_map]
  rfl

theorem leafTexts_append (left right : List (Nat × Tree)) :
    leafTexts (left ++ right) = leafTexts left ++ leafTexts right :=
  List.filterMap_append

/-- A branch itself holds nothing, so the row of its slots can stand in its place. -/
theorem leafTexts_branch (kind : Kind) (slots : List Slot) :
    leafTexts (Tree.branch kind slots).preorder =
      leafTexts (Slot.rowPreorder slots) := by
  rw [Tree.preorder, ← leafTexts_deeper (Slot.rowPreorder slots)]
  rfl

/-- Writing adds what the leaves in the pending slots hold, in preorder. -/
theorem Slot.write_eq (pending : List Slot) (written : List String) :
    Slot.write pending written =
      written.reverse ++ leafTexts (Slot.rowPreorder pending) := by
  fun_induction Slot.write pending written with
  | case1 written => simp [Slot.rowPreorder, leafTexts]
  | case2 written rest inductionHypothesis =>
      rw [inductionHypothesis]
      rfl
  | case3 written slots rest inductionHypothesis =>
      rw [inductionHypothesis, Slot.rowPreorder_append]
      rfl
  | case4 written kind text rest inductionHypothesis =>
      rw [inductionHypothesis]
      simp [Slot.rowPreorder, Slot.preorder, Tree.preorder, leafTexts,
        Tree.leafText?]
  | case5 written kind slots rest inductionHypothesis =>
      simp only [inductionHypothesis, Slot.rowPreorder, Slot.preorder,
        leafTexts_append, leafTexts_branch]

theorem Tree.text_eq_join (tree : Tree) :
    tree.text =
      String.join (tree.preorder.filterMap fun node => node.2.leafText?) := by
  rw [Tree.text, Slot.write_eq]
  simp [Slot.rowPreorder, Slot.preorder, leafTexts]

@[simp]
theorem Tree.text_leaf (kind : Kind) (text : String) :
    (Tree.leaf kind text).text = text := by
  rw [Tree.text_eq_join]
  simp [Tree.preorder, Tree.leafText?]

theorem join_flatMap
    {α : Type*} (items : List α) (pieces : α → List String) :
    String.join (items.flatMap pieces) =
      String.join (items.map fun item => String.join (pieces item)) := by
  induction items with
  | nil => rfl
  | cons item rest inductionHypothesis =>
      rw [List.flatMap_cons, String.join_append, inductionHypothesis,
        List.map_cons, String.join_cons]

/-- The text of a branch is made of the texts of its children. -/
theorem Tree.text_branch (kind : Kind) (slots : List Slot) :
    (Tree.branch kind slots).text =
      String.join ((Slot.rowSubtrees slots).map Tree.text) := by
  rw [Tree.text_eq_join, Tree.preorder_eq, List.filterMap_cons_none rfl,
    List.filterMap_map, List.filterMap_flatMap, join_flatMap]
  congr 1
  apply List.map_congr_left
  intro child _
  rw [Tree.text_eq_join]
  rfl

/-! ## Outlines -/

/-- The line of a node in an outline whose root stands at some level. -/
def Tree.lineAt (shift : Int) (node : Nat × Tree) : String :=
  let margin :=
    String.ofList (List.replicate (2 * max 0 (shift + node.1)).toNat ' ')
  match node.2 with
  | .leaf kind text => margin ++ kind.name ++ ": " ++ "\"" ++ text ++ "\""
  | .branch kind _ => margin ++ kind.name

theorem pushn_empty (character : Char) (count : Nat) :
    "".pushn character count =
      String.ofList (List.replicate count character) := by
  rw [String.pushn_eq_repeat_push]
  induction count with
  | zero => rfl
  | succ count inductionHypothesis =>
      rw [Nat.repeat, inductionHypothesis, List.replicate_succ']
      simp

theorem margin_eq (level : Int) :
    margin level =
      String.ofList (List.replicate (2 * max 0 level).toNat ' ') := by
  have steps : 2 * level.toNat = (2 * max 0 level).toNat := by omega
  rw [margin, pushn_empty, steps]

/-- A node one step further down stands at the level below. -/
theorem Tree.lineAt_deeper (shift : Int) (node : Nat × Tree) :
    Tree.lineAt shift (Tree.deeper node) = Tree.lineAt (shift + 1) node := by
  have sameLevel : shift + ((node.1 + 1 : Nat) : Int) = shift + 1 + node.1 := by
    omega
  simp only [Tree.lineAt, Tree.deeper, sameLevel]

/-- The lines of a tree whose root stands at some level. -/
def Tree.linesFrom (item : Tree × Int) : List String :=
  item.1.preorder.map (Tree.lineAt item.2)

/-- The line of the root stands above the lines of the children. -/
theorem Tree.linesFrom_eq (tree : Tree) (level : Int) :
    Tree.linesFrom (tree, level) =
      Tree.lineAt level (0, tree) ::
        (tree.childrenWith (level + 1)).flatMap Tree.linesFrom := by
  simp only [Tree.linesFrom, Tree.childrenWith, Tree.children_eq_layout,
    List.flatMap_map]
  rw [Tree.preorder_eq, List.map_cons, List.map_map, List.map_flatMap]
  simp only [Function.comp_def, Tree.lineAt_deeper]

/-- Drawing adds the lines of the pending trees to those drawn before. -/
theorem Tree.draw_eq (pending : List (Tree × Int)) (lines : List String) :
    Tree.draw pending lines =
      lines.reverse ++ pending.flatMap Tree.linesFrom := by
  fun_induction Tree.draw pending lines with
  | case1 lines => simp
  | case2 lines kind text level rest inductionHypothesis =>
      rw [inductionHypothesis, List.flatMap_cons, Tree.linesFrom_eq]
      simp [Tree.childrenWith, Tree.children, Tree.lineAt, margin_eq,
        String.append_assoc]
  | case3 lines kind slots level rest inductionHypothesis =>
      rw [inductionHypothesis, List.flatMap_cons, Tree.linesFrom_eq]
      simp [Tree.lineAt, margin_eq]

theorem Tree.outline_eq (tree : Tree) (shift : Int) :
    tree.outline shift =
      "\n".intercalate (tree.preorder.map (Tree.lineAt shift)) := by
  rw [Tree.outline, Tree.draw_eq]
  simp [Tree.linesFrom]

/-! ## Agreement -/

/--
All that is computed from a tree, read along its layout.  The last three
equations relate the outline, which has one line for each node of the
preorder, to the measures and to the text.
-/
structure Tree.ReadAlongLayout (tree : Tree) (shift : Int) : Prop where
  children :
    tree.children = tree.layout
  nodeCount :
    tree.nodeCount = 1 + (tree.layout.map Tree.nodeCount).sum
  depth :
    tree.depth = 1 + greatest (tree.layout.map Tree.depth)
  text :
    tree.text =
      match tree with
      | .leaf _ text => text
      | .branch _ _ => String.join (tree.layout.map Tree.text)
  outline :
    tree.outline shift =
      "\n".intercalate (tree.preorder.map (Tree.lineAt shift))
  lineCount :
    tree.preorder.length = tree.nodeCount
  deepestLine :
    greatest (tree.preorder.map Prod.fst) + 1 = tree.depth
  quotedTexts :
    String.join (tree.preorder.filterMap fun node => node.2.leafText?) =
      tree.text

/-- The functions on trees agree with the structural reading of every tree. -/
theorem Tree.readAlongLayout (tree : Tree) (shift : Int) :
    tree.ReadAlongLayout shift where
  children := tree.children_eq_layout
  nodeCount := tree.nodeCount_eq
  depth := tree.depth_eq
  text := by
    cases tree with
    | leaf kind text => exact Tree.text_leaf kind text
    | branch kind slots => exact Tree.text_branch kind slots
  outline := tree.outline_eq shift
  lineCount := tree.nodeCount_eq_length.symm
  deepestLine := tree.greatest_distance
  quotedTexts := tree.text_eq_join.symm

end CssMath
