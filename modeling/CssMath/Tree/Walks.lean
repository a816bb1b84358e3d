import CssMath.Tree.Basic

/-!
# Walks through a tree

The node count, the depth and the text of a tree.  Each of them is found by a
walk of its own, which keeps a stack of what is still to be visited and so
needs no call stack, however deep the tree is.  The head of the list of pending
items is the top of the stack.

The walks do not visit a tree in the same order.  Counting and measuring put
the children of a node on the stack from left to right, and so take the last of
them first.  Writing puts slots on the stack and not only nodes, and puts them
there from right to left, since the leaves are wanted from left to right.
-/

namespace CssMath

/-! ## Weights of children -/

/-- The sum of the weights of several trees. -/
def Tree.forestWeight : List Tree → Nat
  | [] => 0
  | tree :: rest => tree.weight + Tree.forestWeight rest

theorem Tree.forestWeight_append (left right : List Tree) :
    Tree.forestWeight (left ++ right) =
      Tree.forestWeight left + Tree.forestWeight right := by
  induction left with
  | nil => simp [Tree.forestWeight]
  | cons tree rest inductionHypothesis =>
      simp only [List.cons_append, Tree.forestWeight, inductionHypothesis]
      omega

theorem Tree.forestWeight_reverse (trees : List Tree) :
    Tree.forestWeight trees.reverse = Tree.forestWeight trees := by
  induction trees with
  | nil => rfl
  | cons tree rest inductionHypothesis =>
      simp only [List.reverse_cons, Tree.forestWeight_append,
        Tree.forestWeight, inductionHypothesis]
      omega

theorem Slot.forestWeight_gather
    (pending : List Slot) (found : List Tree) :
    Tree.forestWeight (Slot.gather pending found) ≤
      Slot.rowWeight pending + Tree.forestWeight found := by
  fun_induction Slot.gather pending found with
  | case1 found =>
      simp [Tree.forestWeight_reverse, Slot.rowWeight]
  | case2 found rest inductionHypothesis =>
      simp only [Slot.rowWeight, Slot.weight]
      omega
  | case3 found tree rest inductionHypothesis =>
      simp only [Slot.rowWeight, Slot.weight]
      simp only [Tree.forestWeight] at *
      omega
  | case4 found slots rest inductionHypothesis =>
      simp only [Slot.rowWeight, Slot.weight]
      rw [Slot.rowWeight_append] at inductionHypothesis
      omega

/-- The children of a node weigh less than the node. -/
theorem Tree.forestWeight_children (tree : Tree) :
    Tree.forestWeight tree.children < tree.weight := by
  cases tree with
  | leaf kind text =>
      simp [Tree.children, Tree.forestWeight, Tree.weight]
  | branch kind slots =>
      have bound := Slot.forestWeight_gather slots []
      simp only [Tree.forestWeight] at bound
      simp only [Tree.children, Slot.gather_run, List.append_nil, Tree.weight]
      omega

/-! ## Node count -/

/-- Count the pending trees and the nodes below them, and add an earlier count. -/
def Tree.countFrom (pending : List Tree) (count : Nat) : Nat :=
  match pending with
  | [] => count
  | tree :: rest => countFrom (tree.children.reverse ++ rest) (count + 1)
  termination_by Tree.forestWeight pending
  decreasing_by
    have bound := tree.forestWeight_children
    simp only [Tree.forestWeight_append, Tree.forestWeight_reverse,
      Tree.forestWeight]
    omega

/-- The number of nodes in a tree, punctuation included. -/
def Tree.nodeCount (tree : Tree) : Nat :=
  Tree.countFrom [tree] 0

/-! ## Depth -/

/-- The sum of the weights of several trees that come with some value. -/
def Tree.pendingWeight {α : Type} (pending : List (Tree × α)) : Nat :=
  Tree.forestWeight (pending.map Prod.fst)

/-- The children of a node, each with the same value. -/
def Tree.childrenWith {α : Type} (tree : Tree) (value : α) : List (Tree × α) :=
  tree.children.map fun child => (child, value)

theorem Tree.pendingWeight_childrenWith
    {α : Type} (tree : Tree) (value value' : α) (rest : List (Tree × α)) :
    Tree.pendingWeight (tree.childrenWith value' ++ rest) <
      Tree.pendingWeight ((tree, value) :: rest) := by
  have forgetValue :
      (tree.childrenWith value').map Prod.fst = tree.children := by
    simp [Tree.childrenWith, Function.comp_def]
  have bound := tree.forestWeight_children
  simp only [Tree.pendingWeight, List.map_append, List.map_cons,
    Tree.forestWeight_append, Tree.forestWeight, forgetValue]
  omega

theorem Tree.pendingWeight_childrenWith_reverse
    {α : Type} (tree : Tree) (value value' : α) (rest : List (Tree × α)) :
    Tree.pendingWeight ((tree.childrenWith value').reverse ++ rest) <
      Tree.pendingWeight ((tree, value) :: rest) := by
  have sameWeight :
      Tree.pendingWeight ((tree.childrenWith value').reverse ++ rest) =
        Tree.pendingWeight (tree.childrenWith value' ++ rest) := by
    simp only [Tree.pendingWeight, List.map_append, List.map_reverse,
      Tree.forestWeight_append, Tree.forestWeight_reverse]
  rw [sameWeight]
  exact Tree.pendingWeight_childrenWith tree value value' rest

/--
Visit the pending nodes, each of which comes with its depth, and the nodes
below them, and find the greatest depth there is, or the one found earlier.
-/
def Tree.depthFrom (pending : List (Tree × Nat)) (deepest : Nat) : Nat :=
  match pending with
  | [] => deepest
  | (tree, depth) :: rest =>
      depthFrom ((tree.childrenWith (depth + 1)).reverse ++ rest)
        (if deepest < depth then depth else deepest)
  termination_by Tree.pendingWeight pending
  decreasing_by
    exact Tree.pendingWeight_childrenWith_reverse tree depth (depth + 1) rest

/-- The number of nodes on the longest path down from the root. -/
def Tree.depth (tree : Tree) : Nat :=
  Tree.depthFrom [(tree, 1)] 0

/-! ## Text -/

/--
Put what the leaves in the pending slots hold behind what was written before,
which is held in reverse.  A branch is replaced by the run of its slots.
-/
def Slot.write (pending : List Slot) (written : List String) : List String :=
  match pending with
  | [] => written.reverse
  | .absent :: rest => write rest written
  | .run slots :: rest => write (slots ++ rest) written
  | .subtree (.leaf _ text) :: rest => write rest (text :: written)
  | .subtree (.branch _ slots) :: rest => write (.run slots :: rest) written
  termination_by Slot.rowWeight pending
  decreasing_by
    all_goals
      simp only [Slot.rowWeight, Slot.weight, Tree.weight,
        Slot.rowWeight_append]
      omega

/-- What the leaves of a tree hold, from left to right. -/
def Tree.text (tree : Tree) : String :=
  String.join (Slot.write [.subtree tree] [])

end CssMath
