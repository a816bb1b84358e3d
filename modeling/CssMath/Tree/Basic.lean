import CssMath.Tree.Kind

/-!
# Concrete trees

The concrete form of an expression.  A node is a leaf, which holds a piece of
text, or a branch, which holds a row of slots.  A slot is filled by a subtree,
stands for an optional part that is absent, or groups a run of further slots,
such as a comma with the argument behind it.  Brackets, commas and operators
are leaves of their own, so the text of a tree is what its leaves hold, from
left to right.

`Tree.children` lists the subtrees of a branch with all grouping and all
absent parts forgotten.
-/

namespace CssMath

mutual

/-- A node of the concrete form. -/
inductive Tree where
  | leaf (kind : Kind) (text : String)
  | branch (kind : Kind) (slots : List Slot)

/--
A place in the row of a branch: an optional part that was left out, a subtree,
or several places that belong together.
-/
inductive Slot where
  | absent
  | subtree (tree : Tree)
  | run (slots : List Slot)

end

namespace Slot

/-- A piece of punctuation. -/
def token (text : String) : Slot :=
  .subtree (.leaf .token text)

/-- The name of a function. -/
def functionName (name : String) : Slot :=
  .subtree (.leaf .function name)

end Slot

namespace Tree

/-- The label of a node. -/
def kind : Tree → Kind
  | .leaf kind _ => kind
  | .branch kind _ => kind

/-- What a leaf holds; a branch has no text of its own. -/
def leafText? : Tree → Option String
  | .leaf _ text => some text
  | .branch _ _ => none

end Tree

/-! ## Weights -/

mutual

/-- The number of nodes, absent parts and runs in a tree. -/
def Tree.weight : Tree → Nat
  | .leaf _ _ => 1
  | .branch _ slots => Slot.rowWeight slots + 1

/-- The number of nodes, absent parts and runs in a slot, with the slot itself. -/
def Slot.weight : Slot → Nat
  | .absent => 1
  | .subtree tree => tree.weight + 1
  | .run slots => Slot.rowWeight slots + 1

/-- The sum of the weights of a row of slots. -/
def Slot.rowWeight : List Slot → Nat
  | [] => 0
  | slot :: rest => slot.weight + Slot.rowWeight rest

end

theorem Slot.rowWeight_append (left right : List Slot) :
    Slot.rowWeight (left ++ right) =
      Slot.rowWeight left + Slot.rowWeight right := by
  induction left with
  | nil => simp [Slot.rowWeight]
  | cons slot rest inductionHypothesis =>
      simp [Slot.rowWeight, inductionHypothesis, Nat.add_assoc]

/-! ## Children -/

/--
Collect the subtrees of the pending slots behind those already found, which
are held in reverse.  Runs are spread out in place.
-/
def Slot.gather (pending : List Slot) (found : List Tree) : List Tree :=
  match pending with
  | [] => found.reverse
  | .absent :: rest => gather rest found
  | .subtree tree :: rest => gather rest (tree :: found)
  | .run slots :: rest => gather (slots ++ rest) found
  termination_by Slot.rowWeight pending
  decreasing_by
    all_goals
      simp only [Slot.rowWeight, Slot.weight, Slot.rowWeight_append]
      omega

theorem Slot.gather_run (slots rest : List Slot) (found : List Tree) :
    Slot.gather (.run slots :: rest) found =
      Slot.gather (slots ++ rest) found := by
  rw [Slot.gather]

/--
The subtrees directly below a node, from left to right.  The slots of a branch
are gathered as one run.
-/
def Tree.children : Tree → List Tree
  | .leaf _ _ => []
  | .branch _ slots => Slot.gather [.run slots] []

end CssMath
