import CssMath.Tree.Walks

/-!
# Outlines

A tree drawn as one line for each node, in preorder.  A line is indented by
two blanks for each level, and names the kind of its node; the line of a leaf
also quotes the text as it stands, without escapes.

The root stands at a level of choice, and the children of a node one level
below it.  A line at a negative level is not indented.
-/

namespace CssMath

/-- The blanks in front of a line. -/
def margin (level : Int) : String :=
  "".pushn ' ' (2 * level.toNat)

/--
Draw the pending nodes, each of which comes with its level, and the nodes below
them, and put their lines behind those drawn before, which are held in reverse.
The children of a node are drawn next, from left to right.
-/
def Tree.draw (pending : List (Tree × Int)) (lines : List String) :
    List String :=
  match pending with
  | [] => lines.reverse
  | (.leaf kind text, level) :: rest =>
      draw rest
        ((margin level ++ kind.name ++ ": \"" ++ text ++ "\"") :: lines)
  | (.branch kind slots, level) :: rest =>
      draw ((Tree.branch kind slots).childrenWith (level + 1) ++ rest)
        ((margin level ++ kind.name) :: lines)
  termination_by Tree.pendingWeight pending
  decreasing_by
    · simp only [Tree.pendingWeight, List.map_cons, Tree.forestWeight,
        Tree.weight]
      omega
    · exact Tree.pendingWeight_childrenWith _ level (level + 1) rest

/-- The outline of a tree whose root stands at a level. -/
def Tree.outline (level : Int) (tree : Tree) : String :=
  "\n".intercalate (Tree.draw [(tree, level)] [])

end CssMath
