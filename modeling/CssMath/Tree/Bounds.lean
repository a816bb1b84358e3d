import CssMath.Tree.Walks

/-!
# Size bounds

Bounds on the node count and the depth of a tree.  A measure passes when it
does not exceed its bound.  A tree is checked for its node count first, so of
two excesses the node count is the one reported.  Bounds are integers without
restriction; no tree passes a bound below one.
-/

namespace CssMath

/-- A measure of trees that can be bounded. -/
inductive Measure where
  | depth
  | nodes
  deriving DecidableEq, Repr

/-- The name under which a bound on a measure is reported. -/
def Measure.limitName : Measure → String
  | .depth => "max_ast_depth"
  | .nodes => "max_ast_nodes"

/-- The bounds on the measures of a tree. -/
structure Bounds where
  maxDepth : Int := 256
  maxNodes : Int := 4096
  deriving DecidableEq, Repr

/-- The bounds that hold unless others are given. -/
def Bounds.standard : Bounds := {}

/-- The bounds that are given, or else the standard ones. -/
def Bounds.orStandard (given : Option Bounds) : Bounds :=
  given.getD .standard

/-- A measure that is greater than its bound. -/
structure Excess where
  measure : Measure
  bound : Int
  actual : Int
  deriving DecidableEq, Repr

/-- What is told about an excess. -/
def Excess.message (excess : Excess) : String :=
  "Limit exceeded: " ++ excess.measure.limitName ++ " (limit: " ++
    toString excess.bound ++ ", actual: " ++ toString excess.actual ++ ")"

namespace Bounds

/-- Check a depth that was measured. -/
def checkDepth (bounds : Bounds) (depth : Int) : Except Excess Unit :=
  if depth > bounds.maxDepth then
    .error ⟨.depth, bounds.maxDepth, depth⟩
  else
    .ok ()

/-- Check a node count that was measured. -/
def checkNodes (bounds : Bounds) (nodes : Int) : Except Excess Unit :=
  if nodes > bounds.maxNodes then
    .error ⟨.nodes, bounds.maxNodes, nodes⟩
  else
    .ok ()

/-- Check a tree: its node count, and then its depth. -/
def check (bounds : Bounds) (tree : Tree) : Except Excess Unit := do
  bounds.checkNodes tree.nodeCount
  bounds.checkDepth tree.depth

end Bounds

end CssMath
