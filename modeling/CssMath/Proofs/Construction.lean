import CssMath.Expr.Construct
import CssMath.Expr.Layout
import CssMath.Expr.Parts
import CssMath.Proofs.Blank
import CssMath.Proofs.Layout

/-!
# Constructions

A construction is a constructor with what it is given.  What an expression was
made of can be read off it by the names of its parts, and off its concrete tree
by the places at which the layout puts them.  The two readings find the same
(`Expr.construction?_tree`), and the constructor makes the same expression of
what is read (`Construction.readsBack_of_make`).

Sums are the exception.  Their operators are read without the blanks around
them, and the blanks are lost when a sum is made again.  The sum is the same
just if its operators have no blanks around them.
-/

namespace CssMath

universe u v

/--
A constructor with the nodes and the texts that it is given.  The nodes can be
of any type: a `Construction Expr` makes an expression.
-/
inductive Construction (α : Type u) where
  | dimension (numeral : Scalar) (unit : String)
  | percentage (numeral : Scalar)
  | group (content : α)
  | var (name : String) (fallback : Option α)
  | calc (content : α)
  | exp (content : Option α)
  | pow (base exponent : Option α)
  | round (strategy : Option String) (content interval : Option α)
  | extremum (which : Extremum) (items : List α)
  | clamp (lower preferred upper : α)
  | product (first : α) (rest : List (String × α))
  | sum (first : α) (rest : List (String × α))

namespace Construction

/-- The expression that a constructor makes, or the fault that it raises. -/
def make : Construction Expr → Except Fault Expr
  | .dimension numeral unit => .ok (.dimensionOf numeral unit)
  | .percentage numeral => .ok (.percentageOf numeral)
  | .group content => .ok (.group content)
  | .var name fallback => .ok (.var name fallback)
  | .calc content => .ok (.calc content)
  | .exp content => Expr.expOf content
  | .pow base exponent => Expr.powOf base exponent
  | .round strategy content interval => Expr.roundOf strategy content interval
  | .extremum which items => Expr.extremumOf which items
  | .clamp lower preferred upper => .ok (.clamp lower preferred upper)
  | .product first rest => .ok (.productOf first rest)
  | .sum first rest => .ok (.sumOf first rest)

/-- The construction from other nodes. -/
def map {α : Type u} {β : Type v} (change : α → β) :
    Construction α → Construction β
  | .dimension numeral unit => .dimension numeral unit
  | .percentage numeral => .percentage numeral
  | .group content => .group (change content)
  | .var name fallback => .var name (fallback.map change)
  | .calc content => .calc (change content)
  | .exp content => .exp (content.map change)
  | .pow base exponent => .pow (base.map change) (exponent.map change)
  | .round strategy content interval =>
      .round strategy (content.map change) (interval.map change)
  | .extremum which items => .extremum which (items.map change)
  | .clamp lower preferred upper =>
      .clamp (change lower) (change preferred) (change upper)
  | .product first rest =>
      .product (change first) (rest.map fun step => (step.1, change step.2))
  | .sum first rest =>
      .sum (change first) (rest.map fun step => (step.1, change step.2))

/--
A chain is given an operator.  Without any it would be its only operand, and
that was made by another constructor.
-/
def IsProper {α : Type u} : Construction α → Prop
  | .product _ rest => rest ≠ []
  | .sum _ rest => rest ≠ []
  | _ => True

end Construction

/-! ## Reading by name -/

/-- The constructor of an expression with the parts that are read off it. -/
def Expr.construction? (expression : Expr) : Option (Construction Expr) :=
  match expression.kind with
  | .dimension =>
      return .dimension (.verbatim (← expression.number?)) (← expression.unit?)
  | .percentage => return .percentage (.verbatim (← expression.number?))
  | .group => return .group (← expression.content?)
  | .var => return .var (← expression.name?) (← expression.fallback?)
  | .calc => return .calc (← expression.content?)
  | .exp => return .exp (← expression.content?)
  | .pow => return .pow (← expression.base?) (← expression.exponent?)
  | .round =>
      return .round (← expression.strategy?) (← expression.content?)
        (← expression.interval?)
  | .min => return .extremum .min (← expression.items?)
  | .max => return .extremum .max (← expression.items?)
  | .clamp =>
      return .clamp (← expression.lower?) (← expression.preferred?)
        (← expression.upper?)
  | .product =>
      return .product (← expression.first?) (← expression.operations?)
  | .sum => return .sum (← expression.first?) (← expression.operations?)
  | _ => none

/-! ## Reading by place -/

namespace Slot

/-- The subtree at a place of a row. -/
def treeAt? (row : List Slot) (place : Nat) : Option Tree :=
  match row[place]? with
  | some (.subtree tree) => some tree
  | _ => none

/-- What the leaf at a place of a row holds. -/
def textAt? (row : List Slot) (place : Nat) : Option String :=
  (treeAt? row place).bind Tree.leafText?

/-- The row of the run at a place of a row. -/
def rowAt? (row : List Slot) (place : Nat) : Option (List Slot) :=
  match row[place]? with
  | some (.run slots) => some slots
  | _ => none

/-- What is read off the run at a place of a row, if the run is not left out. -/
def optionalAt?
    {α : Type} (read : List Slot → Option α) (row : List Slot) (place : Nat) :
    Option (Option α) :=
  match row[place]? with
  | some .absent => some none
  | some (.run slots) => (read slots).map some
  | _ => none

/-- The token and the subtree behind it in each run of a row. -/
def pairs? : List Slot → Option (List (String × Tree))
  | [] => some []
  | .run slots :: rest =>
      return (← textAt? slots 0, ← treeAt? slots 1) :: (← pairs? rest)
  | _ :: _ => none

/-- The first subtree of a row and the pairs in the run behind it. -/
def chain? (row : List Slot) : Option (Tree × List (String × Tree)) :=
  return (← treeAt? row 0, ← pairs? (← rowAt? row 1))

/-- The subtrees of a list with a token in front of each but the first. -/
def items? (row : List Slot) : Option (List Tree) := do
  let (first, rest) ← chain? row
  return first :: rest.map Prod.snd

end Slot

/-- The row of a branch. -/
def Tree.row : Tree → List Slot
  | .leaf _ _ => []
  | .branch _ slots => slots

open Slot in
/--
The constructor of a node with what stands at the places of its layout.  The
blanks in the tokens of a sum do not belong to its operators.
-/
def Tree.construction? (tree : Tree) : Option (Construction Tree) :=
  let row := tree.row
  match tree.kind with
  | .dimension =>
      return .dimension (.verbatim (← textAt? row 0)) (← textAt? row 1)
  | .percentage => return .percentage (.verbatim (← textAt? row 0))
  | .group => return .group (← treeAt? row 1)
  | .var =>
      return .var (← textAt? row 2) (← optionalAt? (treeAt? · 1) row 3)
  | .calc => return .calc (← treeAt? row 2)
  | .exp => return .exp (← treeAt? row 2)
  | .pow => return .pow (← treeAt? row 2) (← treeAt? row 4)
  | .round =>
      return .round (← optionalAt? (textAt? · 0) row 2) (← treeAt? row 3)
        (← optionalAt? (treeAt? · 1) row 4)
  | .min => return .extremum .min (← items? (← rowAt? row 2))
  | .max => return .extremum .max (← items? (← rowAt? row 2))
  | .clamp =>
      return .clamp (← treeAt? row 2) (← treeAt? row 4) (← treeAt? row 6)
  | .product => do
      let (first, rest) ← chain? row
      return .product first rest
  | .sum => do
      let (first, rest) ← chain? row
      return .sum first (rest.map fun step => (trimBlanks step.1, step.2))
  | _ => none

/-! ## The readings agree -/

namespace Slot

theorem pairs?_map
    {α : Type} (mark : α → String) (node : α → Tree) (items : List α) :
    pairs? (items.map fun item =>
        .run [.token (mark item), .subtree (node item)]) =
      some (items.map fun item => (mark item, node item)) := by
  induction items with
  | nil => rfl
  | cons item rest inductionHypothesis =>
      rw [List.map_cons, pairs?, inductionHypothesis]
      rfl

theorem chain?_map
    {α : Type} (first : Tree)
    (mark : α → String) (node : α → Tree) (items : List α) :
    chain?
        [ .subtree first,
          .run (items.map fun item =>
            .run [.token (mark item), .subtree (node item)])] =
      some (first, items.map fun item => (mark item, node item)) := by
  change (pairs? _).bind _ = _
  rw [pairs?_map]
  rfl

end Slot

namespace Expr

theorem items?_itemSlots (first : Expr) (rest : List Expr) :
    Slot.items? [.subtree first.tree, .run (itemSlots rest)] =
      some ((first :: rest).map tree) := by
  rw [itemSlots_eq_map, Slot.items?, Slot.chain?_map]
  simp [Function.comp_def]

theorem chain?_factorSlots (first : Expr) (rest : List (String × Expr)) :
    Slot.chain? [.subtree first.tree, .run (factorSlots rest)] =
      some (first.tree, rest.map fun step => (step.1, step.2.tree)) := by
  rw [factorSlots_eq_map, Slot.chain?_map]

theorem chain?_termSlots (first : Expr) (rest : List (String × Expr)) :
    Slot.chain? [.subtree first.tree, .run (termSlots rest)] =
      some
        (first.tree,
          rest.map fun step => (" " ++ step.1 ++ " ", step.2.tree)) := by
  rw [termSlots_eq_map]
  exact Slot.chain?_map _ _ _ _

/-- An expression and its tree are read alike. -/
theorem construction?_tree (expression : Expr) :
    expression.tree.construction? =
      expression.construction?.map (Construction.map tree) := by
  cases expression with
  | leaf kind text => cases kind <;> rfl
  | var name fallback => cases fallback <;> rfl
  | round strategy content interval =>
      cases strategy <;> cases interval <;> rfl
  | extremum which first rest =>
      cases which <;>
      · change (Slot.items? [.subtree first.tree, .run (itemSlots rest)]).bind
          _ = _
        rw [items?_itemSlots]
        rfl
  | product first operator second rest =>
      change (Slot.chain? [.subtree first.tree,
        .run (factorSlots ((operator, second) :: rest))]).bind _ = _
      rw [chain?_factorSlots]
      rfl
  | sum first operator second rest =>
      change (Slot.chain? [.subtree first.tree,
        .run (termSlots ((operator, second) :: rest))]).bind _ = _
      rw [chain?_termSlots]
      simp [construction?, kind, first?, operations?, trimmedTerms,
        Construction.map, trimBlanks_padded, Function.comp_def]
  | _ => rfl

end Expr

/-! ## Making again what was read -/

namespace Construction

/--
What can be read off an expression that was constructed, and the expression
that is made of it again.  Whether the two are the same is seen from their
trees as well.
-/
structure ReadsBack
    (construction : Construction Expr) (node : Expr)
    (again : Construction Expr) (rebuilt : Expr) : Prop where
  byName :
    node.construction? = some again
  byPlace :
    node.tree.construction? = some (again.map Expr.tree)
  remade :
    again.make = .ok rebuilt
  same :
    node.kind ≠ .sum → rebuilt = node
  sameTree :
    rebuilt.tree = node.tree ↔ rebuilt = node
  sums :
    ∀ first rest, construction = .sum first rest →
      node.first? = some first ∧
        node.operations? =
          some (rest.map fun step => (trimBlanks step.1, step.2)) ∧
        rebuilt.first? = node.first? ∧
        rebuilt.operations? = node.operations? ∧
        (rebuilt = node ↔ ∀ step ∈ rest, IsBare step.1)

/-- What is no sum only has to be read by name and to be made again. -/
theorem ReadsBack.ofRemade
    {construction again : Construction Expr} {node : Expr}
    (noSum : ∀ first rest, construction ≠ .sum first rest)
    (byName : node.construction? = some again)
    (remade : again.make = .ok node) :
    construction.ReadsBack node again node where
  byName := byName
  byPlace := by rw [Expr.construction?_tree, byName, Option.map_some]
  remade := remade
  same _ := rfl
  sameTree := Expr.tree_injective.eq_iff
  sums first rest isSum := (noSum first rest isSum).elim

end Construction

theorem Expr.trimmedTerms_trimmedTerms (rest : List (String × Expr)) :
    trimmedTerms (trimmedTerms rest) = trimmedTerms rest := by
  apply trimmedTerms_eq_self
  intro step member
  rcases List.mem_map.mp member with ⟨inner, _, rfl⟩
  exact trimBlanks_trimBlanks inner.1

/-- The terms of a sum stay as they are just if no operator has blanks around it. -/
theorem Expr.trimmedTerms_eq_self_iff {rest : List (String × Expr)} :
    trimmedTerms rest = rest ↔ ∀ step ∈ rest, IsBare step.1 := by
  simp only [← trimBlanks_eq_self_iff]
  constructor
  · intro same step member
    have unchanged :
        rest.map (fun step => (trimBlanks step.1, step.2)) =
          rest.map id := by
      rw [List.map_id]
      exact same
    exact congrArg Prod.fst (List.map_inj_left.mp unchanged step member)
  · exact trimmedTerms_eq_self

namespace Construction

/-- A sum is made again with the operators that are read off it. -/
theorem readsBack_sum
    (first : Expr) (operator : String) (second : Expr)
    (rest : List (String × Expr)) :
    ReadsBack
      (.sum first ((operator, second) :: rest))
      (.sum first operator second rest)
      (.sum first (Expr.trimmedTerms ((operator, second) :: rest)))
      (.sum first (trimBlanks operator) second (Expr.trimmedTerms rest)) where
  byName := rfl
  byPlace := Expr.construction?_tree (.sum first operator second rest)
  remade := rfl
  same noSum := (noSum rfl).elim
  sameTree := Expr.tree_injective.eq_iff
  sums first' rest' isSum := by
    cases isSum
    refine ⟨rfl, rfl, rfl, ?_, ?_⟩
    · exact congrArg some
        (Expr.trimmedTerms_trimmedTerms ((operator, second) :: rest))
    · rw [← Expr.trimmedTerms_eq_self_iff, Expr.trimmedTerms_cons]
      simp

/--
What a constructor made is read by name as it is by place, and is the same when
it is made again of what was read.  A sum keeps its terms and gets operators
without blanks around them.
-/
theorem readsBack_of_make
    {construction : Construction Expr} {node : Expr}
    (proper : construction.IsProper)
    (made : construction.make = .ok node) :
    ∃ again rebuilt, construction.ReadsBack node again rebuilt := by
  cases construction with
  | exp content =>
      cases content with
      | none => cases made
      | some content =>
          cases made
          exact ⟨.exp content, _, .ofRemade (by simp) rfl rfl⟩
  | pow base exponent =>
      cases base with
      | none => cases made
      | some base =>
          cases exponent with
          | none => cases made
          | some exponent =>
              cases made
              exact ⟨.pow base exponent, _, .ofRemade (by simp) rfl rfl⟩
  | round strategy content interval =>
      cases content with
      | none => cases made
      | some content =>
          cases made
          exact ⟨.round strategy content interval, _,
            .ofRemade (by simp) rfl rfl⟩
  | extremum which items =>
      cases items with
      | nil => cases made
      | cons first rest =>
          cases made
          cases which <;>
            exact ⟨.extremum _ (first :: rest), _,
              .ofRemade (by simp) rfl rfl⟩
  | product first rest =>
      cases rest with
      | nil => exact (proper rfl).elim
      | cons step rest =>
          cases made
          exact ⟨.product first (step :: rest), _,
            .ofRemade (by simp) rfl rfl⟩
  | sum first rest =>
      cases rest with
      | nil => exact (proper rfl).elim
      | cons step rest =>
          cases made
          exact ⟨_, _, readsBack_sum first step.1 step.2 rest⟩
  | _ =>
      cases made
      exact ⟨_, _, .ofRemade (by simp) rfl rfl⟩

/-- A sum with an operator that is padded with a no-break space, and an empty one. -/
def paddedSum : Construction Expr :=
  .sum (.number "1") [("\u00a0-", .number "2"), ("", .number "3")]

theorem readsBack_of_make_paddedSum :
    paddedSum.IsProper ∧
      ∃ node again rebuilt,
        paddedSum.make = .ok node ∧
          paddedSum.ReadsBack node again rebuilt ∧
          rebuilt ≠ node := by
  have proper : paddedSum.IsProper := by simp [paddedSum, IsProper]
  have padded : ¬ IsBare "\u00a0-" := by
    rw [← trimBlanks_eq_self_iff]
    decide
  rcases readsBack_of_make proper rfl with ⟨again, rebuilt, readsBack⟩
  refine ⟨proper, _, again, rebuilt, rfl, readsBack, ?_⟩
  intro same
  rcases readsBack.sums _ _ rfl with ⟨_, _, _, _, unchanged⟩
  exact padded (unchanged.mp same _ List.mem_cons_self)

end Construction

end CssMath
