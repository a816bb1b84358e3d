import CssMath.Proofs.Layout
import CssMath.Proofs.Tree.Lines
import CssMath.Proofs.Writing.Unambiguity

/-!
# What outlines tell

Two expressions with the same outline are equal, provided that no text in them
holds a line break and that their operands are expressions and not pieces of
syntax (`Expr.outline_eq_outline_iff`).

The outline gives the entries of the tree, and these give the kind of the root
and the entries of each child.  One layer of an expression can be told from
them if its operands can (`Expr.eq_of_children`).  The number of children tells
which optional parts are there, except for a rounding: it has as many children
with a strategy as with an interval, and they are told apart by the kind of the
first argument.  By induction over the parts the whole expression can be told.
-/

namespace CssMath

/-! ## The children of a row -/

namespace Slot

@[simp]
theorem rowSubtrees_nil : rowSubtrees [] = [] := rfl

@[simp]
theorem rowSubtrees_absent (rest : List Slot) :
    rowSubtrees (.absent :: rest) = rowSubtrees rest := rfl

@[simp]
theorem rowSubtrees_subtree (tree : Tree) (rest : List Slot) :
    rowSubtrees (.subtree tree :: rest) = tree :: rowSubtrees rest := rfl

@[simp]
theorem rowSubtrees_run (slots rest : List Slot) :
    rowSubtrees (.run slots :: rest) =
      rowSubtrees slots ++ rowSubtrees rest := rfl

@[simp]
theorem rowSubtrees_token (text : String) (rest : List Slot) :
    rowSubtrees (.token text :: rest) =
      .leaf .token text :: rowSubtrees rest := rfl

@[simp]
theorem rowSubtrees_functionName (name : String) (rest : List Slot) :
    rowSubtrees (.functionName name :: rest) =
      .leaf .function name :: rowSubtrees rest := rfl

theorem rowSubtrees_map_run
    {α : Type*} (items : List α) (slots : α → List Slot) :
    rowSubtrees (items.map fun item => .run (slots item)) =
      items.flatMap fun item => rowSubtrees (slots item) := by
  induction items with
  | nil => rfl
  | cons item rest inductionHypothesis =>
      rw [List.map_cons, rowSubtrees_run, inductionHypothesis,
        List.flatMap_cons]

end Slot

/-! ## Expressions that can be drawn -/

namespace Expr

/-- Whether an expression is more than a piece of syntax. -/
def standsAlone : Expr → Bool
  | .leaf kind _ => kind.isValue
  | _ => true

/-- The operands in one layer of an expression are expressions themselves. -/
def OperandsStandAlone (expression : Expr) : Prop :=
  ∀ part ∈ expression.parts, part.standsAlone

/-- An expression that can be told from its outline. -/
structure IsDrawable (expression : Expr) : Prop where
  operands : Everywhere OperandsStandAlone expression
  unbroken : expression.tree.IsUnbroken

/-- An expression is not mistaken for the strategy of a rounding. -/
theorem entries_ne_strategy
    {expression : Expr} (standsAlone : expression.standsAlone)
    (strategy : String) :
    expression.tree.entries ≠ [⟨0, .roundingStrategy, some strategy⟩] := by
  intro same
  rw [← Tree.entries_leaf, Tree.entries_eq_entries_iff] at same
  cases expression with
  | leaf kind text =>
      have isStrategy :=
        @LeafKind.kind_injective kind .roundingStrategy same.1.1
      rw [isStrategy] at standsAlone
      cases standsAlone
  | _ => cases same.1.2

/-! ## One layer -/

variable {left right : Expr}

theorem layout_var (name : String) (fallback : Option Expr) :
    (var name fallback).tree.layout =
      [.leaf .function "var", .leaf .token "(", .leaf .customProperty name] ++
        (fallback.toList.flatMap fun part => [.leaf .token ",", part.tree]) ++
        [.leaf .token ")"] := by
  cases fallback <;> simp [tree, optionalSlot, Tree.layout]

theorem layout_round
    (strategy : Option String) (content : Expr) (interval : Option Expr) :
    (round strategy content interval).tree.layout =
      [.leaf .function "round", .leaf .token "("] ++
        (strategy.toList.flatMap fun strategy =>
          [.leaf .roundingStrategy strategy, .leaf .token ","]) ++
        [content.tree] ++
        (interval.toList.flatMap fun part => [.leaf .token ",", part.tree]) ++
        [.leaf .token ")"] := by
  cases strategy <;> cases interval <;>
    simp [tree, optionalSlot, strategySlot, Tree.layout]

theorem layout_extremum (which : Extremum) (first : Expr) (rest : List Expr) :
    (extremum which first rest).tree.layout =
      [.leaf .function which.name, .leaf .token "(", first.tree] ++
        (rest.flatMap fun item => [.leaf .token ",", item.tree]) ++
        [.leaf .token ")"] := by
  simp [tree, itemSlots_eq_map, Slot.rowSubtrees_map_run, Tree.layout]

theorem layout_product
    (first : Expr) (operator : String) (second : Expr)
    (rest : List (String × Expr)) :
    (product first operator second rest).tree.layout =
      first.tree ::
        ((operator, second) :: rest).flatMap fun step =>
          [.leaf .token step.1, step.2.tree] := by
  rw [tree_product, factorSlots_eq_map]
  simp [Slot.rowSubtrees_map_run, Tree.layout]

theorem layout_sum
    (first : Expr) (operator : String) (second : Expr)
    (rest : List (String × Expr)) :
    (sum first operator second rest).tree.layout =
      first.tree ::
        ((operator, second) :: rest).flatMap fun step =>
          [.leaf .token (spaced step.1), step.2.tree] := by
  rw [tree_sum, termSlots_eq_map]
  simp [sumToken, spaced, Slot.rowSubtrees_map_run, Tree.layout]

/-- A rounding can be told from its children if its operands can. -/
theorem round_eq_of_children
    {strategy strategy' : Option String}
    {content content' : Expr}
    {interval interval' : Option Expr}
    (told : ∀ part ∈ (round strategy content interval).parts,
      ∀ part' ∈ (round strategy' content' interval').parts,
        part.tree.entries = part'.tree.entries → part = part')
    (standsAlone : content.standsAlone)
    (standsAlone' : content'.standsAlone)
    (sameChildren :
      (round strategy content interval).tree.layout.map Tree.entries =
        (round strategy' content' interval').tree.layout.map Tree.entries) :
    round strategy content interval = round strategy' content' interval' := by
  -- A strategy on one side only would be the content on the other side.
  have noStrategy := entries_ne_strategy standsAlone
  have noStrategy' := entries_ne_strategy standsAlone'
  rw [layout_round, layout_round] at sameChildren
  cases strategy <;> cases strategy' <;> cases interval <;>
    cases interval' <;>
    simp [noStrategy, Ne.symm (noStrategy' _)] at sameChildren <;>
    simp_all [parts]

/-- The members of a chain can be told, and so can its operators. -/
theorem chain_eq_of_children
    {mark : String → String} (injective : Function.Injective mark)
    {first first' : Expr} {rest rest' : List (String × Expr)}
    (told : ∀ part ∈ first :: rest.map Prod.snd,
      ∀ part' ∈ first' :: rest'.map Prod.snd,
        part.tree.entries = part'.tree.entries → part = part')
    (sameChildren :
      (first.tree :: rest.flatMap fun step =>
          [.leaf .token (mark step.1), step.2.tree]).map Tree.entries =
        (first'.tree :: rest'.flatMap fun step =>
          [.leaf .token (mark step.1), step.2.tree]).map Tree.entries) :
    first = first' ∧ rest = rest' := by
  simp only [List.map_cons, List.map_nil, List.map_flatMap,
    List.cons.injEq] at sameChildren
  have inParts
      {first : Expr} {step : String × Expr} {rest : List (String × Expr)}
      (member : step ∈ rest) :
      step.2 ∈ first :: rest.map Prod.snd :=
    List.mem_cons_of_mem _ (List.mem_map_of_mem member)
  refine ⟨told first (by simp) first' (by simp) sameChildren.1,
    eq_of_flatMap_pair ?_ sameChildren.2⟩
  intro step member step' member' sameMark sameOperand
  refine Prod.ext (injective ?_)
    (told _ (inParts member) _ (inParts member') sameOperand)
  simpa using sameMark

theorem extremum_eq_of_children
    {which : Extremum} {first first' : Expr} {rest rest' : List Expr}
    (told : ∀ part ∈ first :: rest, ∀ part' ∈ first' :: rest',
      part.tree.entries = part'.tree.entries → part = part')
    (sameChildren :
      (extremum which first rest).tree.layout.map Tree.entries =
        (extremum which first' rest').tree.layout.map Tree.entries) :
    first = first' ∧ rest = rest' := by
  simp only [layout_extremum, List.map_append, List.map_cons, List.map_nil,
    List.map_flatMap, List.cons_append, List.nil_append, List.cons.injEq,
    List.append_cancel_right_eq, true_and] at sameChildren
  refine ⟨told first (by simp) first' (by simp) sameChildren.1,
    eq_of_flatMap_pair ?_ sameChildren.2⟩
  intro item member item' member' _ sameItem
  exact told item (by simp [member]) item' (by simp [member']) sameItem

/-- One layer of an expression can be told if its operands can. -/
theorem eq_of_children
    (told : ∀ part ∈ left.parts, ∀ part' ∈ right.parts,
      part.tree.entries = part'.tree.entries → part = part')
    (operands : left.OperandsStandAlone)
    (operands' : right.OperandsStandAlone)
    (sameKind : left.kind = right.kind)
    (sameText : left.tree.leafText? = right.tree.leafText?)
    (sameChildren :
      left.tree.layout.map Tree.entries = right.tree.layout.map Tree.entries) :
    left = right := by
  cases left with
  | leaf kind text =>
      cases right with
      | leaf kind' text' =>
          rw [LeafKind.kind_injective sameKind, Option.some.inj sameText]
      | _ => cases sameText
  | var name fallback =>
      cases right with
      | var name' fallback' =>
          rw [layout_var, layout_var] at sameChildren
          cases fallback <;> cases fallback' <;> simp_all [parts]
      | extremum which' first' rest' => cases which' <;> cases sameKind
      | _ => first | cases sameKind | cases sameText
  | round strategy content interval =>
      cases right with
      | round strategy' content' interval' =>
          exact round_eq_of_children told
            (operands content (by simp [parts]))
            (operands' content' (by simp [parts])) sameChildren
      | extremum which' first' rest' => cases which' <;> cases sameKind
      | _ => first | cases sameKind | cases sameText
  | extremum which first rest =>
      cases right with
      | extremum which' first' rest' =>
          have sameWhich : which = which' := by
            cases which <;> cases which' <;> first | rfl | cases sameKind
          subst sameWhich
          rcases extremum_eq_of_children told sameChildren with ⟨rfl, rfl⟩
          rfl
      | leaf kind' text' => cases sameText
      | _ => cases which <;> cases sameKind
  | product first operator second rest =>
      rcases exists_of_kind_product sameKind.symm with
        ⟨first', operator', second', rest', rfl⟩
      rw [layout_product, layout_product] at sameChildren
      rw [parts_product, parts_product] at told
      rcases chain_eq_of_children Function.injective_id told sameChildren with
        ⟨rfl, sameRest⟩
      cases sameRest
      rfl
  | sum first operator second rest =>
      rcases exists_of_kind_sum sameKind.symm with
        ⟨first', operator', second', rest', rfl⟩
      rw [layout_sum, layout_sum] at sameChildren
      rw [parts_sum, parts_sum] at told
      rcases chain_eq_of_children (fun _ _ => spaced_injective) told
          sameChildren with
        ⟨rfl, sameRest⟩
      cases sameRest
      rfl
  -- In all other layouts the kind fixes how many children there are.
  | _ =>
      cases right with
      | extremum which' first' rest' => cases which' <;> cases sameKind
      | _ =>
          first
          | (cases sameKind; done)
          | (cases sameText; done)
          | simp_all [tree, Tree.layout, parts]

/-! ## All layers -/

/-- The entries of an expression tell what it is, part by part. -/
theorem eq_of_entries
    (operands : Everywhere OperandsStandAlone left)
    (operands' : Everywhere OperandsStandAlone right)
    (same : left.tree.entries = right.tree.entries) :
    left = right := by
  induction left using induction_parts generalizing right with
  | step left inductionHypothesis =>
      rcases Tree.entries_eq_entries_iff.mp same with
        ⟨⟨sameKind, sameText⟩, sameChildren⟩
      rw [kind_tree, kind_tree] at sameKind
      refine eq_of_children ?_ operands.here operands'.here sameKind sameText
        sameChildren
      intro part member part' member' samePart
      exact inductionHypothesis part member (operands.part member)
        (operands'.part member') samePart

/--
Outlines that are shifted alike are the same just if they are of one and the
same expression.
-/
theorem outline_eq_outline_iff
    {shift : Int} (nonnegative : 0 ≤ shift)
    (drawable : left.IsDrawable)
    (drawable' : right.IsDrawable) :
    left.tree.outline shift = right.tree.outline shift ↔ left = right := by
  constructor
  · intro same
    have sameEntries := Tree.entries_eq_of_outline_eq nonnegative
      drawable.unbroken drawable'.unbroken same
    exact eq_of_entries drawable.operands drawable'.operands sameEntries
  · intro same
    rw [same]

/-- A rounding with a strategy. -/
def roundedUp : Expr :=
  .round (some "up") (.number "1px") none

/-- A rounding with an interval and without a strategy, which is written alike. -/
def roundedToPixel : Expr :=
  .round none (.raw "up") (some (.number "1px"))

theorem outline_eq_outline_iff_roundings :
    (0 : Int) ≤ 2 ∧ roundedUp.IsDrawable ∧ roundedToPixel.IsDrawable ∧
      (roundedUp.tree.outline 2 = roundedToPixel.tree.outline 2 ↔
        roundedUp = roundedToPixel) := by
  have nonnegative : (0 : Int) ≤ 2 := by decide
  have drawable : roundedUp.IsDrawable := by
    refine ⟨?_, by decide⟩
    simp [roundedUp, everywhere_iff (.round _ _ _), everywhere_iff (.leaf _ _),
      OperandsStandAlone, parts, standsAlone, LeafKind.isValue]
  have drawable' : roundedToPixel.IsDrawable := by
    refine ⟨?_, by decide⟩
    simp [roundedToPixel, everywhere_iff (.round _ _ _),
      everywhere_iff (.leaf _ _), OperandsStandAlone, parts, standsAlone,
      LeafKind.isValue]
  exact
    ⟨nonnegative, drawable, drawable',
      outline_eq_outline_iff nonnegative drawable drawable'⟩

end Expr

end CssMath
