import CssMath.Expr.Layout
import CssMath.Proofs.Chain
import CssMath.Proofs.Occurrence

/-!
# Layout loses nothing

Expressions with the same tree are the same, so that a tree and the expression
it is laid out from can stand for each other.  One layer of an expression is
told by its row of slots if its parts are told by their trees
(`Expr.eq_of_row`), and the rest is an induction over parts.
-/

namespace CssMath

universe u v

/-- Lists with the same images are the same if their members are told apart. -/
theorem eq_of_map_eq_map
    {α : Type u} {β : Type v} {image : α → β} {items items' : List α}
    (told : ∀ item ∈ items, ∀ item' ∈ items',
      image item = image item' → item = item')
    (same : items.map image = items'.map image) :
    items = items' := by
  induction items generalizing items' with
  | nil => exact (List.map_eq_nil_iff.mp same.symm).symm
  | cons item rest inductionHypothesis =>
      cases items' with
      | nil => cases same
      | cons item' rest' =>
          simp only [List.map_cons, List.cons.injEq] at same
          rw [told item (by simp) item' (by simp) same.1,
            inductionHypothesis
              (fun inner member inner' member' =>
                told inner (by simp [member]) inner' (by simp [member']))
              same.2]

theorem LeafKind.kind_injective : Function.Injective LeafKind.kind := by
  intro left right same
  cases left <;> cases right <;> first | rfl | cases same

theorem Slot.token_injective : Function.Injective Slot.token := by
  intro text text' same
  simpa [Slot.token] using same

namespace Expr

theorem sumToken_injective : Function.Injective sumToken := by
  intro operator operator' same
  have characters := congrArg String.toList (Slot.token_injective same)
  simpa [String.toList_inj] using characters

theorem strategySlot_injective : Function.Injective strategySlot := by
  intro strategy strategy' same
  cases strategy <;> cases strategy' <;> simp_all [strategySlot]

theorem eq_of_optionalSlot
    {part part' : Option Expr}
    (told : ∀ expression ∈ part, ∀ expression' ∈ part',
      expression.tree = expression'.tree → expression = expression')
    (same : optionalSlot part = optionalSlot part') :
    part = part' := by
  cases part <;> cases part' <;> simp_all [optionalSlot]

theorem eq_of_itemSlots
    {items items' : List Expr}
    (told : ∀ item ∈ items, ∀ item' ∈ items',
      item.tree = item'.tree → item = item')
    (same : itemSlots items = itemSlots items') :
    items = items' := by
  rw [itemSlots_eq_map, itemSlots_eq_map] at same
  refine eq_of_map_eq_map ?_ same
  intro item member item' member' sameRun
  simp only [Slot.run.injEq, List.cons.injEq, Slot.subtree.injEq, true_and,
    and_true] at sameRun
  exact told item member item' member' sameRun

/-- The members of a chain are told, and so are its operators. -/
theorem eq_of_runs
    {token : String → Slot} (injective : Function.Injective token)
    {first first' : Expr} {rest rest' : List (String × Expr)}
    (told : ∀ part ∈ first :: rest.map Prod.snd,
      ∀ part' ∈ first' :: rest'.map Prod.snd,
        part.tree = part'.tree → part = part')
    (same :
      (rest.map fun step => Slot.run [token step.1, .subtree step.2.tree]) =
        rest'.map fun step => .run [token step.1, .subtree step.2.tree]) :
    rest = rest' := by
  refine eq_of_map_eq_map ?_ same
  intro step member step' member' sameRun
  simp only [Slot.run.injEq, List.cons.injEq, Slot.subtree.injEq,
    and_true] at sameRun
  exact
    Prod.ext (injective sameRun.1)
      (told _ (List.mem_cons_of_mem _ (List.mem_map_of_mem member))
        _ (List.mem_cons_of_mem _ (List.mem_map_of_mem member')) sameRun.2)

variable {left right : Expr}

/-- One layer of an expression is told by its row if its parts are by theirs. -/
theorem eq_of_row
    (told : ∀ part ∈ left.parts, ∀ part' ∈ right.parts,
      part.tree = part'.tree → part = part')
    (same : left.tree = right.tree) :
    left = right := by
  have sameKind : left.kind = right.kind := by
    rw [← kind_tree, same, kind_tree]
  cases left with
  | leaf kind text =>
      cases right with
      | leaf kind' text' =>
          simp only [tree, Tree.leaf.injEq] at same
          rw [LeafKind.kind_injective same.1, same.2]
      | _ => cases same
  | var name fallback =>
      cases right with
      | var name' fallback' =>
          simp only [tree, Tree.branch.injEq, List.cons.injEq,
            Slot.subtree.injEq, Tree.leaf.injEq, true_and, and_true] at same
          rw [same.1, eq_of_optionalSlot (by simpa [parts] using told) same.2]
      | extremum which' first' rest' => cases which' <;> cases sameKind
      | _ => first | cases sameKind | cases same
  | round strategy content interval =>
      cases right with
      | round strategy' content' interval' =>
          simp only [tree, Tree.branch.injEq, List.cons.injEq,
            Slot.subtree.injEq, true_and, and_true] at same
          rcases same with ⟨sameStrategy, sameContent, sameInterval⟩
          have toldInterval : ∀ part ∈ interval, ∀ part' ∈ interval',
              part.tree = part'.tree → part = part' := by
            intro part member part' member'
            exact told part (by simp_all [parts]) part' (by simp_all [parts])
          rw [strategySlot_injective sameStrategy,
            told content (by simp [parts]) content' (by simp [parts])
              sameContent,
            eq_of_optionalSlot toldInterval sameInterval]
      | extremum which' first' rest' => cases which' <;> cases sameKind
      | _ => first | cases sameKind | cases same
  | extremum which first rest =>
      cases right with
      | extremum which' first' rest' =>
          have sameWhich : which = which' := by
            cases which <;> cases which' <;> first | rfl | cases sameKind
          subst sameWhich
          simp only [tree, Tree.branch.injEq, List.cons.injEq,
            Slot.subtree.injEq, Slot.run.injEq, true_and, and_true] at same
          rcases same with ⟨sameFirst, sameRest⟩
          have toldRest : ∀ item ∈ rest, ∀ item' ∈ rest',
              item.tree = item'.tree → item = item' := by
            intro item member item' member'
            exact told item (by simp [parts, member])
              item' (by simp [parts, member'])
          rw [told first (by simp [parts]) first' (by simp [parts]) sameFirst,
            eq_of_itemSlots toldRest sameRest]
      | leaf kind' text' => cases same
      | _ => cases which <;> cases sameKind
  | product first operator second rest =>
      rcases exists_of_kind_product sameKind.symm with
        ⟨first', operator', second', rest', rfl⟩
      simp only [tree_product, factorSlots_eq_map, Tree.branch.injEq,
        List.cons.injEq, Slot.subtree.injEq, Slot.run.injEq, true_and,
        and_true] at same
      rw [parts_product, parts_product] at told
      cases eq_of_runs Slot.token_injective told same.2
      rw [told first (by simp) first' (by simp) same.1]
  | sum first operator second rest =>
      rcases exists_of_kind_sum sameKind.symm with
        ⟨first', operator', second', rest', rfl⟩
      simp only [tree_sum, termSlots_eq_map, Tree.branch.injEq,
        List.cons.injEq, Slot.subtree.injEq, Slot.run.injEq, true_and,
        and_true] at same
      rw [parts_sum, parts_sum] at told
      cases eq_of_runs sumToken_injective told same.2
      rw [told first (by simp) first' (by simp) same.1]
  -- In all other layouts each part has its place.
  | _ =>
      cases right with
      | extremum which' first' rest' => cases which' <;> cases sameKind
      | _ =>
          first
          | (cases sameKind; done)
          | (cases same; done)
          | simp_all [tree, parts]

/-- The tree of an expression tells what it is. -/
theorem tree_injective : Function.Injective tree := by
  intro left right same
  induction left using induction_parts generalizing right with
  | step left inductionHypothesis =>
      refine eq_of_row ?_ same
      intro part member part' _ samePart
      exact inductionHypothesis part member samePart

end Expr

end CssMath
