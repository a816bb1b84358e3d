import Mathlib.Data.List.Basic

/-!
# Cutting lists

When lists are written one after the other, there must be a way to tell where
one of them ends.  It may end where a property of its members ends
(`append_inj_of_stop`), or where the next one starts with a member of a kind of
its own (`flatten_inj_of_isBlock`), or after two members (`eq_of_flatMap_pair`).
-/

namespace CssMath

/-- There is one way only to cut a list where a property of its members ends. -/
theorem append_inj_of_stop
    {α : Type*} (inside : α → Bool)
    {left left' right right' : List α}
    (within : ∀ member ∈ left, inside member)
    (within' : ∀ member ∈ left', inside member)
    (stop : ∀ member ∈ right.head?, inside member = false)
    (stop' : ∀ member ∈ right'.head?, inside member = false)
    (equal : left ++ right = left' ++ right') :
    left = left' ∧ right = right' := by
  have front (before behind : List α)
      (within : ∀ member ∈ before, inside member)
      (stop : ∀ member ∈ behind.head?, inside member = false) :
      (before ++ behind).takeWhile inside = before := by
    rw [List.takeWhile_append_of_pos within]
    cases behind with
    | nil => simp
    | cons member rest => simp [stop member rfl]
  have sameFront := congrArg (List.takeWhile inside) equal
  rw [front left right within stop, front left' right' within' stop'] at sameFront
  subst left'
  exact ⟨rfl, List.append_cancel_left equal⟩

/-- A member that starts a block, and others behind it that do not. -/
def IsBlock {α : Type*} (start : α → Bool) (items : List α) : Prop :=
  ∃ first rest, items = first :: rest ∧
    start first ∧ ∀ item ∈ rest, start item = false

/-- Blocks one after the other go on with the start of a block. -/
theorem head?_flatten_of_isBlock
    {α : Type*} {start : α → Bool} {blocks : List (List α)}
    (areBlocks : ∀ block ∈ blocks, IsBlock start block) :
    ∀ item ∈ blocks.flatten.head?, (!start item) = false := by
  intro item isHead
  cases blocks with
  | nil => simp at isHead
  | cons block others =>
      rcases areBlocks block (by simp) with ⟨first, rest, rfl, starts, _⟩
      simp only [List.flatten_cons, List.cons_append, List.head?_cons,
        Option.mem_some_iff] at isHead
      simp [← isHead, starts]

/-- Blocks can be told apart when they stand one after the other. -/
theorem flatten_inj_of_isBlock
    {α : Type*} {start : α → Bool}
    {blocks blocks' : List (List α)}
    (areBlocks : ∀ block ∈ blocks, IsBlock start block)
    (areBlocks' : ∀ block ∈ blocks', IsBlock start block)
    (equal : blocks.flatten = blocks'.flatten) :
    blocks = blocks' := by
  induction blocks generalizing blocks' with
  | nil =>
      cases blocks' with
      | nil => rfl
      | cons block' others' =>
          rcases areBlocks' block' (by simp) with ⟨first, rest, rfl, _⟩
          simp at equal
  | cons block others inductionHypothesis =>
      rw [List.forall_mem_cons] at areBlocks
      rcases areBlocks.1 with ⟨first, rest, rfl, _, inside⟩
      cases blocks' with
      | nil => simp at equal
      | cons block' others' =>
          rw [List.forall_mem_cons] at areBlocks'
          rcases areBlocks'.1 with ⟨first', rest', rfl, _, inside'⟩
          simp only [List.flatten_cons, List.cons_append,
            List.cons.injEq] at equal
          rcases append_inj_of_stop (fun item => !start item)
              (by simpa using inside) (by simpa using inside')
              (head?_flatten_of_isBlock areBlocks.2)
              (head?_flatten_of_isBlock areBlocks'.2) equal.2 with
            ⟨sameRest, sameOthers⟩
          rw [equal.1, sameRest,
            inductionHypothesis areBlocks.2 areBlocks'.2 sameOthers]

/-- In a row of marks and items that alternate, each can be told. -/
theorem eq_of_flatMap_pair
    {α β : Type*} {mark item : α → β} {steps steps' : List α}
    (told : ∀ step ∈ steps, ∀ step' ∈ steps',
      mark step = mark step' → item step = item step' → step = step')
    (same : (steps.flatMap fun step => [mark step, item step]) =
      steps'.flatMap fun step => [mark step, item step]) :
    steps = steps' := by
  induction steps generalizing steps' with
  | nil => cases steps' <;> simp at same ⊢
  | cons step rest inductionHypothesis =>
      cases steps' with
      | nil => simp at same
      | cons step' rest' =>
          simp only [List.flatMap_cons, List.cons_append, List.nil_append,
            List.cons.injEq] at same
          have sameStep :=
            told step (by simp) step' (by simp) same.1 same.2.1
          have sameRest := inductionHypothesis
            (fun step member step' member' =>
              told step (by simp [member]) step' (by simp [member']))
            same.2.2
          rw [sameStep, sameRest]

end CssMath
