import CssMath.Text.Blank
import Mathlib.Data.List.DropRight
import Mathlib.Data.List.TakeWhile

/-!
# Blanks around texts

A text loses the blanks at its two ends and nothing else.  What is left has no
blanks there (`trimBlanks_eq_self_iff`), so nothing is lost when blanks are
removed again (`trimBlanks_trimBlanks`), and blanks that are put around a text
are removed with its own (`trimBlanks_padded`).
-/

namespace CssMath

theorem dropWhile_eq_self_of_prefix
    {α : Type*} {drops : α → Bool} {front whole : List α}
    (isPrefix : front <+: whole)
    (kept : whole.dropWhile drops = whole) :
    front.dropWhile drops = front := by
  cases front with
  | nil => rfl
  | cons first rest =>
      rcases isPrefix with ⟨behind, rfl⟩
      have keepsFirst := List.dropWhile_eq_self_iff.mp kept (by simp)
      exact List.dropWhile_cons_of_neg keepsFirst

/-- The blanks are removed in front first and then at the end. -/
theorem trimBlanks_eq (text : String) :
    trimBlanks text =
      String.ofList
        ((text.toList.dropWhile isBlank).rdropWhile isBlank) := rfl

theorem toList_trimBlanks (text : String) :
    (trimBlanks text).toList =
      (text.toList.dropWhile isBlank).rdropWhile isBlank :=
  String.toList_ofList

/-- A text without blanks at its ends has none to lose. -/
theorem trimBlanks_trimBlanks (text : String) :
    trimBlanks (trimBlanks text) = trimBlanks text := by
  have front :
      ((text.toList.dropWhile isBlank).rdropWhile isBlank).dropWhile isBlank =
        (text.toList.dropWhile isBlank).rdropWhile isBlank :=
    dropWhile_eq_self_of_prefix (List.rdropWhile_prefix _ _)
      (List.dropWhile_idempotent _ _)
  rw [trimBlanks_eq (trimBlanks text), toList_trimBlanks, front,
    List.rdropWhile_idempotent, trimBlanks_eq]

/-- The blanks around a text are removed with its own. -/
theorem trimBlanks_padded (text : String) :
    trimBlanks (" " ++ text ++ " ") = trimBlanks text := by
  have padded :
      (" " ++ text ++ " ").toList = ' ' :: (text.toList ++ [' ']) := by
    simp
  rw [trimBlanks_eq, trimBlanks_eq, padded,
    List.dropWhile_cons_of_pos rfl, List.dropWhile_append]
  split
  -- A text of blanks leaves nothing behind which the last blank could stand.
  · rename_i onlyBlanks
    rw [List.isEmpty_iff.mp onlyBlanks]
    rfl
  · rw [List.rdropWhile_concat_pos _ _ _ rfl]

/-- Neither end of a text is blank. -/
def IsBare (text : String) : Prop :=
  (∀ character ∈ text.toList.head?, isBlank character = false) ∧
    ∀ character ∈ text.toList.getLast?, isBlank character = false

theorem dropWhile_eq_self_iff_head
    {α : Type*} {drops : α → Bool} {items : List α} :
    items.dropWhile drops = items ↔ ∀ item ∈ items.head?, drops item = false := by
  cases items with
  | nil => simp
  | cons first rest => simp [List.dropWhile_eq_self_iff]

theorem rdropWhile_eq_self_iff_getLast
    {α : Type*} {drops : α → Bool} {items : List α} :
    items.rdropWhile drops = items ↔
      ∀ item ∈ items.getLast?, drops item = false := by
  rw [List.rdropWhile, List.reverse_eq_iff, dropWhile_eq_self_iff_head,
    List.head?_reverse]

/-- A text stays as it is just if neither of its ends is blank. -/
theorem trimBlanks_eq_self_iff (text : String) :
    trimBlanks text = text ↔ IsBare text := by
  rw [← String.toList_inj, toList_trimBlanks, IsBare,
    ← dropWhile_eq_self_iff_head, ← rdropWhile_eq_self_iff_getLast]
  constructor
  · intro same
    have shorter :=
      (List.rdropWhile_prefix isBlank
        (text.toList.dropWhile isBlank)).length_le
    rw [same] at shorter
    have front : text.toList.dropWhile isBlank = text.toList :=
      (List.dropWhile_suffix isBlank).eq_of_length_le shorter
    rw [front] at same
    exact ⟨front, same⟩
  · rintro ⟨front, back⟩
    rw [front, back]

end CssMath
