import CssMath.Proofs.Cutting
import CssMath.Proofs.Tree.Structure

/-!
# Reading outlines

An outline whose leaves hold no line breaks can be read back.  Its lines can be
told apart, since there is a line break between them and within none of them.
The blanks in front of a line give the distance of its node from the root,
because no kind has a name that starts with a blank; the name ends at the first
colon, and the text of a leaf is what stands between the outermost quotation
marks behind it, whatever it may hold (`Entry.line_injective`).

The entries of a tree are its root and then, one step deeper, the entries of
its children.  Each child is the only one of its entries that is one step from
the root, so it is known where its entries end, and trees with the same entries
have children with the same entries (`Tree.entries_eq_entries_iff`).
-/

namespace CssMath

/--
A node as it appears in the preorder of its tree, with its distance from the
root.  Only leaves have a text.
-/
structure Entry where
  level : Nat
  kind : Kind
  text? : Option String
  deriving DecidableEq, Repr

namespace Tree

/-- A node seen at some distance from the root. -/
def entryAt (level : Nat) (tree : Tree) : Entry :=
  ⟨level, tree.kind, tree.leafText?⟩

/-- The entries of a tree, in preorder. -/
def entries (tree : Tree) : List Entry :=
  tree.preorder.map fun node => node.2.entryAt node.1

end Tree

/-! ## Lines -/

/-- The line of an entry in an outline whose root stands at some level. -/
def Entry.line (shift : Int) (entry : Entry) : String :=
  match entry.text? with
  | some text =>
      margin (shift + entry.level) ++ entry.kind.name ++ ": \"" ++ text ++ "\""
  | none => margin (shift + entry.level) ++ entry.kind.name

theorem Entry.line_entryAt (shift : Int) (node : Nat × Tree) :
    (node.2.entryAt node.1).line shift = Tree.lineAt shift node := by
  rcases node with ⟨level, tree⟩
  cases tree <;>
    simp [Entry.line, Tree.entryAt, Tree.leafText?, Tree.kind, Tree.lineAt,
      margin_eq, String.append_assoc]

/-- An outline has the line of each entry. -/
theorem Tree.outline_eq_entries (tree : Tree) (shift : Int) :
    tree.outline shift =
      "\n".intercalate (tree.entries.map (Entry.line shift)) := by
  rw [Tree.outline_eq, Tree.entries, List.map_map]
  simp only [Function.comp_def, Entry.line_entryAt]

namespace Kind

theorem name_injective : Function.Injective name := by
  intro left right same
  cases left <;> cases right <;> simp_all [name]

/-- Names of kinds have none of the characters that structure a line. -/
theorem name_plain (kind : Kind) :
    ' ' ∉ kind.name.toList ∧ ':' ∉ kind.name.toList ∧
      '\n' ∉ kind.name.toList := by
  cases kind <;> simp [name]

theorem name_ne_nil (kind : Kind) : kind.name.toList ≠ [] := by
  cases kind <;> simp [name]

end Kind

namespace Entry

/-- What a line says of the text of its node. -/
def quotation : Option String → List Char
  | some text => ':' :: ' ' :: '"' :: (text.toList ++ ['"'])
  | none => []

theorem quotation_injective : Function.Injective quotation := by
  intro text? text?' same
  cases text? <;> cases text?' <;> simp_all [quotation, String.toList_inj]

/-- A line is a margin, a name and maybe a quotation. -/
theorem toList_line (shift : Int) (entry : Entry) :
    (entry.line shift).toList =
      List.replicate (2 * (shift + entry.level).toNat) ' ' ++
        (entry.kind.name.toList ++ quotation entry.text?) := by
  rcases entry with ⟨level, kind, text?⟩
  cases text? <;> simp [line, quotation, margin, pushn_empty, List.append_assoc]

/-- Behind a margin no line goes on with a blank. -/
theorem head?_behind_margin (entry : Entry) :
    ∀ character ∈ (entry.kind.name.toList ++ quotation entry.text?).head?,
      (character == ' ') = false := by
  intro character isHead
  rw [List.head?_append_of_ne_nil _ entry.kind.name_ne_nil] at isHead
  have inName := List.mem_of_mem_head? isHead
  rw [beq_eq_false_iff_ne]
  rintro rfl
  exact entry.kind.name_plain.1 inName

/-- A node can be told from its line, whatever text it holds. -/
theorem line_injective
    {shift : Int} (nonnegative : 0 ≤ shift) :
    Function.Injective (line shift) := by
  intro entry entry' same
  have characters := congrArg String.toList same
  rw [toList_line, toList_line] at characters
  rcases append_inj_of_stop (fun character => character == ' ')
      (by simp [List.mem_replicate]) (by simp [List.mem_replicate])
      entry.head?_behind_margin entry'.head?_behind_margin characters with
    ⟨sameMargin, characters⟩
  have colon (kind : Kind) :
      ∀ character ∈ kind.name.toList, (character != ':') = true := by
    intro character member
    rw [bne_iff_ne]
    rintro rfl
    exact kind.name_plain.2.1 member
  have stop (text? : Option String) :
      ∀ character ∈ (quotation text?).head?, (character != ':') = false := by
    cases text? <;> simp [quotation]
  rcases append_inj_of_stop (fun character => character != ':')
      (colon _) (colon _) (stop _) (stop _) characters with
    ⟨sameName, sameQuotation⟩
  have steps := congrArg List.length sameMargin
  simp only [List.length_replicate] at steps
  have sameLevel : entry.level = entry'.level := by omega
  have sameKind := Kind.name_injective (String.toList_inj.mp sameName)
  have sameText := quotation_injective sameQuotation
  cases entry
  cases entry'
  simp_all

/-- There is no line break in a line if there is none in its text. -/
theorem lineBreak_notMem_line
    {entry : Entry} (shift : Int)
    (unbroken : ∀ text ∈ entry.text?, '\n' ∉ text.toList) :
    '\n' ∉ (entry.line shift).toList := by
  have noBreak : '\n' ∉ quotation entry.text? := by
    cases there : entry.text? with
    | none => simp [quotation]
    | some text => simp [quotation, unbroken text there]
  rw [toList_line]
  simp [noBreak, entry.kind.name_plain]

end Entry

/-- Lines without line breaks can be told apart in a text. -/
theorem intercalate_lineBreak_injective
    {lines lines' : List String}
    (nonempty : lines ≠ [])
    (nonempty' : lines' ≠ [])
    (unbroken : ∀ line ∈ lines, '\n' ∉ line.toList)
    (unbroken' : ∀ line ∈ lines', '\n' ∉ line.toList)
    (equal : "\n".intercalate lines = "\n".intercalate lines') :
    lines = lines' := by
  have split (lines : List String)
      (nonempty : lines ≠ [])
      (unbroken : ∀ line ∈ lines, '\n' ∉ line.toList) :
      List.splitOn '\n' ("\n".intercalate lines).toList =
        lines.map String.toList := by
    rw [String.toList_intercalate]
    exact List.splitOn_intercalate '\n' (by simpa using unbroken)
      (by simpa using nonempty)
  have same := congrArg (fun text => List.splitOn '\n' text.toList) equal
  simp only [split lines nonempty unbroken,
    split lines' nonempty' unbroken'] at same
  exact List.map_injective_iff.mpr (fun _ _ => String.toList_inj.mp) same

/-! ## Entries -/

namespace Tree

/-- Whether no leaf of a tree holds a line break. -/
def IsUnbroken (tree : Tree) : Prop :=
  ∀ node ∈ tree.preorder, ∀ text ∈ node.2.leafText?, '\n' ∉ text.toList

instance (tree : Tree) : Decidable tree.IsUnbroken :=
  inferInstanceAs (Decidable
    (∀ node ∈ tree.preorder, ∀ text ∈ node.2.leafText?, '\n' ∉ text.toList))

variable {left right : Tree}

theorem IsUnbroken.lines
    {tree : Tree} (unbroken : tree.IsUnbroken) (shift : Int) :
    ∀ line ∈ tree.entries.map (Entry.line shift), '\n' ∉ line.toList := by
  rw [List.forall_mem_map, entries, List.forall_mem_map]
  intro node member
  exact Entry.lineBreak_notMem_line shift (unbroken node member)

/-- The root comes first, and then, one step deeper, the entries of the children. -/
theorem entries_eq_cons (tree : Tree) :
    tree.entries =
      tree.entryAt 0 ::
        (tree.layout.map entries).flatten.map
          fun entry => { entry with level := entry.level + 1 } := by
  have below (child : Tree) :
      child.entries.map (fun entry => { entry with level := entry.level + 1 }) =
        child.preorder.map fun node => node.2.entryAt (node.1 + 1) := by
    rw [entries, List.map_map]
    rfl
  rw [entries, preorder_eq, List.map_cons, List.map_flatten, List.map_map]
  simp only [Function.comp_def, below, List.map_map, List.map_flatMap]
  rfl

theorem entries_ne_nil (tree : Tree) : tree.entries ≠ [] := by
  rw [entries_eq_cons]
  exact List.cons_ne_nil _ _

/-- The root is the only node that is at no distance from the root. -/
theorem isBlock_entries (tree : Tree) :
    IsBlock (fun entry => entry.level == 0) tree.entries := by
  refine ⟨_, _, tree.entries_eq_cons, rfl, ?_⟩
  rw [List.forall_mem_map]
  simp

/-- The entries of a tree are those of its outline. -/
theorem entries_eq_of_outline_eq
    {shift : Int} (nonnegative : 0 ≤ shift)
    (unbroken : left.IsUnbroken)
    (unbroken' : right.IsUnbroken)
    (same : left.outline shift = right.outline shift) :
    left.entries = right.entries := by
  rw [outline_eq_entries, outline_eq_entries] at same
  refine List.map_injective_iff.mpr (Entry.line_injective nonnegative) ?_
  exact intercalate_lineBreak_injective
    (by simpa using left.entries_ne_nil) (by simpa using right.entries_ne_nil)
    (unbroken.lines shift) (unbroken'.lines shift) same

/-- The entries of a tree tell its root and the entries of each of its children. -/
theorem entries_eq_entries_iff :
    left.entries = right.entries ↔
      (left.kind = right.kind ∧ left.leafText? = right.leafText?) ∧
        left.layout.map entries = right.layout.map entries := by
  have deeper : Function.Injective fun entry : Entry =>
      { entry with level := entry.level + 1 } := by
    rintro ⟨level, kind, text?⟩ ⟨level', kind', text?'⟩
    simp
  rw [entries_eq_cons left, entries_eq_cons right, List.cons.injEq,
    (List.map_injective_iff.mpr deeper).eq_iff]
  simp only [entryAt, Entry.mk.injEq, true_and]
  refine and_congr_right fun _ => ⟨fun same => ?_, congrArg List.flatten⟩
  exact flatten_inj_of_isBlock
    (by simpa using fun child _ => child.isBlock_entries)
    (by simpa using fun child _ => child.isBlock_entries) same

@[simp]
theorem entries_leaf (kind : Kind) (text : String) :
    (leaf kind text).entries = [⟨0, kind, some text⟩] := by
  rw [entries_eq_cons]
  rfl

end Tree

end CssMath
