import CssMath.Compose.Chain
import CssMath.Expr.Construct
import CssMath.Expr.Layout
import CssMath.Proofs.Occurrence
import CssMath.Proofs.Tree.Structure

/-!
# Texts of expressions

The text of an expression is that of its tree.  Written out kind by kind, it
has two shapes besides that of a leaf.  A function and a group are written as a
name with their arguments in brackets, separated by commas; the name of a group
is empty.  A chain is written as its first operand and then each further one
behind its operator.

`Expr.text_application` states the first shape once for all kinds that have it,
and `Expr.text_product` and `Expr.text_sum` state the second.
-/

namespace CssMath

/-! ## Texts of rows -/

/-- What the leaves in a row of slots hold, from left to right. -/
def Slot.rowText (slots : List Slot) : String :=
  String.join ((Slot.rowSubtrees slots).map Tree.text)

namespace Slot

@[simp]
theorem rowText_nil : rowText [] = "" := rfl

@[simp]
theorem rowText_absent (rest : List Slot) :
    rowText (.absent :: rest) = rowText rest := rfl

@[simp]
theorem rowText_subtree (tree : Tree) (rest : List Slot) :
    rowText (.subtree tree :: rest) = tree.text ++ rowText rest := by
  simp [rowText, rowSubtrees, subtrees]

@[simp]
theorem rowText_run (slots rest : List Slot) :
    rowText (.run slots :: rest) = rowText slots ++ rowText rest := by
  simp [rowText, rowSubtrees, subtrees]

@[simp]
theorem rowText_token (text : String) (rest : List Slot) :
    rowText (.token text :: rest) = text ++ rowText rest := by
  simp [token]

@[simp]
theorem rowText_functionName (name : String) (rest : List Slot) :
    rowText (.functionName name :: rest) = name ++ rowText rest := by
  simp [functionName]

end Slot

theorem Tree.text_eq_rowText (kind : Kind) (slots : List Slot) :
    (Tree.branch kind slots).text = Slot.rowText slots :=
  Tree.text_branch kind slots

/-! ## The two shapes -/

/-- A name with arguments in brackets. -/
def applied (name : String) (arguments : List String) : String :=
  name ++ "(" ++ ",".intercalate arguments ++ ")"

/-- A text with others behind it, each behind a mark of its own. -/
def linked (first : String) (rest : List (String × String)) : String :=
  first ++ String.join (rest.map fun step => step.1 ++ step.2)

/-- Texts with one and the same mark between them. -/
theorem intercalate_cons_eq_linked
    (mark first : String) (rest : List String) :
    mark.intercalate (first :: rest) =
      linked first (rest.map fun text => (mark, text)) := by
  induction rest generalizing first with
  | nil => simp [linked]
  | cons next rest inductionHypothesis =>
      rw [String.intercalate_cons_cons, inductionHypothesis]
      simp [linked, String.append_assoc]

namespace Expr

/-- The texts of some expressions. -/
def texts (expressions : List Expr) : List String :=
  expressions.map fun expression => expression.tree.text

/-- The name in front of the brackets of a function or of a group. -/
def head? : Expr → Option String
  | .group _ => some ""
  | .var _ _ => some "var"
  | .calc _ => some "calc"
  | .exp _ => some "exp"
  | .pow _ _ => some "pow"
  | .round _ _ _ => some "round"
  | .extremum which _ _ => some which.name
  | .clamp _ _ _ => some "clamp"
  | _ => none

/-- The names among the arguments of a function, which come first. -/
def argumentNames : Expr → List String
  | .var name _ => [name]
  | .round strategy _ _ => strategy.toList
  | _ => []

/-- What stands between the brackets of a function or of a group. -/
def argumentTexts (expression : Expr) : List String :=
  expression.argumentNames ++ texts expression.parts

theorem rowText_optionalSlot (part : Option Expr) (rest : List Slot) :
    Slot.rowText (optionalSlot part :: rest) =
      String.join ((texts part.toList).map fun text => "," ++ text) ++
        Slot.rowText rest := by
  cases part <;> simp [optionalSlot, texts]

theorem rowText_itemSlots (items : List Expr) :
    Slot.rowText (itemSlots items) =
      String.join ((texts items).map fun text => "," ++ text) := by
  induction items with
  | nil => rfl
  | cons item rest inductionHypothesis =>
      simp [itemSlots, inductionHypothesis, texts, String.append_assoc]

/-- Functions and groups are their names with their arguments in brackets. -/
theorem text_application
    {expression : Expr} {name : String}
    (isApplication : expression.head? = some name) :
    expression.tree.text = applied name expression.argumentTexts := by
  cases expression with
  | round strategy content interval =>
      cases isApplication
      cases strategy <;>
        simp [tree, Tree.text_eq_rowText, strategySlot, rowText_optionalSlot,
          argumentTexts, argumentNames, parts, texts, applied,
          intercalate_cons_eq_linked, linked, Function.comp_def,
          String.append_assoc, -String.reduceAppend]
  | extremum which first rest =>
      cases isApplication
      simp [tree, Tree.text_eq_rowText, rowText_itemSlots, argumentTexts,
        argumentNames, parts, texts, applied, intercalate_cons_eq_linked,
        linked, Function.comp_def, String.append_assoc]
  | _ =>
      cases isApplication <;>
      simp [tree, Tree.text_eq_rowText, rowText_optionalSlot, argumentTexts,
        argumentNames, parts, texts, applied, intercalate_cons_eq_linked,
        linked, Function.comp_def, String.append_assoc, -String.reduceAppend]

theorem text_group (content : Expr) :
    (group content).tree.text = "(" ++ content.tree.text ++ ")" := by
  rw [text_application rfl]
  simp [argumentTexts, argumentNames, parts, texts, applied]

theorem text_calc (content : Expr) :
    («calc» content).tree.text = "calc(" ++ content.tree.text ++ ")" := by
  rw [text_application rfl]
  simp [argumentTexts, argumentNames, parts, texts, applied]

end Expr

/-! ## Chains -/

/-- An operator of a sum as it is written. -/
def spaced (operator : String) : String :=
  " " ++ operator ++ " "

/-- The text of a chain whose operators are written in some way. -/
def Chain.text (mark : String → String) (chain : Chain) : String :=
  linked chain.first.tree.text
    (chain.rest.map fun step => (mark step.1, step.2.tree.text))

namespace Expr

/-- The further members of a chain are written behind their operators. -/
theorem rowText_runs
    (mark : String → String) (steps : List (String × Expr)) :
    Slot.rowText (steps.map fun step =>
        .run [.token (mark step.1), .subtree step.2.tree]) =
      String.join (steps.map fun step => mark step.1 ++ step.2.tree.text) := by
  induction steps with
  | nil => rfl
  | cons step rest inductionHypothesis =>
      simp [inductionHypothesis, String.append_assoc]

theorem rowText_factorSlots (steps : List (String × Expr)) :
    Slot.rowText (factorSlots steps) =
      String.join (steps.map fun step => step.1 ++ step.2.tree.text) := by
  rw [factorSlots_eq_map]
  exact rowText_runs id steps

theorem rowText_termSlots (steps : List (String × Expr)) :
    Slot.rowText (termSlots steps) =
      String.join (steps.map fun step => spaced step.1 ++ step.2.tree.text) := by
  rw [termSlots_eq_map]
  exact rowText_runs spaced steps

variable (first : Expr) (operator : String) (second : Expr)

/-- Each further factor is written behind its operator. -/
theorem text_product (rest : List (String × Expr)) :
    (product first operator second rest).tree.text =
      Chain.text id ⟨first, (operator, second) :: rest⟩ := by
  rw [tree_product, Tree.text_eq_rowText]
  simp [rowText_factorSlots, Chain.text, linked, Function.comp_def]

/-- Each further term is written behind its operator, which blanks set off. -/
theorem text_sum (rest : List (String × Expr)) :
    (sum first operator second rest).tree.text =
      Chain.text spaced ⟨first, (operator, second) :: rest⟩ := by
  rw [tree_sum, Tree.text_eq_rowText]
  simp [rowText_termSlots, Chain.text, linked, Function.comp_def]

end Expr

end CssMath
