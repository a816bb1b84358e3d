import CssMath.Proofs.Arithmetic
import CssMath.Proofs.Chain
import CssMath.Proofs.Interchange
import CssMath.Proofs.Writing.Text

/-!
# Texts of compositions

The text of a composed expression is spliced from the texts of its operands.
The operands of an arithmetic operation stand in one calculation, with the
operator of the operation between them; a sum that is multiplied or divided has
brackets around it.  The operands of a function are its arguments.

Composing takes the chains of the operands apart and joins them end to end.
Their texts are not taken apart: joined chains have the texts of the chains
with the joining operator between them (`Chain.text_join`), as long as the
operators within the later chains are carried over unchanged.  A difference
turns the signs in a sum that is subtracted, and is left out where that happens.
-/

namespace CssMath

/-! ## Chains -/

theorem linked_append
    (first : String) (left right : List (String × String)) :
    linked first (left ++ right) = linked (linked first left) right := by
  simp [linked, String.append_assoc]

/-- A chain behind an operator is its text behind that operator. -/
theorem Chain.join_behind
    {mark carry : String → String} {operator : String} {chain : Chain}
    (keeps : ∀ step ∈ chain.rest, carry step.1 = step.1) :
    String.join
        ((chain.behind operator carry).map fun step =>
          mark step.1 ++ step.2.tree.text) =
      mark operator ++ chain.text mark := by
  have carried :
      (chain.rest.map fun step => (carry step.1, step.2)) = chain.rest := by
    calc
      (chain.rest.map fun step => (carry step.1, step.2))
          = chain.rest.map id := by
            apply List.map_congr_left
            intro step member
            exact Prod.ext (keeps step member) rfl
      _ = chain.rest := List.map_id chain.rest
  simp [Chain.behind, carried, Chain.text, linked, Function.comp_def,
    String.append_assoc]

/-- Joined chains are written with the joining operator between them. -/
theorem Chain.text_join
    {mark carry : String → String} {operator : String}
    {chains : List Chain} {joined : Chain}
    (keeps : ∀ chain ∈ chains.tail, ∀ step ∈ chain.rest,
      carry step.1 = step.1)
    (joins : Chain.join operator carry chains = some joined) :
    joined.text mark =
      (mark operator).intercalate (chains.map (Chain.text mark)) := by
  cases chains with
  | nil => simp [Chain.join] at joins
  | cons leading others =>
      cases joins
      have later :
          (others.map fun chain =>
              String.join
                ((chain.behind operator carry).map fun step =>
                  mark step.1 ++ step.2.tree.text)) =
            others.map fun chain => mark operator ++ chain.text mark :=
        List.map_congr_left fun chain member =>
          Chain.join_behind (keeps chain member)
      rw [List.map_cons, intercalate_cons_eq_linked, Chain.text,
        List.map_append, linked_append]
      simp [linked, List.map_flatMap, join_flatMap, later, Chain.text,
        Function.comp_def]

namespace Expr

/-- An operator as it is written in a sum or in a product. -/
def written : Kind → String → String
  | .sum => spaced
  | _ => id

/-- The sum or the product of a chain has the text of the chain. -/
theorem text_ofChain (level : Kind) (chain : Chain) :
    (ofChain level chain).tree.text = chain.text (written level) := by
  rcases chain with ⟨first, _ | ⟨step, rest⟩⟩
  · cases level <;> simp [ofChain, sumOf, productOf, Chain.text, linked]
  · cases level with
    | sum => exact text_sum first step.1 step.2 rest
    | _ => exact text_product first step.1 step.2 rest

/-- The terms of a sum have its text if the blanks around its signs are its own. -/
theorem text_terms
    {expression : Expr}
    (trimmed : ∀ first operator second rest,
      expression = .sum first operator second rest →
        ∀ step ∈ (operator, second) :: rest, trimBlanks step.1 = step.1) :
    expression.terms.text spaced = expression.tree.text := by
  by_cases isSum : expression.kind = .sum
  · rcases exists_of_kind_sum isSum with ⟨first, operator, second, rest, rfl⟩
    rw [Expr.terms, trimmedTerms_eq_self (trimmed _ _ _ _ rfl), text_sum]
  · rw [terms_of_kind_ne isSum]
    simp [Chain.text, linked]

/-- The factors of an expression have its text, in brackets if it is a sum. -/
theorem text_factors (expression : Expr) :
    expression.factors.text id =
      if expression.kind = .sum then
        "(" ++ expression.tree.text ++ ")"
      else
        expression.tree.text := by
  split
  · rename_i isSum
    rcases exists_of_kind_sum isSum with ⟨first, operator, second, rest, rfl⟩
    simp [Expr.factors, Chain.text, linked, text_group]
  · rename_i noSum
    by_cases isProduct : expression.kind = .product
    · rcases exists_of_kind_product isProduct with
        ⟨first, operator, second, rest, rfl⟩
      rw [Expr.factors, text_product]
    · rw [factors_of_kind_ne noSum isProduct]
      simp [Chain.text, linked]

end Expr

/-! ## Texts of operands -/

namespace Operand

/-- The text of an operand out of all calculations around it. -/
def memberText (operand : Operand) : String :=
  operand.asMember.tree.text

/-- The text of an operand that is multiplied or divided. -/
def factorText (operand : Operand) : String :=
  if operand.asMember.kind = .sum then
    "(" ++ operand.memberText ++ ")"
  else
    operand.memberText

/-- The text of an operand out of one calculation around it. -/
def argumentText (operand : Operand) : String :=
  operand.asArgument.tree.text

/-- The text of a bound, which is open if the operand is the text `none`. -/
def boundText : Operand → String
  | .scalar (.verbatim "none") => "none"
  | operand => operand.argumentText

/-- The signs of the sum that an operand becomes are written without blanks. -/
def Trimmed (operand : Operand) : Prop :=
  ∀ first operator second rest,
    operand.asMember = .sum first operator second rest →
      ∀ step ∈ (operator, second) :: rest, trimBlanks step.1 = step.1

end Operand

theorem Compose.text_of_bound
    {operand : Operand} {expression : Expr}
    (isBound : Compose.bound (some operand) = some expression) :
    expression.tree.text = operand.boundText := by
  unfold Compose.bound at isBound
  split at isBound
  · rename_i isOpen
    cases isOpen
    cases isBound
    simp [Expr.openBound, Expr.tree, Operand.boundText]
  · rename_i notOpen
    cases isBound
    unfold Operand.boundText
    split
    · exact (notOpen rfl).elim
    · rfl

/-! ## Texts of calls -/

namespace Arithmetic

/-- What stands between the operands of an operation. -/
def mark : Arithmetic → String
  | .add => " + "
  | .subtract => " - "
  | .multiply => "*"
  | .divide => "/"

/-- The text of an operand of an operation. -/
def operandText : Arithmetic → Operand → String
  | .add => Operand.memberText
  | .subtract => Operand.memberText
  | .multiply => Operand.factorText
  | .divide => Operand.factorText

end Arithmetic

namespace Call

/-- The text of the expression that a call composes, by its operands. -/
def splicedText : Call (Option Operand) → String
  | .arithmetic operation operands =>
      "calc(" ++
        operation.mark.intercalate
          ((Compose.present operands).map operation.operandText) ++
        ")"
  | .extremum which operands =>
      applied which.name
        ((Compose.present operands).map Operand.argumentText)
  | .clamp lower preferred upper =>
      applied "clamp"
        ((Compose.present [lower]).map Operand.boundText ++
          (Compose.present [preferred]).map Operand.argumentText ++
          (Compose.present [upper]).map Operand.boundText)
  | .exp operand =>
      applied "exp" ((Compose.present [operand]).map Operand.argumentText)
  | .pow base exponent =>
      applied "pow"
        ((Compose.present [base, exponent]).map Operand.argumentText)
  | .round strategy operand interval =>
      applied "round"
        (strategy.toList ++
          (Compose.present [operand, interval]).map Operand.argumentText)

/-- The operands that an operation cannot do without are there. -/
def Complete : Call (Option Operand) → Prop
  | .arithmetic _ operands => Compose.present operands ≠ []
  | .extremum _ operands => Compose.present operands ≠ []
  | .clamp lower preferred upper =>
      lower ≠ none ∧ preferred ≠ none ∧ upper ≠ none
  | .exp operand => operand ≠ none
  | .pow base exponent => base ≠ none ∧ exponent ≠ none
  | .round _ operand _ => operand ≠ none

/-- Nothing that is subtracted is a sum. -/
def SubtractsNoSum : Call (Option Operand) → Prop
  | .arithmetic .subtract operands =>
      ∀ operand ∈ (Compose.present operands).tail,
        operand.asMember.kind ≠ .sum
  | _ => True

end Call

/-! ## Splicing -/

namespace Arithmetic

theorem mark_eq (operation : Arithmetic) :
    operation.mark = Expr.written operation.level operation.operator := by
  cases operation <;> rfl

/-- The chain of an operand is written as the operand. -/
theorem text_chainAt
    (operation : Arithmetic) {operand : Operand} (trimmed : operand.Trimmed) :
    (operand.asMember.chainAt operation.level).text
        (Expr.written operation.level) =
      operation.operandText operand := by
  cases operation with
  | add => exact Expr.text_terms trimmed
  | subtract => exact Expr.text_terms trimmed
  | multiply => exact operand.asMember.text_factors
  | divide => exact operand.asMember.text_factors

variable
    {operation : Arithmetic}
    {operands : List (Option Operand)}

/-- Only a sum that is subtracted has operators that are not kept. -/
theorem carry_eq_self
    (noSums : (Call.arithmetic operation operands).SubtractsNoSum) :
    ∀ operand ∈ (Compose.present operands).tail,
      ∀ step ∈ (operand.asMember.chainAt operation.level).rest,
        operation.carry step.1 = step.1 := by
  cases operation with
  | subtract =>
      intro operand member
      rw [level, Expr.chainAt, Expr.terms_of_kind_ne (noSums operand member)]
      simp
  | _ => exact fun _ _ _ _ => rfl

theorem text_composed
    (complete : (Call.arithmetic operation operands).Complete)
    (trimmed : ∀ operand ∈ Compose.present operands, operand.Trimmed)
    (noSums : (Call.arithmetic operation operands).SubtractsNoSum) :
    ∃ expression,
      operation.compose operands = .ok expression ∧
        expression.tree.text =
          (Call.arithmetic operation operands).splicedText := by
  have joinable : operation.chain? operands ≠ none :=
    mt chain?_eq_none_iff.mp complete
  rcases Option.ne_none_iff_exists'.mp joinable with ⟨joined, joins⟩
  refine ⟨_, compose_eq_ok_iff.mpr ⟨joined, joins, rfl⟩, ?_⟩
  have texts :
      ((Compose.present operands).map fun operand =>
          operand.asMember.chainAt operation.level).map
          (Chain.text (Expr.written operation.level)) =
        (Compose.present operands).map operation.operandText := by
    rw [List.map_map]
    exact List.map_congr_left fun operand member =>
      operation.text_chainAt (trimmed operand member)
  have written :
      joined.text (Expr.written operation.level) =
        operation.mark.intercalate
          ((Compose.present operands).map operation.operandText) := by
    rw [mark_eq, ← texts]
    refine Chain.text_join ?_ joins
    rw [← List.map_tail, List.forall_mem_map]
    exact carry_eq_self noSums
  rw [Expr.text_calc, Expr.text_ofChain, written, Call.splicedText]

end Arithmetic

theorem Operand.texts_asArgument (operands : List Operand) :
    Expr.texts (operands.map Operand.asArgument) =
      operands.map Operand.argumentText :=
  List.map_map

/-- A bound that is there is written. -/
theorem Compose.exists_bound {operand : Option Operand} (there : operand ≠ none) :
    ∃ present expression,
      operand = some present ∧
        Compose.bound operand = some expression ∧
        expression.tree.text = present.boundText := by
  rcases Option.ne_none_iff_exists'.mp there with ⟨present, rfl⟩
  rcases exists_bound_some present with ⟨expression, isBound⟩
  exact ⟨present, expression, rfl, isBound, text_of_bound isBound⟩

/--
A call that has the operands it requires composes an expression, and its text
is spliced from the texts of the operands.
-/
theorem Call.text_compose
    (call : Call (Option Operand))
    (complete : call.Complete)
    (trimmed : ∀ operand, some operand ∈ call.operands → operand.Trimmed)
    (noSums : call.SubtractsNoSum) :
    ∃ expression,
      call.compose = .ok expression ∧
        expression.tree.text = call.splicedText := by
  cases call with
  | arithmetic operation operands =>
      refine Arithmetic.text_composed complete ?_ noSums
      intro operand member
      exact trimmed operand (Compose.mem_present.mp member)
  | extremum which operands =>
      rcases List.exists_cons_of_ne_nil complete with ⟨first, rest, there⟩
      refine ⟨_, Compose.extremum_eq_ok_iff.mpr ⟨first, rest, there, rfl⟩, ?_⟩
      rw [Expr.text_application rfl, splicedText, there,
        ← Operand.texts_asArgument]
      rfl
  | clamp lower preferred upper =>
      rcases complete with ⟨hasLower, hasPreferred, hasUpper⟩
      rcases Compose.exists_bound hasLower with
        ⟨lower', first, rfl, isLower, firstText⟩
      rcases Option.ne_none_iff_exists'.mp hasPreferred with
        ⟨preferred', rfl⟩
      rcases Compose.exists_bound hasUpper with
        ⟨upper', last, rfl, isUpper, lastText⟩
      refine
        ⟨_, Compose.clamp_eq_ok_iff.mpr
          ⟨first, preferred', last, isLower, rfl, isUpper, rfl⟩, ?_⟩
      rw [Expr.text_application rfl]
      simp [Expr.argumentTexts, Expr.argumentNames, Expr.parts, Expr.texts,
        splicedText, firstText, lastText, Operand.argumentText]
  | exp operand =>
      rcases Option.ne_none_iff_exists'.mp complete with ⟨operand', rfl⟩
      refine ⟨_, Compose.exp_eq_ok_iff.mpr ⟨operand', rfl, rfl⟩, ?_⟩
      exact Expr.text_application rfl
  | pow base exponent =>
      rcases complete with ⟨hasBase, hasExponent⟩
      rcases Option.ne_none_iff_exists'.mp hasBase with ⟨base', rfl⟩
      rcases Option.ne_none_iff_exists'.mp hasExponent with ⟨exponent', rfl⟩
      refine
        ⟨_, Compose.pow_eq_ok_iff.mpr ⟨base', exponent', rfl, rfl, rfl⟩, ?_⟩
      exact Expr.text_application rfl
  | round strategy operand interval =>
      rcases Option.ne_none_iff_exists'.mp complete with ⟨operand', rfl⟩
      refine ⟨_, Compose.round_eq_ok_iff.mpr ⟨operand', rfl, rfl⟩, ?_⟩
      rw [Expr.text_application rfl]
      cases interval <;> rfl

/-- A product and a length are subtracted from a sum in two calculations. -/
def longDifference : Call (Option Operand) :=
  .arithmetic .subtract
    [ some (.expr (.calc (.calc (.sum (.number "1") "+" (.number "2") [])))),
      none,
      some (.expr (.product (.number "3") "*" (.number "4") [])),
      some (.scalar (.verbatim "5px"))]

theorem Scalar.expr_length :
    (Scalar.verbatim "5px").expr = .dimension "5" "px" := by
  rfl

theorem splicedText_longDifference :
    longDifference.splicedText = "calc(1 + 2 - 3*4 - 5px)" := by
  simp [longDifference, Call.splicedText, Arithmetic.mark,
    Arithmetic.operandText, Operand.memberText, Operand.asMember,
    Expr.withoutCalc, Scalar.expr_length, Expr.tree, Expr.termSlots, Expr.factorSlots,
    Expr.sumToken, Tree.text_eq_rowText]

theorem Call.text_compose_longDifference :
    longDifference.Complete ∧
      (∀ operand, some operand ∈ longDifference.operands →
        operand.Trimmed) ∧
      longDifference.SubtractsNoSum ∧
      ∃ expression,
        longDifference.compose = .ok expression ∧
          expression.tree.text = "calc(1 + 2 - 3*4 - 5px)" := by
  have complete : longDifference.Complete := by
    simp [longDifference, Call.Complete]
  have trimmed : ∀ operand, some operand ∈ longDifference.operands →
      operand.Trimmed := by
    simp [longDifference, Call.operands, Operand.Trimmed, Operand.asMember,
      Expr.withoutCalc, Scalar.expr_length]
    rintro _ _ _ _ rfl rfl rfl rfl
    simp
  have noSums : longDifference.SubtractsNoSum := by
    simp [longDifference, Call.SubtractsNoSum, Operand.asMember,
      Expr.withoutCalc, Scalar.expr_length, Expr.kind]
  refine ⟨complete, trimmed, noSums, ?_⟩
  rw [← splicedText_longDifference]
  exact longDifference.text_compose complete trimmed noSums

end CssMath
