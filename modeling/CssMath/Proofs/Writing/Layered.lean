import CssMath.Proofs.NormalForm
import CssMath.Proofs.Writing.Brackets

/-!
# Layered expressions

In a layered expression the terms of a sum are not sums and the factors of a
product are neither sums nor products, unless there are brackets around them.
Its operators are the four of arithmetic, and its roundings have strategies
that are known by name.

If no value in a layered expression holds a bracket, a comma, a blank or an
operator of products, then each expression in it is enclosed: its brackets are
paired, and outside of them it has no comma.  A term has no blank there
either, and a factor has no operator of products in addition
(`IsLegible.isEnclosed`).
-/

namespace CssMath

/-! ## Leaves -/

/-- The kinds of leaves that are expressions by themselves. -/
def LeafKind.isValue : LeafKind → Bool
  | .number => true
  | .keyword => true
  | .raw => true
  | _ => false

/-- The characters that structure the text of an expression. -/
def structuralCharacters : List Char :=
  ['(', ')', ',', '*', '/', ' ']

/-- A text without any character that has a meaning of its own. -/
def IsPlain (text : String) : Prop :=
  ∀ character ∈ text.toList, character ∉ structuralCharacters

instance (text : String) : Decidable (IsPlain text) :=
  List.decidableBAll (· ∉ structuralCharacters) text.toList

/-- The strategies of rounding. -/
def IsStrategy (text : String) : Prop :=
  text = "nearest" ∨ text = "up" ∨ text = "down" ∨ text = "to-zero"

namespace Expr

/-- The text of a value without parts; there is none for other expressions. -/
def spelling? : Expr → Option String
  | .leaf _ text => some text
  | .dimension numeral unit => some (numeral ++ unit)
  | .percentage numeral => some (numeral ++ "%")
  | _ => none

/-! ## Layers -/

/-- What is asked of one layer of a layered expression. -/
def Layered : Expr → Prop
  | .leaf kind _ => kind.isValue
  | .round strategy _ _ => ∀ name ∈ strategy, IsStrategy name
  | .product first operator second rest =>
      IsFactor first ∧
        ∀ step ∈ (operator, second) :: rest,
          IsScaling step.1 ∧ IsFactor step.2
  | .sum first operator second rest =>
      first.kind ≠ .sum ∧
        ∀ step ∈ (operator, second) :: rest,
          IsSign step.1 ∧ step.2.kind ≠ .sum
  | _ => True

/-- The value or the name in one layer of an expression is plain. -/
def PlainTexts : Expr → Prop
  | .var name _ => IsPlain name
  | expression => ∀ text ∈ expression.spelling?, IsPlain text

/--
A rounding with an interval but without a strategy does not round a value that
is spelled like a strategy.
-/
def Unmistakable : Expr → Prop
  | .round none content (some _) =>
      ∀ text ∈ content.spelling?, ¬ IsStrategy text
  | _ => True

/-- An expression whose text can be read in one way only. -/
structure IsLegible (expression : Expr) : Prop where
  layered : Everywhere Layered expression
  plain : Everywhere PlainTexts expression
  unmistakable : Everywhere Unmistakable expression

theorem IsLegible.part
    {part whole : Expr}
    (legible : whole.IsLegible)
    (member : part ∈ whole.parts) :
    part.IsLegible where
  layered := legible.layered.part member
  plain := legible.plain.part member
  unmistakable := legible.unmistakable.part member

/-- Legibility is told layer by layer. -/
theorem isLegible_iff (expression : Expr) :
    expression.IsLegible ↔
      (Layered expression ∧ PlainTexts expression ∧ Unmistakable expression) ∧
        ∀ part ∈ expression.parts, part.IsLegible := by
  constructor
  · intro legible
    exact
      ⟨⟨legible.layered.here, legible.plain.here, legible.unmistakable.here⟩,
        fun part member => legible.part member⟩
  · rintro ⟨⟨layered, plain, unmistakable⟩, onParts⟩
    exact
      ⟨(everywhere_iff _).mpr ⟨layered, fun part member =>
          (onParts part member).layered⟩,
        (everywhere_iff _).mpr ⟨plain, fun part member =>
          (onParts part member).plain⟩,
        (everywhere_iff _).mpr ⟨unmistakable, fun part member =>
          (onParts part member).unmistakable⟩⟩

/-- A value is legible if its text is plain. -/
theorem isLegible_leaf
    {kind : LeafKind} {text : String}
    (isValue : kind.isValue)
    (plain : IsPlain text) :
    (leaf kind text).IsLegible := by
  rw [isLegible_iff]
  refine ⟨⟨isValue, ?_, trivial⟩, by simp [parts]⟩
  simpa [PlainTexts, spelling?] using plain

/-! ## Separators -/

/-- What separates expressions from each other. -/
def expressionSeparators : List Char :=
  [',']

/-- What separates terms from each other. -/
def termSeparators : List Char :=
  [',', ' ']

/-- What separates factors from each other. -/
def factorSeparators : List Char :=
  [',', ' ', '*', '/']

theorem isInner_of_isPlain
    {text : String} (plain : IsPlain text) :
    ∀ character ∈ text.toList, IsInner factorSeparators character := by
  intro character member
  have notStructural := plain character member
  simp only [structuralCharacters, List.mem_cons, List.not_mem_nil,
    or_false, not_or] at notStructural
  simp [IsInner, factorSeparators, notStructural]

theorem enclosed_of_isPlain
    {text : String} (plain : IsPlain text) :
    Enclosed factorSeparators text :=
  .ofInner (isInner_of_isPlain plain)

/-- What separates around the text of an expression stands in its brackets. -/
structure IsEnclosed (expression : Expr) : Prop where
  whole :
    Enclosed expressionSeparators expression.tree.text
  term :
    expression.kind ≠ .sum → Enclosed termSeparators expression.tree.text
  factor :
    expression.IsFactor → Enclosed factorSeparators expression.tree.text

theorem isEnclosed_of_factor
    {expression : Expr}
    (enclosed : Enclosed factorSeparators expression.tree.text) :
    expression.IsEnclosed where
  whole := enclosed.mono (by decide)
  term _ := enclosed.mono (by decide)
  factor _ := enclosed

/-! ## Values and functions -/

/-- An expression is a function or a group, a value, or a chain. -/
theorem shape_cases (expression : Expr) :
    (∃ name, expression.head? = some name) ∨
      (∃ text, expression.spelling? = some text) ∨
      (∃ first operator second rest,
        expression = .product first operator second rest) ∨
      ∃ first operator second rest,
        expression = .sum first operator second rest := by
  cases expression <;> simp [head?, spelling?]

theorem text_of_spelling
    {expression : Expr} {text : String}
    (spelled : expression.spelling? = some text) :
    expression.tree.text = text := by
  cases expression <;>
    simp_all [spelling?, tree, Tree.text_eq_rowText]

/-- The names of functions are plain. -/
theorem isPlain_of_head
    {expression : Expr} {name : String}
    (isApplication : expression.head? = some name) :
    IsPlain name := by
  cases expression with
  | extremum which first rest =>
      cases isApplication
      cases which <;> decide
  | _ =>
      cases isApplication <;> decide

theorem isPlain_of_isStrategy
    {text : String} (strategy : IsStrategy text) :
    IsPlain text := by
  rcases strategy with rfl | rfl | rfl | rfl <;>
    decide

theorem argumentTexts_ne_nil
    {expression : Expr} {name : String}
    (isApplication : expression.head? = some name) :
    expression.argumentTexts ≠ [] := by
  cases expression <;>
    simp_all [head?, argumentTexts, argumentNames, parts, texts]

/-! ## Legible expressions are enclosed -/

theorem IsLegible.isPlain_of_spelling
    {expression : Expr} {text : String}
    (legible : expression.IsLegible)
    (spelled : expression.spelling? = some text) :
    IsPlain text := by
  have plain := legible.plain.here
  cases expression <;>
    first
      | exact plain text spelled
      | cases spelled

theorem IsLegible.isPlain_of_argumentName
    {expression : Expr} {name : String}
    (legible : expression.IsLegible)
    (member : name ∈ expression.argumentNames) :
    IsPlain name := by
  cases expression with
  | var name' fallback =>
      rcases List.mem_singleton.mp member with rfl
      exact legible.plain.here
  | round strategy content interval =>
      have isStrategy : IsStrategy name :=
        legible.layered.here name (Option.mem_toList.mp member)
      exact isPlain_of_isStrategy isStrategy
  | _ => cases member

theorem IsLegible.enclosed_arguments
    {expression : Expr}
    (legible : expression.IsLegible)
    (onParts : ∀ part ∈ expression.parts, part.IsEnclosed) :
    ∀ argument ∈ expression.argumentTexts, Enclosed [','] argument := by
  intro argument member
  rcases List.mem_append.mp member with isName | isText
  · have plain := legible.isPlain_of_argumentName isName
    exact (enclosed_of_isPlain plain).mono (by decide)
  · rcases List.mem_map.mp isText with ⟨part, partMember, rfl⟩
    exact (onParts part partMember).whole

theorem enclosed_chain
    {separators : List Char} {mark : String → String} {chain : Chain}
    (onFirst : Enclosed separators chain.first.tree.text)
    (onRest : ∀ step ∈ chain.rest,
      Enclosed separators (mark step.1) ∧
        Enclosed separators step.2.tree.text) :
    Enclosed separators (chain.text mark) :=
  Enclosed.linked onFirst (List.forall_mem_map.mpr onRest)

variable
    {first second : Expr}
    {operator : String}
    {rest : List (String × Expr)}

/-- Outside of brackets a product has neither commas nor blanks. -/
theorem enclosed_product
    (layered : (product first operator second rest).Layered)
    (onParts : ∀ part ∈ (product first operator second rest).parts,
      part.IsEnclosed) :
    Enclosed termSeparators
      (product first operator second rest).tree.text := by
  rcases layered with ⟨firstFactor, steps⟩
  rw [parts_product, List.forall_mem_cons, List.forall_mem_map] at onParts
  rcases onParts with ⟨onFirst, onRest⟩
  rw [text_product]
  apply enclosed_chain
  · exact (onFirst.factor firstFactor).mono (by decide)
  · intro step member
    rcases steps step member with ⟨scaling, isFactor⟩
    constructor
    · rcases scaling with operator | operator <;> rw [operator] <;> rfl
    · exact ((onRest step member).factor isFactor).mono (by decide)

/-- Outside of brackets a sum has no commas. -/
theorem enclosed_sum
    (layered : (sum first operator second rest).Layered)
    (onParts : ∀ part ∈ (sum first operator second rest).parts,
      part.IsEnclosed) :
    Enclosed expressionSeparators
      (sum first operator second rest).tree.text := by
  rcases layered with ⟨firstTerm, steps⟩
  rw [parts_sum, List.forall_mem_cons, List.forall_mem_map] at onParts
  rcases onParts with ⟨onFirst, onRest⟩
  rw [text_sum]
  apply enclosed_chain
  · exact onFirst.whole
  · intro step member
    rcases steps step member with ⟨sign, _⟩
    constructor
    · rcases sign with operator | operator <;> rw [operator] <;> rfl
    · exact (onRest step member).whole

/-- The invariant of writing: legible expressions have enclosed texts. -/
theorem IsLegible.isEnclosed
    {expression : Expr} (legible : expression.IsLegible) :
    expression.IsEnclosed := by
  induction expression using induction_parts with
  | step whole inductionHypothesis =>
    have onParts : ∀ part ∈ whole.parts, part.IsEnclosed :=
      fun part member =>
        inductionHypothesis part member (legible.part member)
    rcases whole.shape_cases with
      ⟨name, isApplication⟩ | ⟨text, spelled⟩ |
      ⟨first, operator, second, rest, rfl⟩ |
      ⟨first, operator, second, rest, rfl⟩
    · apply isEnclosed_of_factor
      rw [text_application isApplication]
      exact enclosed_applied
        (isInner_of_isPlain (isPlain_of_head isApplication))
        (argumentTexts_ne_nil isApplication)
        (legible.enclosed_arguments onParts)
    · apply isEnclosed_of_factor
      rw [text_of_spelling spelled]
      exact enclosed_of_isPlain (legible.isPlain_of_spelling spelled)
    · have enclosed := enclosed_product legible.layered.here onParts
      exact
        ⟨enclosed.mono (by decide), fun _ => enclosed,
          fun isFactor => (isFactor.2 rfl).elim⟩
    · have enclosed := enclosed_sum legible.layered.here onParts
      exact
        ⟨enclosed, fun noSum => (noSum rfl).elim,
          fun isFactor => (isFactor.1 rfl).elim⟩

end Expr

end CssMath
