import CssMath.Proofs.Writing.Layered

/-!
# Reading expressions from their texts

Two legible expressions with the same text are the same, except that the text
does not tell what kind of value a leaf is.  `Expr.anonymous` forgets just
that.

The proof goes down the layers of an expression.  Both expressions are chains
of terms, the terms are chains of factors, and each factor is a function or a
value.  In each of these layers the parts are enclosed, so that the text of the
whole determines the texts of the parts (`Linkable.eq_of_linked`,
`eq_of_applied`), and the parts are the same by induction.  Only a rounding
needs a look at its arguments: of two of them the first is a strategy or the
second is an interval.
-/

namespace CssMath

namespace Expr

/-! ## Forgetting the kinds of values -/

mutual

/-- An expression in which each value without parts is just its text. -/
def anonymous : Expr → Expr
  | .leaf kind text => if kind.isValue then .raw text else .leaf kind text
  | .dimension numeral unit => .raw (numeral ++ unit)
  | .percentage numeral => .raw (numeral ++ "%")
  | .group content => .group content.anonymous
  | .var name fallback => .var name (anonymousOption fallback)
  | .calc content => .calc content.anonymous
  | .exp content => .exp content.anonymous
  | .pow base exponent => .pow base.anonymous exponent.anonymous
  | .round strategy content interval =>
      .round strategy content.anonymous (anonymousOption interval)
  | .extremum which first rest =>
      .extremum which first.anonymous (anonymousItems rest)
  | .clamp lower preferred upper =>
      .clamp lower.anonymous preferred.anonymous upper.anonymous
  | .product first operator second rest =>
      .product first.anonymous operator second.anonymous (anonymousSteps rest)
  | .sum first operator second rest =>
      .sum first.anonymous operator second.anonymous (anonymousSteps rest)

/-- An optional expression, if it is there, with anonymous values. -/
def anonymousOption : Option Expr → Option Expr
  | none => none
  | some part => some part.anonymous

/-- A list of expressions with anonymous values. -/
def anonymousItems : List Expr → List Expr
  | [] => []
  | item :: rest => item.anonymous :: anonymousItems rest

/-- The operators and operands of a chain with anonymous values. -/
def anonymousSteps : List (String × Expr) → List (String × Expr)
  | [] => []
  | (operator, operand) :: rest =>
      (operator, operand.anonymous) :: anonymousSteps rest

end

theorem anonymousOption_eq_map (part : Option Expr) :
    anonymousOption part = part.map anonymous := by
  cases part <;> rfl

theorem anonymousItems_eq_map (items : List Expr) :
    anonymousItems items = items.map anonymous := by
  induction items with
  | nil => rfl
  | cons item rest inductionHypothesis =>
      rw [anonymousItems, inductionHypothesis, List.map_cons]

theorem anonymousSteps_eq_map (steps : List (String × Expr)) :
    anonymousSteps steps =
      steps.map fun step => (step.1, step.2.anonymous) := by
  induction steps with
  | nil => rfl
  | cons step rest inductionHypothesis =>
      rw [anonymousSteps, inductionHypothesis, List.map_cons]

@[simp]
theorem head?_anonymous (expression : Expr) :
    expression.anonymous.head? = expression.head? := by
  cases expression with
  | leaf kind text => cases kind <;> rfl
  | _ => rfl

@[simp]
theorem argumentNames_anonymous (expression : Expr) :
    expression.anonymous.argumentNames = expression.argumentNames := by
  cases expression with
  | leaf kind text => cases kind <;> rfl
  | _ => rfl

@[simp]
theorem spelling?_anonymous (expression : Expr) :
    expression.anonymous.spelling? = expression.spelling? := by
  cases expression with
  | leaf kind text => cases kind <;> rfl
  | _ => rfl

@[simp]
theorem parts_anonymous (expression : Expr) :
    expression.anonymous.parts = expression.parts.map anonymous := by
  cases expression with
  | leaf kind text => cases kind <;> rfl
  | _ =>
      simp [anonymous, parts, anonymousOption_eq_map, anonymousItems_eq_map,
        anonymousSteps_eq_map, Option.toList_map, Function.comp_def]

/-- The text of a chain depends only on the texts of its operands. -/
theorem text_chain_anonymous
    {mark : String → String} {first : Expr} {rest : List (String × Expr)}
    (onFirst : first.anonymous.tree.text = first.tree.text)
    (onRest : ∀ step ∈ rest,
      step.2.anonymous.tree.text = step.2.tree.text) :
    Chain.text mark ⟨first.anonymous, anonymousSteps rest⟩ =
      Chain.text mark ⟨first, rest⟩ := by
  have sameRest :
      rest.map (fun step => (mark step.1, step.2.anonymous.tree.text)) =
        rest.map fun step => (mark step.1, step.2.tree.text) :=
    List.map_congr_left fun step member => by rw [onRest step member]
  simp [Chain.text, onFirst, anonymousSteps_eq_map, Function.comp_def,
    sameRest]

/-- The kinds of values do not show in the text. -/
theorem text_anonymous (expression : Expr) :
    expression.anonymous.tree.text = expression.tree.text := by
  induction expression using induction_parts with
  | step whole inductionHypothesis =>
    rcases whole.shape_cases with
      ⟨name, isApplication⟩ | ⟨text, spelled⟩ |
      ⟨first, operator, second, rest, rfl⟩ |
      ⟨first, operator, second, rest, rfl⟩
    · have sameTexts :
          texts (whole.parts.map anonymous) = texts whole.parts := by
        rw [texts, List.map_map]
        exact List.map_congr_left inductionHypothesis
      rw [text_application isApplication,
        text_application (by simpa using isApplication), argumentTexts,
        parts_anonymous, sameTexts, argumentNames_anonymous, argumentTexts]
    · rw [text_of_spelling spelled,
        text_of_spelling (by simpa using spelled)]
    · rw [parts_product, List.forall_mem_cons, List.forall_mem_map]
        at inductionHypothesis
      rw [anonymous, text_product, text_product]
      exact text_chain_anonymous inductionHypothesis.1 inductionHypothesis.2
    · rw [parts_sum, List.forall_mem_cons, List.forall_mem_map]
        at inductionHypothesis
      rw [anonymous, text_sum, text_sum]
      exact text_chain_anonymous inductionHypothesis.1 inductionHypothesis.2

/-! ## Functions by their parts -/

theorem toList_option_inj {α : Type*} {left right : Option α} :
    left.toList = right.toList ↔ left = right := by
  cases left <;> cases right <;> simp

/-- A function is determined by its name and by what stands in its brackets. -/
theorem application_ext
    {left right : Expr}
    (isApplication : left.head? ≠ none)
    (sameHead : left.head? = right.head?)
    (sameNames : left.argumentNames = right.argumentNames)
    (sameParts : left.parts = right.parts) :
    left = right := by
  cases left with
  | extremum which first rest =>
      cases right with
      | extremum which' first' rest' =>
          cases which <;> cases which' <;>
            simp_all [head?, Extremum.name, parts]
      | _ => cases which <;> simp_all [head?, Extremum.name]
  | _ =>
      cases right with
      | extremum which first rest =>
          cases which <;> simp_all [head?, Extremum.name]
      | _ => simp_all [head?, argumentNames, parts, toList_option_inj]

/-! ## Chains by their texts -/

theorem spaced_injective {operator operator' : String}
    (equal : spaced operator = spaced operator') :
    operator = operator' := by
  have characters := congrArg String.toList equal
  simpa [spaced, String.toList_inj] using characters

theorem isMark_spaced {operator : String} (sign : IsSign operator) :
    IsMark termSeparators 3 (spaced operator) := by
  have border : IsBorder termSeparators ' ' :=
    isBorder_of_mem (by decide) (by decide)
  rcases sign with rfl | rfl
  · exact ⟨rfl, ' ', ['+', ' '], rfl, border⟩
  · exact ⟨rfl, ' ', ['-', ' '], rfl, border⟩

theorem isMark_scaling {operator : String} (scaling : IsScaling operator) :
    IsMark factorSeparators 1 operator := by
  rcases scaling with rfl | rfl
  · exact ⟨rfl, '*', [], rfl, isBorder_of_mem (by decide) (by decide)⟩
  · exact ⟨rfl, '/', [], rfl, isBorder_of_mem (by decide) (by decide)⟩

variable
    {first second right : Expr}
    {operator : String}
    {rest : List (String × Expr)}

theorem linkable_sum
    (legible : (sum first operator second rest).IsLegible) :
    Linkable termSeparators 3 first.tree.text
      (((operator, second) :: rest).map fun step =>
        (spaced step.1, step.2.tree.text)) := by
  rcases legible.layered.here with ⟨firstTerm, steps⟩
  constructor
  · exact (legible.part (by simp [parts])).isEnclosed.term firstTerm
  · rw [List.forall_mem_map]
    intro step member
    rcases steps step member with ⟨sign, isTerm⟩
    have inParts : step.2 ∈ (sum first operator second rest).parts := by
      rw [parts_sum]
      exact List.mem_cons_of_mem _ (List.mem_map_of_mem member)
    exact
      ⟨isMark_spaced sign, (legible.part inParts).isEnclosed.term isTerm⟩

theorem linkable_product
    (legible : (product first operator second rest).IsLegible) :
    Linkable factorSeparators 1 first.tree.text
      (((operator, second) :: rest).map fun step =>
        (step.1, step.2.tree.text)) := by
  rcases legible.layered.here with ⟨firstFactor, steps⟩
  constructor
  · exact (legible.part (by simp [parts])).isEnclosed.factor firstFactor
  · rw [List.forall_mem_map]
    intro step member
    rcases steps step member with ⟨scaling, isFactor⟩
    have inParts : step.2 ∈ (product first operator second rest).parts := by
      rw [parts_product]
      exact List.mem_cons_of_mem _ (List.mem_map_of_mem member)
    exact
      ⟨isMark_scaling scaling,
        (legible.part inParts).isEnclosed.factor isFactor⟩

theorem linkable_alone
    {separators : List Char} {width : Nat} {text : String}
    (enclosed : Enclosed separators text) :
    Linkable separators width text [] :=
  ⟨enclosed, by simp⟩

/-- What has the text of a sum is a sum, of terms with the same texts. -/
theorem exists_of_text_sum
    (legible : (sum first operator second rest).IsLegible)
    (legible' : right.IsLegible)
    (equal :
      (sum first operator second rest).tree.text = right.tree.text) :
    ∃ first' operator' second' rest',
      right = .sum first' operator' second' rest' ∧
        first.tree.text = first'.tree.text ∧
        (((operator, second) :: rest).map fun step =>
            (spaced step.1, step.2.tree.text)) =
          ((operator', second') :: rest').map fun step =>
            (spaced step.1, step.2.tree.text) := by
  rw [text_sum] at equal
  by_cases isSum : right.kind = .sum
  · rcases exists_of_kind_sum isSum with
      ⟨first', operator', second', rest', rfl⟩
    rw [text_sum] at equal
    exact
      ⟨first', operator', second', rest', rfl,
        (linkable_sum legible).eq_of_linked (linkable_sum legible') equal⟩
  -- Without a sum on the right there is nothing that the marks could be.
  · have alone : Linkable termSeparators 3 right.tree.text [] :=
      linkable_alone (legible'.isEnclosed.term isSum)
    have noRest := ((linkable_sum legible).eq_of_linked alone
      (equal.trans (by simp [linked]))).2
    cases noRest

/-- What has the text of a product is one, of factors with the same texts. -/
theorem exists_of_text_product
    (legible : (product first operator second rest).IsLegible)
    (legible' : right.IsLegible)
    (equal :
      (product first operator second rest).tree.text = right.tree.text) :
    ∃ first' operator' second' rest',
      right = .product first' operator' second' rest' ∧
        first.tree.text = first'.tree.text ∧
        (((operator, second) :: rest).map fun step =>
            (step.1, step.2.tree.text)) =
          ((operator', second') :: rest').map fun step =>
            (step.1, step.2.tree.text) := by
  by_cases isSum : right.kind = .sum
  · rcases exists_of_kind_sum isSum with
      ⟨first', operator', second', rest', rfl⟩
    rcases exists_of_text_sum legible' legible equal.symm with
      ⟨_, _, _, _, impossible, _⟩
    cases impossible
  rw [text_product] at equal
  by_cases isProduct : right.kind = .product
  · rcases exists_of_kind_product isProduct with
      ⟨first', operator', second', rest', rfl⟩
    rw [text_product] at equal
    exact
      ⟨first', operator', second', rest', rfl,
        (linkable_product legible).eq_of_linked
          (linkable_product legible') equal⟩
  · have alone : Linkable factorSeparators 1 right.tree.text [] :=
      linkable_alone (legible'.isEnclosed.factor ⟨isSum, isProduct⟩)
    have noRest := ((linkable_product legible).eq_of_linked alone
      (equal.trans (by simp [linked]))).2
    cases noRest

/-! ## Functions and values by their texts -/

theorem opening_mem_text
    {expression : Expr} {name : String}
    (isApplication : expression.head? = some name) :
    '(' ∈ expression.tree.text.toList := by
  rw [text_application isApplication]
  simp [applied]

/-- A value has no brackets, and so it does not have the text of a function. -/
theorem IsLegible.head?_eq_none_of_text
    {left right : Expr} {text : String}
    (legible : left.IsLegible)
    (spelled : left.spelling? = some text)
    (equal : left.tree.text = right.tree.text) :
    right.head? = none := by
  rw [Option.eq_none_iff_forall_ne_some]
  intro name isApplication
  have opening := opening_mem_text isApplication
  rw [← equal, text_of_spelling spelled] at opening
  exact legible.isPlain_of_spelling spelled _ opening (by decide)

/-- What has the text of a value is a value. -/
theorem spelling?_of_text
    {left right : Expr} {text : String}
    (legible : left.IsLegible)
    (legible' : right.IsLegible)
    (spelled : left.spelling? = some text)
    (equal : left.tree.text = right.tree.text) :
    right.spelling? = some text := by
  rcases right.shape_cases with
    ⟨name, isApplication⟩ | ⟨text', spelled'⟩ |
    ⟨first, operator, second, rest, rfl⟩ |
    ⟨first, operator, second, rest, rfl⟩
  · rw [legible.head?_eq_none_of_text spelled equal] at isApplication
    cases isApplication
  · rw [text_of_spelling spelled, text_of_spelling spelled'] at equal
    rw [spelled', equal]
  · rcases exists_of_text_product legible' legible equal.symm with
      ⟨_, _, _, _, rfl, _⟩
    cases spelled
  · rcases exists_of_text_sum legible' legible equal.symm with
      ⟨_, _, _, _, rfl, _⟩
    cases spelled

/-- What has the text of a function is that function, of arguments with the same texts. -/
theorem argumentTexts_of_text
    {left right : Expr} {name : String}
    (legible : left.IsLegible)
    (legible' : right.IsLegible)
    (isApplication : left.head? = some name)
    (equal : left.tree.text = right.tree.text) :
    right.head? = some name ∧ left.argumentTexts = right.argumentTexts := by
  rcases right.shape_cases with
    ⟨name', isApplication'⟩ | ⟨text, spelled⟩ |
    ⟨first, operator, second, rest, rfl⟩ |
    ⟨first, operator, second, rest, rfl⟩
  · rw [text_application isApplication, text_application isApplication']
      at equal
    have noBracket {expression : Expr} {name : String}
        (isApplication : expression.head? = some name) :
        '(' ∉ name.toList := fun member =>
      isPlain_of_head isApplication _ member (by decide)
    have enclosed {expression : Expr} (legible : expression.IsLegible) :=
      legible.enclosed_arguments fun part member =>
        (legible.part member).isEnclosed
    rcases eq_of_applied (noBracket isApplication)
        (noBracket isApplication')
        (argumentTexts_ne_nil isApplication)
        (argumentTexts_ne_nil isApplication')
        (enclosed legible) (enclosed legible') equal with
      ⟨rfl, sameArguments⟩
    exact ⟨isApplication', sameArguments⟩
  · rw [legible'.head?_eq_none_of_text spelled equal.symm] at isApplication
    cases isApplication
  · rcases exists_of_text_product legible' legible equal.symm with
      ⟨_, _, _, _, rfl, _⟩
    cases isApplication
  · rcases exists_of_text_sum legible' legible equal.symm with
      ⟨_, _, _, _, rfl, _⟩
    cases isApplication

/-- The strategy of a rounding is not taken for the value of another one. -/
theorem no_strategy_of_argumentTexts
    {content content' : Expr} {interval interval' : Option Expr}
    {strategy : String}
    (legible : (round none content interval).IsLegible)
    (legible' : (round (some strategy) content' interval').IsLegible)
    (same :
      (round none content interval).argumentTexts =
        (round (some strategy) content' interval').argumentTexts) :
    False := by
  have isStrategy : IsStrategy strategy := legible'.layered.here strategy rfl
  cases interval with
  | none => simp [argumentTexts, argumentNames, parts, texts] at same
  | some interval =>
      have spelledAlike : (raw strategy).tree.text = content.tree.text := by
        simp only [argumentTexts, argumentNames, parts, texts,
          Option.toList_some, Option.toList_none, List.nil_append,
          List.map_cons, List.cons_append, List.cons.injEq] at same
        simpa [tree] using same.1.symm
      have plain : (raw strategy).IsLegible :=
        isLegible_leaf rfl (isPlain_of_isStrategy isStrategy)
      have spelled : content.spelling? = some strategy :=
        spelling?_of_text plain (legible.part (by simp [parts])) rfl
          spelledAlike
      exact legible.unmistakable.here strategy spelled isStrategy

theorem exists_of_head_var
    {expression : Expr} (isVar : expression.head? = some "var") :
    ∃ name fallback, expression = .var name fallback := by
  cases expression with
  | var name fallback => exact ⟨name, fallback, rfl⟩
  | extremum which first rest =>
      cases which <;> simp [head?, Extremum.name] at isVar
  | _ => simp [head?] at isVar

theorem exists_of_head_round
    {expression : Expr} (isRound : expression.head? = some "round") :
    ∃ strategy content interval,
      expression = .round strategy content interval := by
  cases expression with
  | round strategy content interval =>
      exact ⟨strategy, content, interval, rfl⟩
  | extremum which first rest =>
      cases which <;> simp [head?, Extremum.name] at isRound
  | _ => simp [head?] at isRound

/-- Only a variable and a rounding have an argument that is no expression. -/
theorem argumentNames_eq_nil
    {expression : Expr}
    (notVar : expression.head? ≠ some "var")
    (notRound : expression.head? ≠ some "round") :
    expression.argumentNames = [] := by
  cases expression with
  | var name fallback => exact (notVar rfl).elim
  | round strategy content interval => exact (notRound rfl).elim
  | _ => rfl

/-- The names among the arguments are told from the expressions. -/
theorem argumentNames_of_argumentTexts
    {left right : Expr}
    (legible : left.IsLegible)
    (legible' : right.IsLegible)
    (sameHead : left.head? = right.head?)
    (same : left.argumentTexts = right.argumentTexts) :
    left.argumentNames = right.argumentNames := by
  by_cases isVar : left.head? = some "var"
  · rcases exists_of_head_var isVar with ⟨name, fallback, rfl⟩
    rcases exists_of_head_var (sameHead.symm.trans isVar) with
      ⟨name', fallback', rfl⟩
    simp_all [argumentTexts, argumentNames]
  by_cases isRound : left.head? = some "round"
  · rcases exists_of_head_round isRound with
      ⟨strategy, content, interval, rfl⟩
    rcases exists_of_head_round (sameHead.symm.trans isRound) with
      ⟨strategy', content', interval', rfl⟩
    cases strategy with
    | none =>
        cases strategy' with
        | none => rfl
        | some strategy' =>
            exact (no_strategy_of_argumentTexts legible legible' same).elim
    | some strategy =>
        cases strategy' with
        | none =>
            exact (no_strategy_of_argumentTexts legible' legible
              same.symm).elim
        | some strategy' => simp_all [argumentTexts, argumentNames]
  rw [argumentNames_eq_nil isVar isRound,
    argumentNames_eq_nil (sameHead ▸ isVar) (sameHead ▸ isRound)]

/-! ## Recovery -/

/-- Whatever has the text of an expression is that expression. -/
def IsRecoverable (expression : Expr) : Prop :=
  ∀ other : Expr, other.IsLegible →
    expression.tree.text = other.tree.text →
      expression.anonymous = other.anonymous

theorem anonymous_of_texts
    {lefts rights : List Expr}
    (recoverable : ∀ left ∈ lefts, left.IsRecoverable)
    (legible : ∀ right ∈ rights, right.IsLegible)
    (same : texts lefts = texts rights) :
    lefts.map anonymous = rights.map anonymous := by
  induction lefts generalizing rights with
  | nil =>
      cases rights with
      | nil => rfl
      | cons right rights => cases same
  | cons left lefts inductionHypothesis =>
      cases rights with
      | nil => cases same
      | cons right rights =>
          rw [List.forall_mem_cons] at recoverable legible
          simp only [texts, List.map_cons, List.cons.injEq] at same
          rw [List.map_cons, List.map_cons,
            recoverable.1 right legible.1 same.1,
            inductionHypothesis recoverable.2 legible.2 same.2]

theorem anonymousSteps_of_texts
    (mark : String → String)
    (injective : ∀ {operator operator'},
      mark operator = mark operator' → operator = operator')
    {lefts rights : List (String × Expr)}
    (recoverable : ∀ left ∈ lefts, left.2.IsRecoverable)
    (legible : ∀ right ∈ rights, right.2.IsLegible)
    (same :
      (lefts.map fun step => (mark step.1, step.2.tree.text)) =
        rights.map fun step => (mark step.1, step.2.tree.text)) :
    anonymousSteps lefts = anonymousSteps rights := by
  induction lefts generalizing rights with
  | nil =>
      cases rights with
      | nil => rfl
      | cons right rights => cases same
  | cons left lefts inductionHypothesis =>
      cases rights with
      | nil => cases same
      | cons right rights =>
          rw [List.forall_mem_cons] at recoverable legible
          simp only [List.map_cons, List.cons.injEq, Prod.mk.injEq] at same
          rcases same with ⟨⟨sameMark, sameText⟩, same⟩
          rw [anonymousSteps, anonymousSteps, injective sameMark,
            recoverable.1 right.2 legible.1 sameText,
            inductionHypothesis recoverable.2 legible.2 same]

/-- What is spelled out is, in a layered expression, just its text. -/
theorem anonymous_of_spelling
    {expression : Expr} {text : String}
    (legible : expression.IsLegible)
    (spelled : expression.spelling? = some text) :
    expression.anonymous = .raw text := by
  cases expression with
  | leaf kind spelling =>
      have isValue : kind.isValue := legible.layered.here
      cases spelled
      simp [anonymous, isValue]
  | dimension numeral unit =>
      cases spelled
      rfl
  | percentage numeral =>
      cases spelled
      rfl
  | _ => cases spelled

/-- The text of a legible expression belongs to no other one. -/
theorem IsLegible.isRecoverable
    {expression : Expr} (legible : expression.IsLegible) :
    expression.IsRecoverable := by
  induction expression using induction_parts with
  | step whole inductionHypothesis =>
    have recoverable : ∀ part ∈ whole.parts, part.IsRecoverable :=
      fun part member => inductionHypothesis part member (legible.part member)
    intro other legible' equal
    rcases whole.shape_cases with
      ⟨name, isApplication⟩ | ⟨text, spelled⟩ |
      ⟨first, operator, second, rest, rfl⟩ |
      ⟨first, operator, second, rest, rfl⟩
    · rcases argumentTexts_of_text legible legible' isApplication equal with
        ⟨isApplication', sameArguments⟩
      have sameHead : whole.head? = other.head? :=
        isApplication.trans isApplication'.symm
      have sameNames : whole.argumentNames = other.argumentNames :=
        argumentNames_of_argumentTexts legible legible' sameHead sameArguments
      have sameTexts : texts whole.parts = texts other.parts := by
        rw [argumentTexts, argumentTexts, sameNames] at sameArguments
        exact List.append_cancel_left sameArguments
      have sameParts :
          whole.parts.map anonymous = other.parts.map anonymous :=
        anonymous_of_texts recoverable (fun part => legible'.part) sameTexts
      apply application_ext <;> simp [*]
    · rw [anonymous_of_spelling legible spelled,
        anonymous_of_spelling legible'
          (spelling?_of_text legible legible' spelled equal)]
    · rcases exists_of_text_product legible legible' equal with
        ⟨first', operator', second', rest', rfl, sameFirst, sameRest⟩
      have legibleParts :
          ∀ part ∈ (product first' operator' second' rest').parts,
            part.IsLegible :=
        fun part => legible'.part
      rw [parts_product, List.forall_mem_cons, List.forall_mem_map]
        at recoverable legibleParts
      have sameSteps :=
        anonymousSteps_of_texts id id recoverable.2 legibleParts.2 sameRest
      simp only [anonymousSteps, List.cons.injEq, Prod.mk.injEq] at sameSteps
      rw [anonymous, anonymous,
        recoverable.1 first' legibleParts.1 sameFirst, sameSteps.1.1,
        sameSteps.1.2, sameSteps.2]
    · rcases exists_of_text_sum legible legible' equal with
        ⟨first', operator', second', rest', rfl, sameFirst, sameRest⟩
      have legibleParts :
          ∀ part ∈ (sum first' operator' second' rest').parts,
            part.IsLegible :=
        fun part => legible'.part
      rw [parts_sum, List.forall_mem_cons, List.forall_mem_map]
        at recoverable legibleParts
      have sameSteps :=
        anonymousSteps_of_texts spaced spaced_injective recoverable.2
          legibleParts.2 sameRest
      simp only [anonymousSteps, List.cons.injEq, Prod.mk.injEq] at sameSteps
      rw [anonymous, anonymous,
        recoverable.1 first' legibleParts.1 sameFirst, sameSteps.1.1,
        sameSteps.1.2, sameSteps.2]

/--
The text determines an expression, its grouping, the order of its operators,
the nesting and the arguments of its functions and which optional parts there
are, up to the kinds of its values.
-/
theorem text_eq_text_iff
    {left right : Expr}
    (legible : left.IsLegible)
    (legible' : right.IsLegible) :
    left.tree.text = right.tree.text ↔ left.anonymous = right.anonymous := by
  constructor
  · exact legible.isRecoverable right legible'
  · intro same
    rw [← text_anonymous left, ← text_anonymous right, same]

/--
A difference between a multiple of a sum in brackets and a rounding without a
strategy, with signs and a strategy's name within its values.
-/
def roundedOffset (kind : LeafKind) : Expr :=
  .sum
    (.product (.leaf kind "-2") "*"
      (.group (.sum (.leaf kind "1") "-" (.leaf kind "+up") [])) [])
    "-" (.round none (.leaf kind "3px") (some (.calc (.leaf kind "up")))) []

theorem isLegible_roundedOffset
    {kind : LeafKind} (isValue : kind.isValue) :
    (roundedOffset kind).IsLegible := by
  have plain : ∀ text ∈ ["-2", "1", "+up", "3px", "up"], IsPlain text := by
    decide
  have values :
      ∀ text ∈ ["-2", "1", "+up", "3px", "up"], (leaf kind text).IsLegible :=
    fun text member => isLegible_leaf isValue (plain text member)
  have noChain : kind.kind ≠ .sum ∧ kind.kind ≠ .product := by
    cases kind <;> decide
  simp only [List.forall_mem_cons] at values
  simp [roundedOffset, isLegible_iff (.sum _ _ _ _),
    isLegible_iff (.product _ _ _ _), isLegible_iff (.group _),
    isLegible_iff (.round _ _ _), isLegible_iff (.calc _), parts, Layered,
    PlainTexts, Unmistakable, spelling?, IsSign, IsScaling, IsStrategy,
    IsFactor, Expr.kind, noChain, values]

/-- Two expressions that differ only in the kinds of their values are written alike. -/
theorem text_eq_text_iff_roundedOffset :
    (roundedOffset .number).IsLegible ∧ (roundedOffset .raw).IsLegible ∧
      ((roundedOffset .number).tree.text = (roundedOffset .raw).tree.text ↔
        (roundedOffset .number).anonymous =
          (roundedOffset .raw).anonymous) :=
  ⟨isLegible_roundedOffset rfl, isLegible_roundedOffset rfl,
    text_eq_text_iff (isLegible_roundedOffset rfl)
      (isLegible_roundedOffset rfl)⟩

end Expr

end CssMath
