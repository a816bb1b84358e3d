import CssMath.Proofs.Meaning.Plain
import Mathlib.Algebra.Field.Basic
import Mathlib.Algebra.Field.Rat
import Mathlib.Algebra.BigOperators.Group.List.Basic

/-!
# The meaning of expressions

An interpretation in a field chooses a value for every leaf and for every
reference, and a function for every function of expressions.  Groups and
calculations mean their content.  Chains are computed from left to right, sums
by the operators without the blanks around them; an operator that is not one
of the four is given a meaning by the interpretation too.  Division is that of
the field, where a quotient by zero is zero.

Three laws of chains carry all that is proved about compositions.  What is
added to the start of a chain of terms is added to its value, what multiplies
the start of a chain of factors multiplies its value, and a chain of terms is
subtracted by subtracting its start and turning its signs.
-/

namespace CssMath

universe u

/--
What the leaves, the references, the functions and the unknown operators of
expressions stand for.
-/
structure Interpretation (K : Type u) where
  leaf : LeafKind → String → K
  dimension : String → String → K
  percentage : String → K
  var : String → Option Expr → K
  exp : K → K
  pow : K → K → K
  round : Option String → K → Option K → K
  extremum : Extremum → List K → K
  clamp : K → K → K → K
  otherOperator : String → K → K → K

namespace Interpretation

variable
    {K : Type u}
    [Field K]
    (interpretation : Interpretation K)

/-- A total with one more term. -/
def term (operator : String) (total item : K) : K :=
  if operator = "+" then
    total + item
  else if operator = "-" then
    total - item
  else
    interpretation.otherOperator operator total item

/-- A total with one more factor. -/
def factor (operator : String) (total item : K) : K :=
  if operator = "*" then
    total * item
  else if operator = "/" then
    total / item
  else
    interpretation.otherOperator operator total item

mutual

/-- The value of an expression. -/
def value : Expr → K
  | .leaf kind text => interpretation.leaf kind text
  | .dimension numeral unit => interpretation.dimension numeral unit
  | .percentage numeral => interpretation.percentage numeral
  | .group content => value content
  | .var name fallback => interpretation.var name fallback
  | .calc content => value content
  | .exp content => interpretation.exp (value content)
  | .pow base exponent => interpretation.pow (value base) (value exponent)
  | .round strategy content interval =>
      interpretation.round strategy (value content) (valueOption interval)
  | .extremum which first rest =>
      interpretation.extremum which (value first :: values rest)
  | .clamp lower preferred upper =>
      interpretation.clamp (value lower) (value preferred) (value upper)
  | .product first operator second rest =>
      factorsFrom (interpretation.factor operator (value first) (value second))
        rest
  | .sum first operator second rest =>
      termsFrom
        (interpretation.term (trimBlanks operator) (value first)
          (value second))
        rest

/-- The value of an expression that may be absent. -/
def valueOption : Option Expr → Option K
  | none => none
  | some part => some (value part)

/-- The values of several expressions. -/
def values : List Expr → List K
  | [] => []
  | item :: rest => value item :: values rest

/-- The total of further factors behind a total. -/
def factorsFrom (total : K) : List (String × Expr) → K
  | [] => total
  | (operator, item) :: rest =>
      factorsFrom (interpretation.factor operator total (value item)) rest

/-- The total of further terms behind a total. -/
def termsFrom (total : K) : List (String × Expr) → K
  | [] => total
  | (operator, item) :: rest =>
      termsFrom
        (interpretation.term (trimBlanks operator) total (value item)) rest

end

theorem valueOption_eq_map (part : Option Expr) :
    interpretation.valueOption part = part.map interpretation.value := by
  cases part <;> rfl

theorem values_eq_map (items : List Expr) :
    interpretation.values items = items.map interpretation.value := by
  induction items with
  | nil => rfl
  | cons item rest inductionHypothesis =>
      simp [values, inductionHypothesis]

/-! ## Calculations and chains -/

@[simp]
theorem value_calc (content : Expr) :
    interpretation.value (.calc content) = interpretation.value content :=
  rfl

@[simp]
theorem value_withoutOneCalc (expression : Expr) :
    interpretation.value expression.withoutOneCalc =
      interpretation.value expression := by
  cases expression <;> rfl

@[simp]
theorem value_withoutCalc (expression : Expr) :
    interpretation.value expression.withoutCalc =
      interpretation.value expression := by
  fun_induction Expr.withoutCalc expression with
  | case1 content inductionHypothesis => exact inductionHypothesis
  | case2 expression noCalc => rfl

theorem value_sumOf (first : Expr) (rest : List (String × Expr)) :
    interpretation.value (.sumOf first rest) =
      interpretation.termsFrom (interpretation.value first) rest := by
  cases rest <;> rfl

theorem value_productOf (first : Expr) (rest : List (String × Expr)) :
    interpretation.value (.productOf first rest) =
      interpretation.factorsFrom (interpretation.value first) rest := by
  cases rest <;> rfl

/-- A total with one more member of a chain. -/
def step : Kind → K → String × Expr → K
  | .sum => fun total step =>
      interpretation.term (trimBlanks step.1) total
        (interpretation.value step.2)
  | _ => fun total step =>
      interpretation.factor step.1 total (interpretation.value step.2)

/-- The value of a chain, of terms if it is for a sum and else of factors. -/
def chainValue (level : Kind) : Chain → K :=
  Chain.fold interpretation.value (interpretation.step level)

theorem termsFrom_eq_foldl (total : K) (rest : List (String × Expr)) :
    interpretation.termsFrom total rest =
      rest.foldl (interpretation.step .sum) total := by
  induction rest generalizing total with
  | nil => rfl
  | cons step rest inductionHypothesis =>
      exact inductionHypothesis _

theorem factorsFrom_eq_foldl (total : K) (rest : List (String × Expr)) :
    interpretation.factorsFrom total rest =
      rest.foldl (interpretation.step .product) total := by
  induction rest generalizing total with
  | nil => rfl
  | cons step rest inductionHypothesis =>
      exact inductionHypothesis _

theorem chainValue_sum (chain : Chain) :
    interpretation.chainValue .sum chain =
      interpretation.termsFrom (interpretation.value chain.first)
        chain.rest :=
  (interpretation.termsFrom_eq_foldl _ _).symm

theorem chainValue_product (chain : Chain) :
    interpretation.chainValue .product chain =
      interpretation.factorsFrom (interpretation.value chain.first)
        chain.rest :=
  (interpretation.factorsFrom_eq_foldl _ _).symm

/-- The sum or the product of a chain has the value of the chain. -/
theorem value_ofChain (level : Kind) (chain : Chain) :
    interpretation.value (.ofChain level chain) =
      interpretation.chainValue level chain := by
  cases level with
  | sum => rw [Expr.ofChain, value_sumOf, chainValue_sum]
  | _ =>
      rw [Expr.ofChain_of_ne (by simp), value_productOf]
      exact (interpretation.chainValue_product chain).symm

/-! ## Chains behind an operator -/

@[simp]
theorem term_plus (total item : K) :
    interpretation.term "+" total item = total + item := rfl

@[simp]
theorem term_minus (total item : K) :
    interpretation.term "-" total item = total - item := rfl

@[simp]
theorem factor_times (total item : K) :
    interpretation.factor "*" total item = total * item := rfl

@[simp]
theorem factor_over (total item : K) :
    interpretation.factor "/" total item = total / item := rfl

/-- What is added to the start of a chain of terms is added to its value. -/
theorem termsFrom_add
    {rest : List (String × Expr)}
    (signs : ∀ step ∈ rest, IsSign step.1)
    (total start : K) :
    interpretation.termsFrom (total + start) rest =
      total + interpretation.termsFrom start rest := by
  induction rest generalizing start with
  | nil => rfl
  | cons step rest inductionHypothesis =>
      rcases step with ⟨operator, item⟩
      have signsRest : ∀ step ∈ rest, IsSign step.1 := by
        intro step member
        exact signs step (by simp [member])
      rcases signs (operator, item) (by simp) with rfl | rfl
      · simp only [termsFrom, trimBlanks_plus, term_plus, add_assoc]
        exact inductionHypothesis signsRest _
      · simp only [termsFrom, trimBlanks_minus, term_minus, add_sub_assoc]
        exact inductionHypothesis signsRest _

/-- Subtracting a chain of terms is subtracting its start and turning its signs. -/
theorem termsFrom_sub
    {rest : List (String × Expr)}
    (signs : ∀ step ∈ rest, IsSign step.1)
    (total start : K) :
    interpretation.termsFrom (total - start)
        (rest.map fun step => (reverseSign step.1, step.2)) =
      total - interpretation.termsFrom start rest := by
  -- The start varies, since each step moves one term into it.
  induction rest generalizing start with
  | nil => rfl
  | cons step rest inductionHypothesis =>
      rcases step with ⟨operator, item⟩
      have signsRest : ∀ step ∈ rest, IsSign step.1 := by
        intro step member
        exact signs step (by simp [member])
      rcases signs (operator, item) (by simp) with rfl | rfl
      · have turned : reverseSign "+" = "-" := rfl
        simp only [List.map_cons, termsFrom, turned, trimBlanks_plus,
          trimBlanks_minus, term_plus, term_minus, sub_sub]
        exact inductionHypothesis signsRest _
      · have turned : reverseSign "-" = "+" := rfl
        simp only [List.map_cons, termsFrom, turned, trimBlanks_plus,
          trimBlanks_minus, term_plus, term_minus, sub_add]
        exact inductionHypothesis signsRest _

/-- What multiplies the start of a chain of factors multiplies its value. -/
theorem factorsFrom_mul
    {rest : List (String × Expr)}
    (scalings : ∀ step ∈ rest, IsScaling step.1)
    (total start : K) :
    interpretation.factorsFrom (total * start) rest =
      total * interpretation.factorsFrom start rest := by
  induction rest generalizing start with
  | nil => rfl
  | cons step rest inductionHypothesis =>
      rcases step with ⟨operator, item⟩
      have scalingsRest : ∀ step ∈ rest, IsScaling step.1 := by
        intro step member
        exact scalings step (by simp [member])
      rcases scalings (operator, item) (by simp) with rfl | rfl
      · simp only [factorsFrom, factor_times, mul_assoc]
        exact inductionHypothesis scalingsRest _
      · simp only [factorsFrom, factor_over, mul_div_assoc]
        exact inductionHypothesis scalingsRest _

variable
    {operand : Expr → Prop}
    {chain : Chain}

theorem termsFrom_behind_plus
    (members : chain.All IsSign operand) (total : K) :
    interpretation.termsFrom total (chain.behind "+" id) =
      total + interpretation.chainValue .sum chain := by
  rw [chainValue_sum, ← termsFrom_add interpretation members.operators]
  simp [Chain.behind, termsFrom]

theorem termsFrom_behind_minus
    (members : chain.All IsSign operand) (total : K) :
    interpretation.termsFrom total (chain.behind "-" reverseSign) =
      total - interpretation.chainValue .sum chain := by
  rw [chainValue_sum, ← termsFrom_sub interpretation members.operators]
  simp [Chain.behind, termsFrom]

theorem factorsFrom_behind_times
    (members : chain.All IsScaling operand) (total : K) :
    interpretation.factorsFrom total (chain.behind "*" id) =
      total * interpretation.chainValue .product chain := by
  rw [chainValue_product, ← factorsFrom_mul interpretation members.operators]
  simp [Chain.behind, factorsFrom]

/-! ## An interpretation in the rationals -/

/-- A text of decimal digits as a whole number. -/
def wholeNumber (text : String) : ℕ :=
  text.toList.foldl
    (fun total digit => 10 * total + (digit.toNat - '0'.toNat)) 0

/--
Numerals are whole numbers, whatever their unit, and a percentage is a
hundredth of its numeral.  References are one, and what would leave the
rationals keeps its first argument.
-/
def rational : Interpretation ℚ where
  leaf _ text := wholeNumber text
  dimension numeral _ := wholeNumber numeral
  percentage numeral := wholeNumber numeral / 100
  var _ _ := 1
  exp content := content
  pow base _ := base
  round _ content _ := content
  extremum
    | .min, items => items.foldl min (items.headD 0)
    | .max, items => items.foldl max (items.headD 0)
  clamp lower preferred upper := max lower (min preferred upper)
  otherOperator _ total _ := total

end Interpretation

end CssMath
