import CssMath.Expr.Layout
import CssMath.Proofs.Inheritance

/-!
# Normal form

Whatever is composed from scalars has a normal form: calculations stand at the
root only, sums have no sums for terms, products have neither sums nor
products for factors, and brackets stand around sums only.  This is so for any
order of compositions, with results and parts of results used again.

A session is the list of expressions that have been made so far.  It grows by
one result at a time, which may use all earlier ones.  The invariant of a
session is that each of its expressions is regular apart from a calculation at
the root.  Regularity looks at one layer only, so that it is kept by cutting
parts out (`IsNormal.regular_part`) and by joining chains (`Call.isNormal_compose`).
-/

namespace CssMath

namespace Expr

/-! ## Regular expressions -/

/-- An expression may stand among the factors of a product without brackets. -/
def IsFactor (expression : Expr) : Prop :=
  expression.kind ≠ .sum ∧ expression.kind ≠ .product

/-- An expression may stand among the members of a chain without brackets. -/
def IsMember : Kind → Expr → Prop
  | .sum => fun expression => expression.kind ≠ .sum
  | _ => IsFactor

/-- What the normal form asks of one layer of an expression. -/
def Regular : Expr → Prop
  | .calc _ => False
  | .group content => content.kind = .sum
  | .product first operator second rest =>
      IsFactor first ∧
        ∀ step ∈ (operator, second) :: rest,
          IsScaling step.1 ∧ IsFactor step.2
  | .sum first operator second rest =>
      first.kind ≠ .sum ∧
        ∀ step ∈ (operator, second) :: rest,
          IsSign step.1 ∧ step.2.kind ≠ .sum
  | _ => True

/-- An expression is regular throughout, apart from a calculation at the root. -/
def IsNormal (expression : Expr) : Prop :=
  Everywhere Regular expression.withoutOneCalc

/-- A regular expression has no calculation to remove. -/
theorem Regular.withoutCalc
    {expression : Expr} (regular : expression.Regular) :
    expression.withoutCalc = expression := by
  cases expression with
  | «calc» content => exact regular.elim
  | _ => rfl

theorem Regular.kind_ne
    {expression : Expr} (regular : expression.Regular) :
    expression.kind ≠ .calc := by
  rw [← regular.withoutCalc]
  exact expression.kind_withoutCalc_ne

theorem isNormal_of_everywhere
    {expression : Expr} (regular : Everywhere Regular expression) :
    expression.IsNormal :=
  Everywhere.withoutOneCalc expression regular

/-- All calculations are removed with the first. -/
theorem IsNormal.withoutCalc
    {expression : Expr} (normal : expression.IsNormal) :
    Everywhere Regular expression.withoutCalc := by
  cases expression with
  | «calc» content =>
      have regular : Everywhere Regular content := normal
      rw [Expr.withoutCalc, regular.here.withoutCalc]
      exact regular
  | _ => exact normal

/-- The parts of a normal expression are regular, and so they are normal. -/
theorem IsNormal.regular_part
    {part whole : Expr}
    (normal : whole.IsNormal)
    (member : part ∈ whole.parts) :
    Everywhere Regular part := by
  cases whole with
  | «calc» content =>
      rcases List.mem_singleton.mp member with rfl
      exact normal
  | _ => exact Everywhere.part normal member

/-- Only the calculation at the root of a normal expression is not regular. -/
theorem IsNormal.regular_of_occurs
    {inner expression : Expr}
    (normal : expression.IsNormal)
    (occurs : Occurs inner expression)
    (noCalc : inner.kind ≠ .calc) :
    inner.Regular := by
  cases occurs with
  | here =>
      cases inner with
      | «calc» content => exact (noCalc rfl).elim
      | _ => exact normal.here
  | within member inside => exact normal.regular_part member inner inside

/-! ## Regular chains -/

theorem regular_terms
    {expression : Expr} (regular : Everywhere Regular expression) :
    expression.terms.All IsSign fun term =>
      Everywhere Regular term ∧ term.kind ≠ .sum := by
  by_cases isSum : expression.kind = .sum
  · rcases exists_of_kind_sum isSum with ⟨first, operator, second, rest, rfl⟩
    rcases everywhere_sum_iff.mp regular with
      ⟨⟨firstNoSum, steps⟩, onFirst, onRest⟩
    constructor
    · exact ⟨onFirst, firstNoSum⟩
    · intro step member
      rw [Expr.terms,
        trimmedTerms_of_signs fun step member => (steps step member).1]
        at member
      exact ⟨(steps step member).1, onRest step member, (steps step member).2⟩
  · rw [terms_of_kind_ne isSum]
    exact ⟨⟨regular, isSum⟩, by simp⟩

theorem regular_factors
    {expression : Expr} (regular : Everywhere Regular expression) :
    expression.factors.All IsScaling fun factor =>
      Everywhere Regular factor ∧ IsFactor factor := by
  by_cases isSum : expression.kind = .sum
  -- A sum is a factor by its brackets, which is where groups come from.
  · have grouped : Everywhere Regular (.group expression) :=
      (everywhere_iff _).mpr ⟨isSum, by simpa [parts] using regular⟩
    rcases exists_of_kind_sum isSum with ⟨first, operator, second, rest, rfl⟩
    refine ⟨⟨grouped, ?_⟩, by simp [Expr.factors]⟩
    simp [IsFactor, Expr.factors, kind]
  by_cases isProduct : expression.kind = .product
  · rcases exists_of_kind_product isProduct with
      ⟨first, operator, second, rest, rfl⟩
    rcases everywhere_product_iff.mp regular with
      ⟨⟨firstFactor, steps⟩, onFirst, onRest⟩
    constructor
    · exact ⟨onFirst, firstFactor⟩
    · intro step member
      exact ⟨(steps step member).1, onRest step member, (steps step member).2⟩
  · rw [factors_of_kind_ne isSum isProduct]
    exact ⟨⟨regular, isSum, isProduct⟩, by simp⟩

theorem regular_chainAt
    (level : Kind)
    {expression : Expr} (regular : Everywhere Regular expression) :
    (expression.chainAt level).All (IsOperator level) fun part =>
      Everywhere Regular part ∧ IsMember level part := by
  cases level with
  | sum => exact regular_terms regular
  | _ => exact regular_factors regular

theorem regular_sumOf
    {chain : Chain}
    (members : chain.All IsSign fun term =>
      Everywhere Regular term ∧ term.kind ≠ .sum) :
    Everywhere Regular (.sumOf chain.first chain.rest) := by
  refine everywhere_sumOf ?_ members.first.1 fun step member =>
    (members.rest step member).2.1
  intro operator second others equal
  refine ⟨members.first.2, ?_⟩
  intro step member
  rcases members.rest step (equal ▸ member) with ⟨sign, _, noSum⟩
  exact ⟨sign, noSum⟩

theorem regular_productOf
    {chain : Chain}
    (members : chain.All IsScaling fun factor =>
      Everywhere Regular factor ∧ IsFactor factor) :
    Everywhere Regular (.productOf chain.first chain.rest) := by
  refine everywhere_productOf ?_ members.first.1 fun step member =>
    (members.rest step member).2.1
  intro operator second others equal
  refine ⟨members.first.2, ?_⟩
  intro step member
  rcases members.rest step (equal ▸ member) with ⟨scaling, _, isFactor⟩
  exact ⟨scaling, isFactor⟩

theorem regular_ofChain
    {level : Kind} {chain : Chain}
    (members : chain.All (IsOperator level) fun part =>
      Everywhere Regular part ∧ IsMember level part) :
    Everywhere Regular (ofChain level chain) := by
  cases level with
  | sum => exact regular_sumOf members
  | _ => exact regular_productOf members

end Expr

/-! ## Normal operands -/

/-- A scalar, or a normal expression. -/
def Operand.IsNormal : Operand → Prop
  | .scalar _ => True
  | .expr expression => expression.IsNormal

theorem Scalar.regular_expr (scalar : Scalar) :
    Expr.Everywhere Expr.Regular scalar.expr :=
  scalar.everywhere_expr
    (fun _ _ => trivial) (fun _ => trivial) (fun _ _ => trivial)

namespace Operand.IsNormal

theorem asMember
    {operand : Operand} (normal : operand.IsNormal) :
    Expr.Everywhere Expr.Regular operand.asMember := by
  cases operand with
  | scalar scalar => exact scalar.regular_expr
  | expr expression => exact Expr.IsNormal.withoutCalc normal

theorem asArgument
    {operand : Operand} (normal : operand.IsNormal) :
    Expr.Everywhere Expr.Regular operand.asArgument := by
  cases operand with
  | scalar scalar => exact scalar.regular_expr
  | expr expression => exact normal

end Operand.IsNormal

/-- A call of normal operands composes a normal expression. -/
theorem Call.isNormal_compose
    {call : Call (Option Operand)} {expression : Expr}
    (normal : ∀ operand, some operand ∈ call.operands → operand.IsNormal)
    (composed : call.compose = .ok expression) :
    expression.IsNormal := by
  by_cases function : call.IsFunction
  · apply Expr.isNormal_of_everywhere
    refine Call.everywhere_compose function composed ?_ trivial ?_
    · have isFunction := Call.isFunction_compose function composed
      cases expression <;> trivial
    · intro operand member
      exact (normal operand member).asArgument
  · cases call with
    | arithmetic operation operands =>
        have composes := Arithmetic.compose_inherits
          (fun operand member =>
            Expr.regular_chainAt operation.level
              (normal operand member).asMember)
          composed
        rcases composes with ⟨chain, members, rfl⟩
        exact Expr.regular_ofChain members
    | _ => exact (function trivial).elim

/-! ## Sessions -/

/-- The parts of an expression that can be read off it by name. -/
def Expr.readable (expression : Expr) : List Expr :=
  expression.content?.toList ++
    expression.first?.toList ++
    (expression.operations?.getD []).map Prod.snd ++
    expression.items?.getD [] ++
    expression.base?.toList ++
    expression.exponent?.toList ++
    (expression.interval?.bind id).toList ++
    expression.lower?.toList ++
    expression.preferred?.toList ++
    expression.upper?.toList

/-- What can be read off an expression is a part of it. -/
theorem Expr.mem_parts_of_mem_readable
    {part whole : Expr} (member : part ∈ whole.readable) :
    part ∈ whole.parts := by
  cases whole <;>
    simp_all [readable, parts, content?, first?, operations?, items?, base?,
      exponent?, interval?, lower?, preferred?, upper?, trimmedTerms]

/-- An operand that a session provides: a scalar or an earlier result. -/
def Operand.ProvidedBy (results : List Expr) : Operand → Prop
  | .scalar _ => True
  | .expr expression => expression ∈ results

/-- The results of a session, of which the latest comes first. -/
inductive Session : List Expr → Prop where
  | start :
      Session []
  | value
      {results : List Expr}
      (session : Session results)
      (scalar : Scalar) :
      Session (scalar.expr :: results)
  | argument
      {results : List Expr}
      (session : Session results)
      {operand : Operand}
      (provided : operand.ProvidedBy results) :
      Session (operand.asArgument :: results)
  | compose
      {results : List Expr}
      (session : Session results)
      {call : Call (Option Operand)}
      (provided : ∀ operand, some operand ∈ call.operands →
        operand.ProvidedBy results)
      {expression : Expr}
      (composed : call.compose = .ok expression) :
      Session (expression :: results)
  | read
      {results : List Expr}
      (session : Session results)
      {whole part : Expr}
      (earlier : whole ∈ results)
      (member : part ∈ whole.readable) :
      Session (part :: results)

theorem Operand.ProvidedBy.isNormal
    {results : List Expr} {operand : Operand}
    (provided : operand.ProvidedBy results)
    (normal : ∀ expression ∈ results, expression.IsNormal) :
    operand.IsNormal := by
  cases operand with
  | scalar scalar => trivial
  | expr expression => exact normal expression provided

/-- Each step of a session makes one more normal expression. -/
theorem Session.isNormal
    {results : List Expr} (session : Session results) :
    ∀ expression ∈ results, expression.IsNormal := by
  induction session with
  | start => simp
  | value session scalar inductionHypothesis =>
      rw [List.forall_mem_cons]
      exact
        ⟨Expr.isNormal_of_everywhere scalar.regular_expr,
          inductionHypothesis⟩
  | argument session provided inductionHypothesis =>
      rw [List.forall_mem_cons]
      have normal := provided.isNormal inductionHypothesis
      exact
        ⟨Expr.isNormal_of_everywhere normal.asArgument,
          inductionHypothesis⟩
  | compose session provided composed inductionHypothesis =>
      rw [List.forall_mem_cons]
      have normal := Call.isNormal_compose
        (fun operand member =>
          (provided operand member).isNormal inductionHypothesis)
        composed
      exact ⟨normal, inductionHypothesis⟩
  | read session earlier member inductionHypothesis =>
      rw [List.forall_mem_cons]
      have normal := inductionHypothesis _ earlier
      exact
        ⟨Expr.isNormal_of_everywhere
            (normal.regular_part (Expr.mem_parts_of_mem_readable member)),
          inductionHypothesis⟩

/-! ## The normal form in full -/

/-- The normal form of expressions, layer by layer. -/
structure NormalForm (expression : Expr) : Prop where
  calculations :
    ∀ part ∈ expression.parts, ∀ inner, Expr.Occurs inner part →
      inner.kind ≠ .calc
  chains :
    ∀ inner, Expr.Occurs inner expression → inner.operations? ≠ some []
  sums :
    ∀ first operator second rest,
      Expr.Occurs (.sum first operator second rest) expression →
        first.kind ≠ .sum ∧
          ∀ step ∈ (operator, second) :: rest,
            IsSign step.1 ∧
              (Expr.sumToken step.1 = .token " + " ∨
                Expr.sumToken step.1 = .token " - ") ∧
              step.2.kind ≠ .sum
  products :
    ∀ first operator second rest,
      Expr.Occurs (.product first operator second rest) expression →
        first.kind ≠ .sum ∧ first.kind ≠ .product ∧
          ∀ step ∈ (operator, second) :: rest,
            IsScaling step.1 ∧
              step.2.kind ≠ .sum ∧ step.2.kind ≠ .product
  groups :
    ∀ content, Expr.Occurs (.group content) expression →
      content.kind = .sum
  extrema :
    ∀ inner, Expr.Occurs inner expression → inner.items? ≠ some []

theorem IsSign.sumToken
    {operator : String} (sign : IsSign operator) :
    Expr.sumToken operator = .token " + " ∨
      Expr.sumToken operator = .token " - " := by
  rcases sign with rfl | rfl
  · exact Or.inl rfl
  · exact Or.inr rfl

theorem Expr.IsNormal.normalForm
    {expression : Expr} (normal : expression.IsNormal) :
    NormalForm expression where
  calculations part member inner inside :=
    (normal.regular_part member inner inside).kind_ne
  chains inner _ := by
    cases inner <;> simp [operations?, trimmedTerms]
  sums first operator second rest occurs := by
    rcases normal.regular_of_occurs occurs (by simp [kind]) with
      ⟨firstNoSum, steps⟩
    refine ⟨firstNoSum, ?_⟩
    intro step member
    rcases steps step member with ⟨sign, noSum⟩
    exact ⟨sign, sign.sumToken, noSum⟩
  products first operator second rest occurs := by
    rcases normal.regular_of_occurs occurs (by simp [kind]) with
      ⟨firstFactor, steps⟩
    exact ⟨firstFactor.1, firstFactor.2, steps⟩
  groups content occurs :=
    normal.regular_of_occurs occurs (by simp [kind])
  extrema inner _ := by
    cases inner <;> simp [items?]

/-- Everything that a session makes has the normal form. -/
theorem Session.normalForm_of_mem
    {results : List Expr} (session : Session results)
    {expression : Expr} (made : expression ∈ results) :
    NormalForm expression :=
  (session.isNormal expression made).normalForm

/-- One and two. -/
def smallSum : Expr :=
  .sum (.number "1") "+" (.number "2") []

/-- A sum is made and read out of its calculation, and then multiplied. -/
theorem Session.normalForm_of_mem_product :
    Session
        [ .calc (.product (.group smallSum) "*" (.number "3") []),
          smallSum,
          .calc smallSum] ∧
      NormalForm
        (.calc (.product (.group smallSum) "*" (.number "3") [])) := by
  have added :
      (Call.arithmetic .add
          [ some (.scalar (.integer 1)),
            some (.scalar (.integer 2))]).compose =
        .ok (.calc smallSum) := by
    rfl
  have multiplied :
      (Call.arithmetic .multiply
          [ some (.expr smallSum),
            some (.scalar (.integer 3))]).compose =
        .ok (.calc (.product (.group smallSum) "*" (.number "3") [])) := by
    rfl
  have first : Session [.calc smallSum] := by
    refine .compose .start ?_ added
    simp [Call.operands, Operand.ProvidedBy]
  have readable : smallSum ∈ (Expr.calc smallSum).readable := by
    simp [Expr.readable, Expr.content?]
  have second : Session [smallSum, .calc smallSum] :=
    .read first (List.mem_singleton_self _) readable
  have third :
      Session
        [ .calc (.product (.group smallSum) "*" (.number "3") []),
          smallSum,
          .calc smallSum] := by
    refine .compose second ?_ multiplied
    simp [Call.operands, Operand.ProvidedBy]
  exact ⟨third, third.normalForm_of_mem (by simp)⟩

end CssMath
