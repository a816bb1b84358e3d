import CssMath.Compose.Chain
import CssMath.Proofs.Occurrence
import Mathlib.Data.List.Basic

/-!
# Laws of chains

Every expression is a chain of terms and a chain of factors, and most have a
single member.  A property of the operators together with a property of the
operands passes from some chains to the chain that joins them
(`Chain.All.join`), and reading a joined chain from left to right is reading
the chains one after the other (`Chain.fold_join`, `Chain.fold_join_map`).
-/

namespace CssMath

universe u v

/-! ## Operators -/

@[simp]
theorem trimBlanks_plus : trimBlanks "+" = "+" := rfl

@[simp]
theorem trimBlanks_minus : trimBlanks "-" = "-" := rfl

/-- The operators of sums. -/
def IsSign (operator : String) : Prop :=
  operator = "+" ∨ operator = "-"

/-- The operators of products. -/
def IsScaling (operator : String) : Prop :=
  operator = "*" ∨ operator = "/"

/-- The operators of sums or of products. -/
def IsOperator : Kind → String → Prop
  | .sum => IsSign
  | _ => IsScaling

theorem IsSign.reverseSign
    {operator : String} (sign : IsSign operator) :
    IsSign (reverseSign operator) := by
  rcases sign with rfl | rfl
  · exact Or.inr rfl
  · exact Or.inl rfl

theorem IsSign.trimBlanks
    {operator : String} (sign : IsSign operator) :
    trimBlanks operator = operator := by
  rcases sign with rfl | rfl <;> rfl

namespace Expr

/-! ## Expressions as chains -/

/-- Nothing is left to remove once the calculations are removed. -/
theorem kind_withoutCalc_ne (expression : Expr) :
    expression.withoutCalc.kind ≠ .calc := by
  fun_induction Expr.withoutCalc expression with
  | case1 content inductionHypothesis => exact inductionHypothesis
  | case2 expression noCalc =>
      intro isCalc
      cases expression with
      | «calc» content => exact noCalc content rfl
      | leaf kind text => cases kind <;> simp [kind, LeafKind.kind] at isCalc
      | extremum which first rest =>
          cases which <;> simp [kind, Extremum.kind] at isCalc
      | _ => simp [kind] at isCalc

theorem exists_of_kind_sum
    {expression : Expr} (isSum : expression.kind = .sum) :
    ∃ first operator second rest,
      expression = .sum first operator second rest := by
  cases expression with
  | sum first operator second rest =>
      exact ⟨first, operator, second, rest, rfl⟩
  | leaf kind text => cases kind <;> simp [kind, LeafKind.kind] at isSum
  | extremum which first rest =>
      cases which <;> simp [kind, Extremum.kind] at isSum
  | _ => simp [kind] at isSum

theorem exists_of_kind_product
    {expression : Expr} (isProduct : expression.kind = .product) :
    ∃ first operator second rest,
      expression = .product first operator second rest := by
  cases expression with
  | product first operator second rest =>
      exact ⟨first, operator, second, rest, rfl⟩
  | leaf kind text => cases kind <;> simp [kind, LeafKind.kind] at isProduct
  | extremum which first rest =>
      cases which <;> simp [kind, Extremum.kind] at isProduct
  | _ => simp [kind] at isProduct

theorem withoutCalc_of_kind_ne
    {expression : Expr}
    (noCalc : expression.kind ≠ .calc) :
    expression.withoutCalc = expression := by
  cases expression with
  | «calc» content => exact (noCalc rfl).elim
  | _ => rfl

theorem terms_of_kind_ne
    {expression : Expr}
    (noSum : expression.kind ≠ .sum) :
    expression.terms = ⟨expression, []⟩ := by
  cases expression with
  | sum first operator second rest => exact (noSum rfl).elim
  | _ => rfl

/-- Operators without blanks around them have nothing to lose. -/
theorem trimmedTerms_eq_self
    {rest : List (String × Expr)}
    (trimmed : ∀ step ∈ rest, trimBlanks step.1 = step.1) :
    trimmedTerms rest = rest := by
  calc
    trimmedTerms rest = rest.map id := by
      apply List.map_congr_left
      intro step member
      exact Prod.ext (trimmed step member) rfl
    _ = rest := List.map_id rest

theorem trimmedTerms_of_signs
    {rest : List (String × Expr)}
    (signs : ∀ step ∈ rest, IsSign step.1) :
    trimmedTerms rest = rest :=
  trimmedTerms_eq_self fun step member => (signs step member).trimBlanks

/-- Apart from the brackets of a sum, only a product is taken apart into factors. -/
theorem factors_of_kind_ne
    {expression : Expr}
    (noSum : expression.kind ≠ .sum)
    (noProduct : expression.kind ≠ .product) :
    expression.factors = ⟨expression, []⟩ := by
  cases expression with
  | sum first operator second rest => exact (noSum rfl).elim
  | product first operator second rest => exact (noProduct rfl).elim
  | _ => rfl

/--
The calculation of a chain of terms is that chain again, unless a single term
is itself taken apart.
-/
theorem terms_withoutCalc_sumOf
    {first : Expr} {rest : List (String × Expr)}
    (alone : rest = [] → first.kind ≠ .calc ∧ first.kind ≠ .sum)
    (trimmed : ∀ step ∈ rest, trimBlanks step.1 = step.1) :
    (Expr.calc (.sumOf first rest)).withoutCalc.terms = ⟨first, rest⟩ := by
  cases rest with
  | nil =>
      rcases alone rfl with ⟨noCalc, noSum⟩
      rw [withoutCalc, sumOf, withoutCalc_of_kind_ne noCalc,
        terms_of_kind_ne noSum]
  | cons step rest =>
      simp [withoutCalc, sumOf, terms, trimmedTerms_eq_self trimmed]

/-- The calculation of a chain of factors likewise. -/
theorem factors_withoutCalc_productOf
    {first : Expr} {rest : List (String × Expr)}
    (alone : rest = [] →
      first.kind ≠ .calc ∧ first.kind ≠ .sum ∧ first.kind ≠ .product) :
    (Expr.calc (.productOf first rest)).withoutCalc.factors =
      ⟨first, rest⟩ := by
  cases rest with
  | nil =>
      rcases alone rfl with ⟨noCalc, noSum, noProduct⟩
      rw [withoutCalc, productOf, withoutCalc_of_kind_ne noCalc,
        factors_of_kind_ne noSum noProduct]
  | cons step rest => rfl

end Expr

/-- A scalar has nothing to be taken apart. -/
theorem Scalar.kind_expr_ne (scalar : Scalar) :
    scalar.expr.kind ≠ .calc ∧
      scalar.expr.kind ≠ .sum ∧
      scalar.expr.kind ≠ .product := by
  rcases scalar.expr_eq with
    ⟨text, equal⟩ | ⟨numeral, equal⟩ | ⟨numeral, unit, equal⟩ |
    ⟨text, equal⟩ <;>
  simp [equal, Expr.kind, LeafKind.kind]

theorem Operand.kind_asMember_ne (operand : Operand) :
    operand.asMember.kind ≠ .calc := by
  cases operand with
  | scalar scalar => exact scalar.kind_expr_ne.1
  | expr expression => exact expression.kind_withoutCalc_ne

/-- Values combined from left to right; nothing if there are none. -/
def accumulate {β : Type u} (combine : β → β → β) : List β → Option β
  | [] => none
  | first :: others => some (others.foldl combine first)

/-! ## Properties of chains -/

namespace Chain

/-- All the operators of a chain have one property and all its operands another. -/
structure All
    (operator : String → Prop) (operand : Expr → Prop) (chain : Chain) :
    Prop where
  first : operand chain.first
  rest : ∀ step ∈ chain.rest, operator step.1 ∧ operand step.2

variable
    {operator : String → Prop}
    {operand : Expr → Prop}
    {joining : String}
    {carry : String → String}

theorem All.operators
    {chain : Chain}
    (members : chain.All operator operand) :
    ∀ step ∈ chain.rest, operator step.1 := by
  intro step member
  exact (members.rest step member).1

theorem All.behind
    {chain : Chain}
    (members : chain.All operator operand)
    (joiningHolds : operator joining)
    (carryKeeps : ∀ sign, operator sign → operator (carry sign)) :
    ∀ step ∈ chain.behind joining carry,
      operator step.1 ∧ operand step.2 := by
  intro step member
  simp only [Chain.behind, List.mem_cons, List.mem_map] at member
  rcases member with rfl | ⟨inner, innerMember, rfl⟩
  · exact ⟨joiningHolds, members.first⟩
  · have holds := members.rest inner innerMember
    exact ⟨carryKeeps inner.1 holds.1, holds.2⟩

/-- What all the members of some chains have, those of the joined chain have. -/
theorem All.join
    {chains : List Chain}
    {joined : Chain}
    (members : ∀ chain ∈ chains, chain.All operator operand)
    (joiningHolds : operator joining)
    (carryKeeps : ∀ sign, operator sign → operator (carry sign))
    (joins : Chain.join joining carry chains = some joined) :
    joined.All operator operand := by
  cases chains with
  | nil => simp [Chain.join] at joins
  | cons leading others =>
      simp only [Chain.join, Option.some.injEq] at joins
      subst joined
      have leadingMembers := members leading (by simp)
      constructor
      · exact leadingMembers.first
      · intro step member
        rcases List.mem_append.mp member with inLeading | inOthers
        · exact leadingMembers.rest step inLeading
        · rcases List.mem_flatMap.mp inOthers with
            ⟨other, otherMember, stepMember⟩
          have otherMembers := members other (by simp [otherMember])
          exact
            otherMembers.behind joiningHolds carryKeeps step stepMember

/-- Chains can be joined if there are any. -/
theorem exists_join
    {chains : List Chain} (nonempty : chains ≠ []) :
    ∃ joined, Chain.join joining carry chains = some joined := by
  cases chains with
  | nil => exact (nonempty rfl).elim
  | cons leading others => exact ⟨_, rfl⟩

/-! ## Folding chains -/

section Folding

variable
    {β : Type u}
    (start : Expr → β)
    (step : β → String × Expr → β)

/-- A chain read from left to right. -/
def fold (chain : Chain) : β :=
  chain.rest.foldl step (start chain.first)

/-- Behind the leading chain, the joined chains continue the same fold. -/
theorem fold_join (leading : Chain) (others : List Chain) :
    (Chain.join joining carry (leading :: others)).map (fold start step) =
      some
        (others.foldl
          (fun total chain => (chain.behind joining carry).foldl step total)
          (leading.fold start step)) := by
  simp only [Chain.join, Option.map_some, fold, List.foldl_append,
    List.foldl_flatMap]

/--
If the chain of each item, behind the joining operator, is combined as a whole
with what precedes it, then joining the chains combines the items.
-/
theorem fold_join_map
    {ι : Type v} {items : List ι}
    {chainOf : ι → Chain} {value : ι → β} {combine : β → β → β}
    (whole : ∀ item ∈ items,
      (chainOf item).fold start step = value item)
    (behind : ∀ item ∈ items, ∀ total,
      ((chainOf item).behind joining carry).foldl step total =
        combine total (value item)) :
    (Chain.join joining carry (items.map chainOf)).map (fold start step) =
      accumulate combine (items.map value) := by
  cases items with
  | nil => rfl
  | cons leading others =>
      rw [List.map_cons, fold_join, whole leading (by simp)]
      simp only [List.map_cons, accumulate, Option.some.injEq,
        List.foldl_map]
      apply List.foldl_ext
      intro total item member
      exact behind item (by simp [member]) total

end Folding

end Chain

end CssMath
