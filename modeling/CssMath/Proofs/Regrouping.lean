import CssMath.Proofs.Arithmetic
import CssMath.Proofs.Blank
import CssMath.Proofs.Chain
import CssMath.Proofs.Composition

/-!
# Regrouping sums

A group of terms can be put together before the whole sum is.  The expression
is the same as if all terms had been put together at once, whatever texts
stand for operators in the operands: in a sum, at the front of a difference
that begins with a difference, and behind the front of a difference if the
group is a sum.

The chain of a composed sum is the chain that was joined for it, because its
operators have lost their blanks by then and lose nothing when they are read
again (`Operand.terms_composed`).  What is left is a law of joining chains.  A
chain that was joined before stands behind an operator as the chains of which
it was joined do (`Chain.behind_join`).
-/

namespace CssMath

/-! ## Joining in two steps -/

namespace Chain

variable
    {operator innerOperator : String}
    {carry innerCarry : String → String}

/--
A joined chain behind an operator is the chains behind that operator, if what
is carried over does not depend on the joining.
-/
theorem behind_join
    {chains : List Chain} {joined : Chain}
    (turned : carry innerOperator = operator)
    (absorbed : ∀ sign, carry (innerCarry sign) = carry sign)
    (joins : Chain.join innerOperator innerCarry chains = some joined) :
    joined.behind operator carry =
      chains.flatMap (Chain.behind operator carry) := by
  cases chains with
  | nil => simp [Chain.join] at joins
  | cons leading others =>
      cases joins
      have each (chain : Chain) :
          ((chain.behind innerOperator innerCarry).map fun step =>
              (carry step.1, step.2)) =
            chain.behind operator carry := by
        simp [Chain.behind, turned, absorbed, Function.comp_def]
      rw [Chain.behind, List.map_append, List.map_flatMap]
      simp only [each]
      rfl

/-- A chain that leads the others may have been joined before. -/
theorem join_leading
    {chains others : List Chain} {joined : Chain}
    (joins : Chain.join operator carry chains = some joined) :
    Chain.join operator carry (joined :: others) =
      Chain.join operator carry (chains ++ others) := by
  cases chains with
  | nil => simp [Chain.join] at joins
  | cons leading rest =>
      cases joins
      simp [Chain.join, List.append_assoc]

/-- A chain behind others may be replaced by chains that stand there alike. -/
theorem join_later
    {before chains others : List Chain} {joined : Chain}
    (preceded : before ≠ [])
    (alike :
      joined.behind operator carry =
        chains.flatMap (Chain.behind operator carry)) :
    Chain.join operator carry (before ++ joined :: others) =
      Chain.join operator carry (before ++ chains ++ others) := by
  cases before with
  | nil => exact (preceded rfl).elim
  | cons leading rest =>
      simp [Chain.join, alike]

end Chain

/-! ## Reading a composed sum again -/

/-- Only what is not a sum is a single term. -/
theorem Expr.terms_of_rest_eq_nil
    {expression : Expr} (alone : expression.terms.rest = []) :
    expression.kind ≠ .sum ∧ expression.terms = ⟨expression, []⟩ := by
  have noSum : expression.kind ≠ .sum := by
    intro isSum
    rcases Expr.exists_of_kind_sum isSum with
      ⟨first, operator, second, rest, rfl⟩
    simp [Expr.terms, Expr.trimmedTerms] at alone
  exact ⟨noSum, Expr.terms_of_kind_ne noSum⟩

/-- The terms of any operand have operators without blanks around them. -/
theorem Expr.trimmed_terms (expression : Expr) :
    expression.terms.All (fun operator => trimBlanks operator = operator)
      fun _ => True := by
  refine ⟨trivial, ?_⟩
  intro step member
  refine ⟨?_, trivial⟩
  cases expression with
  | sum first operator second rest =>
      rcases List.mem_map.mp member with ⟨inner, _, rfl⟩
      exact trimBlanks_trimBlanks inner.1
  | _ => cases member

namespace Arithmetic

theorem trimBlanks_operator (operation : Arithmetic) :
    trimBlanks operation.operator = operation.operator := by
  cases operation <;> rfl

/-- Operators without blanks around them are carried over to such operators. -/
theorem trimBlanks_carry
    (operation : Arithmetic)
    (operator : String) (bare : trimBlanks operator = operator) :
    trimBlanks (operation.carry operator) = operation.carry operator := by
  cases operation with
  | subtract =>
      rw [carry, reverseSign]
      split <;> rfl
  | _ => exact bare

end Arithmetic

/-- A composed sum is read as the chain of which it was composed. -/
theorem Operand.terms_composed
    {operation : Arithmetic}
    {operands : List Operand} {joined : Chain}
    (joins :
      Chain.join operation.operator operation.carry
          (operands.map fun operand => operand.asMember.terms) =
        some joined) :
    (Operand.expr (.calc (.ofChain .sum joined))).asMember.terms =
      joined := by
  refine Expr.terms_withoutCalc_sumOf ?_ ?_
  · intro alone
    cases operands with
    | nil => simp [Chain.join] at joins
    | cons leading others =>
        cases joins
        rcases Expr.terms_of_rest_eq_nil (List.append_eq_nil_iff.mp alone).1
          with ⟨noSum, single⟩
        simp only [single]
        exact ⟨leading.kind_asMember_ne, noSum⟩
  · have members : joined.All (fun operator => trimBlanks operator = operator)
        fun _ => True := by
      refine Chain.All.join ?_ operation.trimBlanks_operator
        operation.trimBlanks_carry joins
      rw [List.forall_mem_map]
      intro operand _
      exact operand.asMember.trimmed_terms
    exact members.operators

namespace Compose

/-! ## Composing in two steps -/

/-- The chains of terms of the operands that are there. -/
def termChains (operands : List (Option Operand)) : List Chain :=
  (present operands).map fun operand => operand.asMember.terms

theorem termChains_append (left right : List (Option Operand)) :
    termChains (left ++ right) = termChains left ++ termChains right := by
  simp [termChains, present]

theorem termChains_cons_some
    (operand : Operand) (operands : List (Option Operand)) :
    termChains (some operand :: operands) =
      operand.asMember.terms :: termChains operands := rfl

/-- An operation that makes sums makes the sum of the joined terms. -/
theorem compose_of_join
    {operation : Arithmetic} (makesSum : operation.level = .sum)
    {operands : List (Option Operand)} {joined : Chain}
    (joins :
      Chain.join operation.operator operation.carry (termChains operands) =
        some joined) :
    operation.compose operands = .ok (.calc (.ofChain .sum joined)) := by
  have chain : operation.chain? operands = some joined := by
    rw [Arithmetic.chain?, makesSum]
    exact joins
  exact Arithmetic.compose_eq_ok_iff.mpr ⟨joined, chain, by rw [makesSum]⟩

/--
A group of operands can be composed before all are: the results are there, and
the expression is the same.
-/
def Regroups
    (outer inner : List (Option Operand) → Except Fault Expr)
    (before group behind : List (Option Operand)) : Prop :=
  ∃ part whole,
    inner group = .ok part ∧
      outer (before ++ some (.expr part) :: behind) = .ok whole ∧
      outer (before ++ group ++ behind) = .ok whole

variable {before group behind : List (Option Operand)}

/-- Sums can be regrouped if chains can be joined in two steps. -/
theorem regroups_of_join
    {outer inner : Arithmetic}
    (outerSum : outer.level = .sum)
    (innerSum : inner.level = .sum)
    (there : present group ≠ [])
    (twoSteps : ∀ joined,
      Chain.join inner.operator inner.carry (termChains group) =
          some joined →
        Chain.join outer.operator outer.carry
            (termChains before ++ joined :: termChains behind) =
          Chain.join outer.operator outer.carry
            (termChains before ++ termChains group ++ termChains behind)) :
    Regroups outer.compose inner.compose before group behind := by
  have nonempty : termChains group ≠ [] := mt List.map_eq_nil_iff.mp there
  rcases Chain.exists_join nonempty with ⟨joined, joins⟩
  have nonemptyAll :
      termChains before ++ termChains group ++ termChains behind ≠ [] := by
    simp [nonempty]
  rcases Chain.exists_join nonemptyAll with ⟨total, joinsAll⟩
  have composed : inner.compose group = .ok (.calc (.ofChain .sum joined)) :=
    compose_of_join innerSum joins
  have reread :
      (Operand.expr (.calc (.ofChain .sum joined))).asMember.terms = joined :=
    Operand.terms_composed joins
  refine ⟨.calc (.ofChain .sum joined), .calc (.ofChain .sum total), composed,
    compose_of_join outerSum ?_, compose_of_join outerSum ?_⟩
  · rw [termChains_append, termChains_cons_some, reread, twoSteps joined joins,
      joinsAll]
  · rw [termChains_append, termChains_append, joinsAll]

theorem regroups_add (there : present group ≠ []) :
    Regroups add add before group behind := by
  refine @regroups_of_join _ _ _ .add .add rfl rfl there ?_
  intro joined joins
  by_cases leads : termChains before = []
  · rw [leads]
    exact Chain.join_leading joins
  · exact Chain.join_later leads
      (Chain.behind_join rfl (fun _ => rfl) joins)

theorem regroups_subtract_leading (there : present group ≠ []) :
    Regroups subtract subtract [] group behind := by
  refine @regroups_of_join _ _ _ .subtract .subtract rfl rfl there ?_
  intro joined joins
  exact Chain.join_leading joins

theorem regroups_subtract_later
    (there : present group ≠ []) (preceded : present before ≠ []) :
    Regroups subtract add before group behind := by
  refine @regroups_of_join _ _ _ .subtract .add rfl rfl there ?_
  intro joined joins
  -- Behind a minus, the plus between the members of the group turns into one.
  exact Chain.join_later (mt List.map_eq_nil_iff.mp preceded)
    (Chain.behind_join rfl (fun _ => rfl) joins)

/--
A group of operands, of which one is there, can be composed before the others:
its sum within a sum or behind the front of a difference, and its difference
at the front of a difference.  In particular a sum that is composed once more
stays as it is.
-/
theorem regroup_sums (there : present group ≠ []) :
    Regroups add add before group behind ∧
      Regroups subtract subtract [] group behind ∧
      (present before ≠ [] → Regroups subtract add before group behind) ∧
      ∃ total,
        add group = .ok total ∧ add [some (.expr total)] = .ok total := by
  refine ⟨regroups_add there, regroups_subtract_leading there,
    regroups_subtract_later there, ?_⟩
  have alone : Regroups add add [] group [] := regroups_add there
  rcases alone with ⟨part, whole, composed, again, atOnce⟩
  rw [List.nil_append, List.append_nil, composed] at atOnce
  cases atOnce
  exact ⟨part, composed, again⟩

/-- A sum with a padded, an unknown and an empty operator, and a name. -/
def oddGroup : List (Option Operand) :=
  [ none,
    some (.expr (.calc (.sum (.number "1") "\u00a0+ " (.number "2")
      [ ("mod", .number "3"),
        ("", .number "4")]))),
    some (.scalar (.verbatim "x"))]

/-- Five less the sum and the name, and less six. -/
def oddDifference : Expr :=
  .calc (.sum (.number "5") "-" (.number "1")
    [ ("-", .number "2"),
      ("+", .number "3"),
      ("+", .number "4"),
      ("-", .raw "x"),
      ("-", .number "6")])

theorem regroup_sums_oddGroup :
    present oddGroup ≠ [] ∧
      present [some (.scalar (.integer 5))] ≠ [] ∧
      ∃ part,
        add oddGroup = .ok part ∧
          subtract
              [ some (.scalar (.integer 5)),
                some (.expr part),
                none,
                some (.scalar (.integer 6))] =
            .ok oddDifference := by
  have there : present oddGroup ≠ [] := by simp [oddGroup]
  have preceded : present [some (.scalar (.integer 5))] ≠ [] := by simp
  have regroups :
      Regroups subtract add
        [some (.scalar (.integer 5))] oddGroup
        [none, some (.scalar (.integer 6))] :=
    (regroup_sums there).2.2.1 preceded
  rcases regroups with ⟨part, whole, composed, later, atOnce⟩
  have evaluated :
      subtract
          ([some (.scalar (.integer 5))] ++ oddGroup ++
            [none, some (.scalar (.integer 6))]) =
        .ok oddDifference := by
    rfl
  rw [← evaluated, atOnce]
  exact ⟨there, preceded, part, composed, later⟩

end Compose

end CssMath
