import CssMath.Proofs.Meaning.Preservation
import Mathlib.Tactic.FieldSimp
import Mathlib.Tactic.Ring

/-!
# The meaning of divisions

A division keeps the operators of the products among its operands.  Behind the
division sign only the first factor of such a product divides, and the product
then multiplies and divides on.  What a division means is therefore not the
quotient of its operands, but `Interpretation.divideBy` applied to one operand
after the other.

The two differ by the tails of the divisors, where the tail of an operand is
what its factors behind the first amount to: each tail belongs to the divisor,
but appears in the dividend.  So they agree just if the tails of the divisors
have a product whose square is one.
-/

namespace CssMath

universe u

namespace Interpretation

variable
    {K : Type u}
    [Field K]
    (interpretation : Interpretation K)

/-- A total divided by an operand of a division. -/
def divideBy (total : K) (operand : Operand) : K :=
  match operand.asMember with
  | .product first operator second rest =>
      interpretation.factorsFrom (total / interpretation.value first)
        ((operator, second) :: rest)
  | member => total / interpretation.value member

/-- What the factors of an operand behind the first amount to. -/
def tail (operand : Operand) : K :=
  interpretation.factorsFrom 1 operand.asMember.factors.rest

/-- The quotient of operands of which each is taken as a whole. -/
def quotient (first : Operand) (others : List Operand) : K :=
  others.foldl (fun total operand => total / interpretation.operand operand)
    (interpretation.operand first)

/-! ## Single divisors -/

theorem divideBy_eq_factorsFrom (total : K) (operand : Operand) :
    interpretation.divideBy total operand =
      interpretation.factorsFrom total
        (operand.asMember.factors.behind "/" id) := by
  unfold divideBy
  cases operand.asMember <;>
    simp [Expr.factors, Chain.behind, factorsFrom, value]

theorem tail_of_kind_ne
    {operand : Operand}
    (noProduct : operand.asMember.kind ≠ .product) :
    interpretation.tail operand = 1 := by
  unfold tail
  cases member : operand.asMember with
  | product first operator second rest =>
      rw [member] at noProduct
      exact (noProduct rfl).elim
  | _ => rfl

/-- A chain of factors is its first factor multiplied by its tail. -/
theorem factorsFrom_eq_mul
    {rest : List (String × Expr)}
    (scalings : ∀ step ∈ rest, IsScaling step.1)
    (total : K) :
    interpretation.factorsFrom total rest =
      total * interpretation.factorsFrom 1 rest := by
  have multiplied := interpretation.factorsFrom_mul scalings total 1
  rwa [mul_one] at multiplied

theorem operand_eq_mul_tail
    {operand : Operand} (plain : operand.Plain) :
    interpretation.operand operand =
      interpretation.value operand.asMember.factors.first *
        interpretation.tail operand := by
  rw [← value_asMember, ← chainValue_factors, chainValue_product]
  exact interpretation.factorsFrom_eq_mul
    plain.asMember.factors.operators _

theorem divideBy_eq_mul_tail
    {operand : Operand} (plain : operand.Plain) (total : K) :
    interpretation.divideBy total operand =
      total / interpretation.value operand.asMember.factors.first *
        interpretation.tail operand := by
  rw [divideBy_eq_factorsFrom]
  simp only [Chain.behind, id_eq, List.map_id', factorsFrom, factor_over]
  exact interpretation.factorsFrom_eq_mul
    plain.asMember.factors.operators _

/-- The tail counts twice: once for not dividing and once for multiplying. -/
theorem divideBy_eq_div_mul_sq
    {operand : Operand} (plain : operand.Plain)
    (nonzero : interpretation.operand operand ≠ 0)
    (total : K) :
    interpretation.divideBy total operand =
      total / interpretation.operand operand *
        interpretation.tail operand ^ 2 := by
  rw [interpretation.operand_eq_mul_tail plain] at nonzero
  rcases mul_ne_zero_iff.mp nonzero with ⟨firstNonzero, tailNonzero⟩
  rw [interpretation.divideBy_eq_mul_tail plain,
    interpretation.operand_eq_mul_tail plain]
  field_simp

/-! ## Divisions -/

variable
    {operands : List (Option Operand)}
    {first : Operand}
    {others : List Operand}

/-- A division divides by its operands from left to right. -/
theorem value_divide_eq_foldl
    (there : Compose.present operands = first :: others) :
    ∃ expression,
      Compose.divide operands = .ok expression ∧
        interpretation.value expression =
          others.foldl interpretation.divideBy
            (interpretation.operand first) := by
  have folded :
      (Arithmetic.divide.chain? operands).map
          (interpretation.chainValue .product) =
        some
          (others.foldl interpretation.divideBy
            (interpretation.operand first)) := by
    have divides :
        interpretation.divideBy = fun total operand =>
          interpretation.factorsFrom total
            (operand.asMember.factors.behind "/" id) := by
      funext total operand
      exact interpretation.divideBy_eq_factorsFrom total operand
    rw [Arithmetic.chain?, there, List.map_cons, divides, ← value_asMember,
      ← chainValue_factors]
    refine (Chain.fold_join _ _ _ _).trans ?_
    simp only [List.foldl_map, ← factorsFrom_eq_foldl]
    rfl
  rcases Option.map_eq_some_iff.mp folded with ⟨chain, joins, meaning⟩
  refine
    ⟨.calc (.ofChain .product chain),
      Arithmetic.compose_eq_ok_iff.mpr ⟨chain, joins, rfl⟩, ?_⟩
  rw [value_calc, value_ofChain, meaning]

/-- A division by operands that are not zero has their tails for an excess. -/
theorem foldl_divideBy
    (plain : ∀ operand ∈ others, operand.Plain)
    (nonzero : ∀ operand ∈ others, interpretation.operand operand ≠ 0)
    (excess total : K) :
    others.foldl interpretation.divideBy (total * excess) =
      others.foldl
          (fun total operand => total / interpretation.operand operand)
          total *
        (excess * (others.map interpretation.tail).prod ^ 2) := by
  -- The excess of the divisors so far is kept apart from their quotient.
  induction others generalizing excess total with
  | nil => simp
  | cons operand others inductionHypothesis =>
      rw [List.forall_mem_cons] at plain nonzero
      have divided := interpretation.divideBy_eq_div_mul_sq
        plain.1 nonzero.1 (total * excess)
      have regrouped :
          interpretation.divideBy (total * excess) operand =
            total / interpretation.operand operand *
              (excess * interpretation.tail operand ^ 2) := by
        rw [divided]
        ring
      rw [List.foldl_cons, regrouped, inductionHypothesis plain.2 nonzero.2,
        List.foldl_cons, List.map_cons, List.prod_cons]
      ring

theorem quotient_ne_zero
    (firstNonzero : interpretation.operand first ≠ 0)
    (nonzero : ∀ operand ∈ others, interpretation.operand operand ≠ 0) :
    interpretation.quotient first others ≠ 0 := by
  unfold quotient
  generalize interpretation.operand first = total at firstNonzero
  induction others generalizing total with
  | nil => exact firstNonzero
  | cons operand others inductionHypothesis =>
      rw [List.forall_mem_cons] at nonzero
      exact inductionHypothesis nonzero.2 _
        (div_ne_zero firstNonzero nonzero.1)

/-- Operands that are not products divide as they stand. -/
theorem foldl_divideBy_of_kind_ne
    (plain : ∀ operand ∈ others, operand.Plain)
    (noProducts : ∀ operand ∈ others, operand.asMember.kind ≠ .product)
    (total : K) :
    others.foldl interpretation.divideBy total =
      others.foldl
        (fun total operand => total / interpretation.operand operand)
        total := by
  apply List.foldl_ext
  intro total operand member
  rw [interpretation.divideBy_eq_mul_tail (plain operand member),
    interpretation.operand_eq_mul_tail (plain operand member),
    interpretation.tail_of_kind_ne (noProducts operand member),
    mul_one, mul_one]

/--
A division of plain operands divides by each of them in its own way.  It means
their quotient if none of the divisors is a product, and if no operand is zero
then just if the tails of the divisors have a product whose square is one.
-/
theorem value_divide
    (there : Compose.present operands = first :: others)
    (plain : ∀ operand ∈ first :: others, operand.Plain) :
    ∃ expression,
      Compose.divide operands = .ok expression ∧
        interpretation.value expression =
          others.foldl interpretation.divideBy
            (interpretation.operand first) ∧
        ((∀ operand ∈ others, operand.asMember.kind ≠ .product) →
          interpretation.value expression =
            interpretation.quotient first others) ∧
        ((∀ operand ∈ first :: others,
            interpretation.operand operand ≠ 0) →
          (interpretation.value expression =
              interpretation.quotient first others ↔
            (others.map interpretation.tail).prod ^ 2 = 1)) := by
  rw [List.forall_mem_cons] at plain
  rcases interpretation.value_divide_eq_foldl there with
    ⟨expression, divided, meaning⟩
  refine ⟨expression, divided, meaning, ?_, ?_⟩
  · intro noProducts
    rw [meaning]
    exact interpretation.foldl_divideBy_of_kind_ne plain.2 noProducts _
  · intro nonzero
    rw [List.forall_mem_cons] at nonzero
    have excess := interpretation.foldl_divideBy plain.2 nonzero.2 1
      (interpretation.operand first)
    rw [mul_one, one_mul] at excess
    rw [meaning, excess]
    exact mul_eq_left₀
      (interpretation.quotient_ne_zero nonzero.1 nonzero.2)

/-- Whatever has no parts is two, and no function leaves the rationals. -/
def twos : Interpretation ℚ :=
  { rational with
    leaf := fun _ _ => 2
    dimension := fun _ _ => 2
    percentage := fun _ => 2
    var := fun _ _ => 2 }

/-- Four times two. -/
def smallProduct : Expr :=
  .product (.number "4") "*" (.number "2") []

/-- Eight by four times two, with the brackets gone. -/
def dividedByProduct : Expr :=
  .calc (.product (.number "8") "/" (.number "4") [("*", .number "2")])

theorem plain_smallProduct : smallProduct.Plain := by
  refine Expr.everywhere_product_iff.mpr ⟨?_, Expr.plain_leaf _ _, ?_⟩
  · intro step member
    rcases List.mem_singleton.mp member with rfl
    exact Or.inl rfl
  · intro step member
    rcases List.mem_singleton.mp member with rfl
    exact Expr.plain_leaf _ _

/-- Eight by four times two means four, although an operand is absent. -/
theorem value_divide_smallProduct :
    ∃ expression,
      Compose.divide
          [ some (.scalar (.integer 8)),
            none,
            some (.expr smallProduct)] = .ok expression ∧
        rational.value expression = 4 := by
  have there :
      Compose.present
          [ some (.scalar (.integer 8)),
            none,
            some (.expr smallProduct)] =
        .scalar (.integer 8) :: [.expr smallProduct] :=
    rfl
  have plain :
      ∀ operand ∈ Operand.scalar (.integer 8) :: [.expr smallProduct],
        operand.Plain := by
    rw [List.forall_mem_cons, List.forall_mem_singleton]
    exact ⟨trivial, plain_smallProduct⟩
  rcases rational.value_divide there plain with
    ⟨expression, divided, meaning, -, -⟩
  refine ⟨expression, divided, ?_⟩
  rw [meaning]
  decide +kernel

/--
No value here is zero and all chains are plain, but the division means two and
the quotient is a half.
-/
theorem divide_ne_quotient :
    (∀ kind text, twos.leaf kind text ≠ 0) ∧
      (∀ numeral unit, twos.dimension numeral unit ≠ 0) ∧
      (∀ numeral, twos.percentage numeral ≠ 0) ∧
      smallProduct.Plain ∧
      twos.operand (.scalar (.integer 8)) ≠ 0 ∧
      twos.operand (.expr smallProduct) ≠ 0 ∧
      Compose.divide
          [some (.scalar (.integer 8)), some (.expr smallProduct)] =
        .ok dividedByProduct ∧
      twos.value dividedByProduct ≠
        twos.quotient (.scalar (.integer 8)) [.expr smallProduct] := by
  have two_ne_zero : (2 : ℚ) ≠ 0 := by decide +kernel
  refine
    ⟨fun _ _ => two_ne_zero, fun _ _ => two_ne_zero, fun _ => two_ne_zero,
      plain_smallProduct, ?_, ?_, ?_, ?_⟩
  · decide +kernel
  · decide +kernel
  · rfl
  · decide +kernel

end Interpretation

end CssMath
