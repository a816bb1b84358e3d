import CssMath.Decimal.Shortest
import CssMath.Proofs.Decimal.Nearest
import Mathlib.Tactic.FieldSimp

/-!
# The shortest fraction in a cell

The test `Double.admits` in whole numbers asks whether a decimal fraction is in
the cell of a magnitude.  Because cells are convex, a grid of decimal fractions
with a point in the cell has one next to the magnitude, so the search finds a
fraction with the fewest places (`shortest_places_le`).

The cell of a value that is not an integer holds no integer.  That is why the
fewest places are also the fewest digits (`pow_le_of_admits`): between a
fraction and one on a finer grid with fewer digits there is a power of ten
that is already on a coarser grid.
-/

namespace CssMath

/-- The rational number that a decimal fraction is. -/
def Decimal.toRat (decimal : Decimal) : ℚ :=
  decimal.coefficient / 10 ^ decimal.places

namespace Double

/-! ## Cells in units -/

theorem valueAt_natCast (word : ℕ) :
    valueAt word = unitsAt word / unitsPerOne := by
  rw [valueAt, signedUnits_natCast, Int.cast_natCast]

theorem boundary_natCast (word : ℕ) :
    boundary word =
      (unitsAt word + unitsAt (word + 1) : ℕ) / (2 * unitsPerOne : ℕ) := by
  rw [boundary, ← Nat.cast_succ, valueAt_natCast, valueAt_natCast, ← add_div,
    div_div, Nat.cast_add, Nat.cast_mul, Nat.cast_ofNat, mul_comm]

theorem unitsAt_eq_add_reachBelow
    {value : Double} (positive : 0 < value.word) :
    2 * unitsAt value.word =
      2 * unitsAt (value.word - 1) + value.reachBelow := by
  obtain ⟨previous, equal⟩ : ∃ previous, value.word = previous + 1 :=
    ⟨value.word - 1, by omega⟩
  have reach :
      value.reachBelow = 2 * 2 ^ (previous / 2 ^ 52 - 1) := by
    rw [reachBelow, fractionField_eq, exponentField_eq, spacing_eq, equal]
    split
    -- Below a power of two the values are half as far apart.
    case isTrue atPower =>
      have exponent :
          (previous + 1) / 2 ^ 52 - 1 = previous / 2 ^ 52 - 1 + 1 := by
        omega
      rw [exponent, pow_succ']
    case isFalse =>
      have exponent :
          (previous + 1) / 2 ^ 52 - 1 = previous / 2 ^ 52 - 1 := by
        omega
      rw [exponent]
  rw [reach, equal, Nat.add_sub_cancel, unitsAt_succ]
  ring

theorem lower_end
    {value : Double} (positive : 0 < value.word) :
    4 * value.units - value.reachBelow =
      2 * (unitsAt (value.word - 1) + unitsAt value.word) := by
  have reach := unitsAt_eq_add_reachBelow positive
  rw [units_eq]
  omega

theorem upper_end (value : Double) :
    4 * value.units + value.reachAbove =
      2 * (unitsAt value.word + unitsAt (value.word + 1)) := by
  rw [units_eq, reachAbove, spacing_eq, unitsAt_succ]
  ring

/-- Fractions over twice the units are compared with decimals in whole numbers. -/
theorem le_toRat_iff
    {one : ℕ} (positive : 0 < one) (ends : ℕ) (decimal : Decimal) :
    2 * ends * 10 ^ decimal.places ≤ 4 * decimal.coefficient * one ↔
      (ends : ℚ) / (2 * one : ℕ) ≤ decimal.toRat := by
  rw [Decimal.toRat, div_le_div_iff₀ (by positivity) (by positivity)]
  norm_cast
  constructor <;> intro atMost <;> linarith

theorem toRat_le_iff
    {one : ℕ} (positive : 0 < one) (ends : ℕ) (decimal : Decimal) :
    4 * decimal.coefficient * one ≤ 2 * ends * 10 ^ decimal.places ↔
      decimal.toRat ≤ (ends : ℚ) / (2 * one : ℕ) := by
  rw [Decimal.toRat, div_le_div_iff₀ (by positivity) (by positivity)]
  norm_cast
  constructor <;> intro atMost <;> linarith

/-- The test in whole numbers is whether a fraction is in the cell. -/
theorem admits_iff
    {value : Double} (positive : 0 < value.word) (decimal : Decimal) :
    value.admits decimal = true ↔ decimal.toRat ∈ cell value.word := by
  have previous : (value.word : ℤ) - 1 = (value.word - 1 : ℕ) := by omega
  have successor : value.word - 1 + 1 = value.word := by omega
  have parity : Even (value.word : ℤ) ↔ value.significand % 2 = 0 := by
    rw [significand_mod_two, Int.even_coe_nat, Nat.even_iff]
  simp only [admits, lower_end positive, upper_end, Nat.pow_eq, cell, parity,
    previous, boundary_natCast, successor]
  split
  · rw [Bool.and_eq_true, decide_eq_true_eq, decide_eq_true_eq,
      le_toRat_iff unitsPerOne_pos, toRat_le_iff unitsPerOne_pos, Set.mem_Icc]
  · rw [Bool.and_eq_true, decide_eq_true_eq, decide_eq_true_eq, ← not_le,
      ← not_le, le_toRat_iff unitsPerOne_pos, toRat_le_iff unitsPerOne_pos,
      Set.mem_Ioo, not_le, not_le]

/-! ## The search -/

/-- The greatest fraction with some places that is not above the magnitude. -/
def gridBelow (value : Double) (places : ℕ) : Decimal :=
  ⟨value.units * 10 ^ places / unitsPerOne, places⟩

/-- The least fraction with some places that is above the magnitude. -/
def gridAbove (value : Double) (places : ℕ) : Decimal :=
  ⟨value.units * 10 ^ places / unitsPerOne + 1, places⟩

theorem toRat_le_valueAt_iff (value : Double) (decimal : Decimal) :
    decimal.toRat ≤ valueAt value.word ↔
      decimal.coefficient ≤ (value.gridBelow decimal.places).coefficient := by
  rw [valueAt_natCast, Decimal.toRat, gridBelow,
    div_le_div_iff₀ (by positivity) cast_unitsPerOne_pos,
    Nat.le_div_iff_mul_le unitsPerOne_pos, units_eq]
  norm_cast

theorem toRat_le_toRat
    {coefficient coefficient' places : ℕ}
    (atMost : coefficient ≤ coefficient') :
    (Decimal.mk coefficient places).toRat ≤
      (Decimal.mk coefficient' places).toRat :=
  div_le_div_of_nonneg_right (by exact_mod_cast atMost) (by positivity)

/-- If a cell has a point of some grid, it has one of the two next to its value. -/
theorem admits_grid_of_admits
    {value : Double} {decimal : Decimal}
    (positive : 0 < value.word)
    (admitted : value.admits decimal = true) :
    value.admits (value.gridBelow decimal.places) = true ∨
      value.admits (value.gridAbove decimal.places) = true := by
  have convex : (cell value.word).OrdConnected := inferInstance
  have center := valueAt_mem_cell value.word
  rw [admits_iff positive] at admitted
  rw [admits_iff positive, admits_iff positive]
  by_cases onLeft : decimal.toRat ≤ valueAt value.word
  · refine .inl (convex.out admitted center ⟨?_, ?_⟩)
    · exact toRat_le_toRat ((toRat_le_valueAt_iff value decimal).mp onLeft)
    · exact (toRat_le_valueAt_iff _ _).mpr le_rfl
  · refine .inr (convex.out center admitted ⟨?_, ?_⟩)
    · exact le_of_not_ge fun below =>
        absurd ((toRat_le_valueAt_iff _ _).mp below) (Nat.not_succ_le_self _)
    · rw [toRat_le_valueAt_iff, not_le] at onLeft
      exact toRat_le_toRat onLeft

/-- The search on one grid finds admitted fractions. -/
theorem admits_of_onGrid
    {value : Double} {places : ℕ} {found : Decimal}
    (onGrid : value.onGrid places = some found) :
    value.admits found = true ∧ found.places = places := by
  rw [Double.onGrid] at onGrid
  split at onGrid
  case h_1 below above =>
    -- The nearer one is taken, and the even one of two equally near ones.
    split_ifs at onGrid
    · cases onGrid
      exact ⟨below, rfl⟩
    · cases onGrid
      exact ⟨above, rfl⟩
    · cases onGrid
      exact ⟨below, rfl⟩
    · cases onGrid
      exact ⟨above, rfl⟩
  case h_2 below above =>
    cases onGrid
    exact ⟨below, rfl⟩
  case h_3 below above =>
    cases onGrid
    exact ⟨above, rfl⟩
  case h_4 below above =>
    cases onGrid

/-- The search on a grid fails only if both neighbours are refused. -/
theorem onGrid_eq_none_iff {value : Double} {places : ℕ} :
    value.onGrid places = none ↔
      value.admits (value.gridBelow places) = false ∧
        value.admits (value.gridAbove places) = false := by
  rw [Double.onGrid, gridBelow, gridAbove]
  simp only [Nat.pow_eq]
  split
  case h_1 below above => split_ifs <;> simp [below]
  case h_2 below above => simp [below]
  case h_3 below above => simp [above]
  case h_4 below above => simp [below, above]

/-- The search on a grid with a point in the cell finds one. -/
theorem onGrid_ne_none
    {value : Double} {decimal : Decimal}
    (positive : 0 < value.word)
    (admitted : value.admits decimal = true) :
    value.onGrid decimal.places ≠ none := by
  rw [ne_eq, onGrid_eq_none_iff]
  rintro ⟨below, above⟩
  have neighbour := admits_grid_of_admits positive admitted
  rw [below, above] at neighbour
  simp at neighbour

/-- The magnitude is a decimal fraction, since two divides ten. -/
theorem toRat_exactDecimal (value : Double) :
    value.exactDecimal.toRat = valueAt value.word := by
  have scaled (units places : ℕ) :
      ((units * Nat.pow 5 places : ℕ) : ℚ) / 10 ^ places = units / 2 ^ places := by
    have ten : (10 : ℚ) ^ places = 2 ^ places * 5 ^ places := by
      rw [← mul_pow]
      norm_num
    rw [ten, Nat.pow_eq]
    push_cast
    field_simp
  have one : (unitsPerOne : ℚ) = 2 ^ unitPlaces := by
    rw [unitsPerOne_eq, Nat.cast_pow, Nat.cast_ofNat]
  rw [valueAt_natCast, one, ← units_eq]
  exact scaled value.units unitPlaces

/-- A search through the natural numbers in order stops at the first hit. -/
theorem first_of_findSome?_range
    {α : Type*} {search : ℕ → Option α} {bound : ℕ} {found : α}
    (hit : (List.range bound).findSome? search = some found) :
    ∃ place, search place = some found ∧
      ∀ earlier < place, search earlier = none := by
  induction bound with
  | zero => cases hit
  | succ bound inductionHypothesis =>
      rw [List.range_succ, List.findSome?_append] at hit
      cases before : (List.range bound).findSome? search with
      | some other =>
          rw [before, Option.some_or] at hit
          exact inductionHypothesis (before.trans hit)
      | none =>
          rw [before, Option.none_or] at hit
          refine ⟨bound, by simpa using hit, fun earlier less => ?_⟩
          exact List.findSome?_eq_none_iff.mp before earlier
            (List.mem_range.mpr less)

/-- The fraction that the search ends with is from the first grid with a hit. -/
theorem exists_onGrid_shortest
    {value : Double} (positive : 0 < value.word) :
    ∃ places, value.onGrid places = some value.shortest ∧
      ∀ fewer < places, value.onGrid fewer = none := by
  cases search : (List.range 1075).findSome? value.onGrid with
  | some found =>
      rw [shortest, search, Option.getD_some]
      exact first_of_findSome?_range search
  | none =>
      have exact : value.admits value.exactDecimal = true := by
        rw [admits_iff positive, toRat_exactDecimal]
        exact valueAt_mem_cell value.word
      have missed : value.onGrid value.exactDecimal.places = none :=
        List.findSome?_eq_none_iff.mp search _
          (List.mem_range.mpr (Nat.lt_succ_self 1074))
      exact (onGrid_ne_none positive exact missed).elim

/-- The fraction that the search ends with is in the cell. -/
theorem admits_shortest {value : Double} (positive : 0 < value.word) :
    value.admits value.shortest = true := by
  rcases exists_onGrid_shortest positive with ⟨places, found, _⟩
  exact (admits_of_onGrid found).1

/-- No fraction in the cell has fewer places than the one that the search ends with. -/
theorem shortest_places_le
    {value : Double} {decimal : Decimal}
    (positive : 0 < value.word)
    (admitted : value.admits decimal = true) :
    value.shortest.places ≤ decimal.places := by
  rcases exists_onGrid_shortest positive with ⟨places, found, firstHit⟩
  rw [(admits_of_onGrid found).2]
  by_contra fewer
  exact onGrid_ne_none positive admitted
    (firstHit decimal.places (not_le.mp fewer))

/-! ## Values that are not integers -/

theorem isIntegral_iff (value : Double) :
    value.isIntegral = true ↔ unitsPerOne ∣ unitsAt value.word := by
  rw [isIntegral, beq_iff_eq, units_eq, Nat.dvd_iff_mod_eq_zero]

theorem not_dvd_of_fractional
    {value : Double} (fractional : value.isIntegral = false) :
    ¬ unitsPerOne ∣ unitsAt value.word := by
  rw [← isIntegral_iff, fractional]
  exact Bool.false_ne_true

/-- The spacing of a magnitude divides it. -/
theorem spacing_dvd_unitsAt (word : ℕ) :
    2 ^ (word / 2 ^ 52 - 1) ∣ unitsAt word :=
  Nat.dvd_mul_left _ _

/-- From `2 ^ 52` up all values are integers. -/
theorem exponent_le_of_fractional
    {value : Double} (fractional : value.isIntegral = false) :
    value.word / 2 ^ 52 ≤ unitPlaces := by
  by_contra large
  apply not_dvd_of_fractional fractional
  rw [unitsPerOne_eq]
  exact (pow_dvd_pow 2 (by omega)).trans (spacing_dvd_unitsAt value.word)

theorem word_pos_of_fractional
    {value : Double} (fractional : value.isIntegral = false) :
    0 < value.word := by
  by_contra zero
  apply not_dvd_of_fractional fractional
  rw [Nat.eq_zero_of_not_pos zero, unitsAt_zero]
  exact dvd_zero _

/-- A value that is not an integer has finite neighbours. -/
theorem inner_of_fractional
    {value : Double} (fractional : value.isIntegral = false) :
    value.rank.natAbs + 1 < finiteWords := by
  have exponent := exponent_le_of_fractional fractional
  rw [natAbs_rank, finiteWords]
  rw [unitPlaces] at exponent
  omega

theorem add_le_of_dvd_of_lt
    {step lower upper : ℕ}
    (lowerMultiple : step ∣ lower)
    (upperMultiple : step ∣ upper)
    (less : lower < upper) :
    lower + step ≤ upper := by
  have difference : step ≤ upper - lower :=
    Nat.le_of_dvd (Nat.sub_pos_of_lt less)
      (Nat.dvd_sub upperMultiple lowerMultiple)
  omega

/-- Of the multiples of a spacing only the magnitude is between its neighbours. -/
theorem eq_unitsAt_of_between
    {previous multiple : ℕ}
    (spaced : 2 ^ ((previous + 1) / 2 ^ 52 - 1) ∣ multiple)
    (above : unitsAt previous < multiple)
    (below : multiple < unitsAt (previous + 1 + 1)) :
    multiple = unitsAt (previous + 1) := by
  have magnitudeSpaced := spacing_dvd_unitsAt (previous + 1)
  rcases lt_trichotomy multiple (unitsAt (previous + 1)) with
    less | same | greater
  · have gap := add_le_of_dvd_of_lt spaced magnitudeSpaced less
    have narrower :
        2 ^ (previous / 2 ^ 52 - 1) ≤ 2 ^ ((previous + 1) / 2 ^ 52 - 1) :=
      Nat.pow_le_pow_right two_pos (by omega)
    rw [unitsAt_succ] at gap
    omega
  · exact same
  · have gap := add_le_of_dvd_of_lt magnitudeSpaced spaced greater
    rw [← unitsAt_succ] at gap
    omega

theorem valueAt_lt_natCast_iff (word number : ℕ) :
    valueAt word < number ↔ unitsAt word < number * unitsPerOne := by
  rw [valueAt_natCast, div_lt_iff₀ cast_unitsPerOne_pos]
  norm_cast

theorem natCast_lt_valueAt_iff (word number : ℕ) :
    number < valueAt word ↔ number * unitsPerOne < unitsAt word := by
  rw [valueAt_natCast, lt_div_iff₀ cast_unitsPerOne_pos]
  norm_cast

/-- No integer is in the cell of a magnitude that is not one. -/
theorem natCast_notMem_cell
    {value : Double} (fractional : value.isIntegral = false) (number : ℕ) :
    (number : ℚ) ∉ cell value.word := by
  intro member
  rcases cell_subset_Icc _ member with ⟨lower, upper⟩
  have exponent := exponent_le_of_fractional fractional
  obtain ⟨previous, equal⟩ : ∃ previous, value.word = previous + 1 :=
    Nat.exists_eq_succ_of_ne_zero (word_pos_of_fractional fractional).ne'
  have above : unitsAt previous < number * unitsPerOne := by
    have less := valueAt_lt_boundary previous
    rw [equal, Nat.cast_succ, add_sub_cancel_right] at lower
    exact (valueAt_lt_natCast_iff previous number).mp (less.trans_le lower)
  have below : number * unitsPerOne < unitsAt (previous + 1 + 1) := by
    have less := boundary_lt_valueAt (value.word + 1)
    rw [add_sub_cancel_right, ← Nat.cast_succ] at less
    rw [← equal]
    exact (natCast_lt_valueAt_iff _ number).mp (upper.trans_lt less)
  have spaced :
      2 ^ ((previous + 1) / 2 ^ 52 - 1) ∣ number * unitsPerOne := by
    rw [unitsPerOne_eq]
    exact (pow_dvd_pow 2 (by omega)).mul_left number
  apply not_dvd_of_fractional fractional
  rw [equal, ← eq_unitsAt_of_between spaced above below]
  exact Nat.dvd_mul_left _ _

/-- Each fraction in the cell needs a place. -/
theorem places_pos
    {value : Double} {decimal : Decimal}
    (fractional : value.isIntegral = false)
    (admitted : value.admits decimal = true) :
    0 < decimal.places := by
  by_contra none
  rw [admits_iff (word_pos_of_fractional fractional), Decimal.toRat,
    Nat.eq_zero_of_not_pos none, pow_zero, div_one] at admitted
  exact natCast_notMem_cell fractional decimal.coefficient admitted

theorem coefficient_pos
    {value : Double} {decimal : Decimal}
    (fractional : value.isIntegral = false)
    (admitted : value.admits decimal = true) :
    0 < decimal.coefficient := by
  by_contra none
  rw [admits_iff (word_pos_of_fractional fractional), Decimal.toRat,
    Nat.eq_zero_of_not_pos none, Nat.cast_zero, zero_div] at admitted
  exact natCast_notMem_cell fractional 0 (by simpa using admitted)

/--
Each fraction in the cell has at least as many digits as the one that the
search ends with.
-/
theorem pow_le_of_admits
    {value : Double} {decimal : Decimal} {digits : ℕ}
    (fractional : value.isIntegral = false)
    (admitted : value.admits decimal = true)
    (reached : 10 ^ digits ≤ value.shortest.coefficient) :
    10 ^ digits ≤ decimal.coefficient := by
  have positive := word_pos_of_fractional fractional
  have found := admits_shortest positive
  have nonzero := coefficient_pos fractional admitted
  have fewest := shortest_places_le positive admitted
  by_contra fewer
  rw [not_le] at fewer
  obtain ⟨others, rfl⟩ : ∃ others, digits = others + 1 :=
    ⟨digits - 1, by cases digits <;> omega⟩
  obtain ⟨places, equal⟩ : ∃ places, value.shortest.places = places + 1 :=
    Nat.exists_eq_succ_of_ne_zero (places_pos fractional found).ne'
  -- The power of ten between the two fractions is one of a coarser grid.
  have between : value.admits ⟨10 ^ others, places⟩ = true := by
    have convex : (cell value.word).OrdConnected := inferInstance
    have power :
        (Decimal.mk (10 ^ others) places).toRat =
          (10 ^ (others + 1) : ℕ) / 10 ^ value.shortest.places := by
      rw [Decimal.toRat, equal]
      push_cast
      field_simp
      ring
    rw [admits_iff positive] at admitted found ⊢
    rw [power]
    refine convex.out admitted found ⟨?_, ?_⟩
    · have finer : (10 : ℚ) ^ value.shortest.places ≤ 10 ^ decimal.places :=
        pow_le_pow_right₀ (by norm_num) fewest
      exact div_le_div₀ (by positivity) (by exact_mod_cast fewer.le)
        (by positivity) finer
    · exact div_le_div_of_nonneg_right (by exact_mod_cast reached)
        (by positivity)
  have coarser := shortest_places_le positive between
  rw [equal] at coarser
  exact absurd coarser (Nat.not_succ_le_self places)

end Double

end CssMath
