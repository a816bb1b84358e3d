import CssMath.Proofs.Decimal.Rank
import Mathlib.Order.Interval.Set.OrdConnected
import Mathlib.Tactic.Linarith

/-!
# Rounding to the nearest value

`Double.IsNearest` says which finite value a rational number is rounded to, if
ties go to the value with the even significand.  There is at most one such
value (`IsNearest.toRat_eq`): two values that are equally near and even have a
third one between them.

The numbers that are rounded to the value of a rank form its cell, which
reaches half of the way to either neighbour.  Its ends belong to it exactly if
the rank is even (`isNearest_iff_mem_cell`).
-/

namespace CssMath

namespace Double

/--
A finite value to which a number is rounded: no other finite value is nearer,
and if another one is equally near, then this one has an even significand.
-/
structure IsNearest (target : ℚ) (value : Double) : Prop where
  isFinite : value.isFinite = true
  nearest (other : Double) :
    other.isFinite = true →
      |target - value.toRat| ≤ |target - other.toRat|
  even (other : Double) :
    other.isFinite = true →
      other.toRat ≠ value.toRat →
        |target - other.toRat| = |target - value.toRat| →
          value.significand % 2 = 0

/-! ## The nearer of two numbers -/

theorem sq_sub_sq_sub_eq (lower upper target : ℚ) :
    (target - upper) ^ 2 - (target - lower) ^ 2 =
      2 * (upper - lower) * ((lower + upper) / 2 - target) := by
  ring

theorem abs_sub_le_abs_sub_iff
    {lower upper target : ℚ} (less : lower < upper) :
    |target - lower| ≤ |target - upper| ↔ target ≤ (lower + upper) / 2 := by
  rw [← sq_le_sq, ← sub_nonneg, sq_sub_sq_sub_eq,
    mul_nonneg_iff_of_pos_left (by linarith), sub_nonneg]

theorem abs_sub_lt_abs_sub_iff
    {lower upper target : ℚ} (less : lower < upper) :
    |target - lower| < |target - upper| ↔ target < (lower + upper) / 2 := by
  rw [← sq_lt_sq, ← sub_pos, sq_sub_sq_sub_eq,
    mul_pos_iff_of_pos_left (by linarith), sub_pos]

/-- A number is rounded to one value at most. -/
theorem IsNearest.toRat_eq
    {target : ℚ} {left right : Double}
    (toLeft : IsNearest target left)
    (toRight : IsNearest target right) :
    left.toRat = right.toRat := by
  by_contra different
  wlog ordered : left.rank < right.rank generalizing left right
  · rcases lt_or_eq_of_le (not_lt.mp ordered) with less | equal
    · exact this toRight toLeft (Ne.symm different) less
    · rw [toRat_eq_valueAt, toRat_eq_valueAt, equal] at different
      exact different rfl
  have tie : |target - left.toRat| = |target - right.toRat| :=
    le_antisymm (toLeft.nearest right toRight.isFinite)
      (toRight.nearest left toLeft.isFinite)
  have leftEven : Even left.rank :=
    left.even_rank_iff.mpr
      (toLeft.even right toRight.isFinite (Ne.symm different) tie.symm)
  have rightEven : Even right.rank :=
    right.even_rank_iff.mpr
      (toRight.even left toLeft.isFinite different tie)
  -- Two even ranks are not neighbours, and what is between them is nearer.
  have gap : left.rank + 1 < right.rank := by
    rcases leftEven with ⟨left, equal⟩
    rcases rightEven with ⟨right, equal'⟩
    omega
  have bound : (left.rank + 1).natAbs < finiteWords := by
    have leftBound := left.isFinite_iff.mp toLeft.isFinite
    have rightBound := right.isFinite_iff.mp toRight.isFinite
    rw [← natAbs_rank] at leftBound rightBound
    omega
  rcases exists_rank bound with ⟨between, isFinite, rank⟩
  have notNearer := toLeft.nearest between isFinite
  have first := valueAt_strictMono (lt_add_one left.rank)
  have second := valueAt_strictMono gap
  rw [toRat_eq_valueAt, toRat_eq_valueAt] at tie
  rw [toRat_eq_valueAt, toRat_eq_valueAt, rank,
    abs_sub_le_abs_sub_iff first] at notNearer
  have above : ¬ target < (valueAt left.rank + valueAt right.rank) / 2 :=
    (abs_sub_lt_abs_sub_iff (first.trans second)).not.mp tie.not_lt
  linarith

/-! ## Cells -/

/-- The number in the middle between the values of a rank and of the next one. -/
def boundary (rank : ℤ) : ℚ :=
  (valueAt rank + valueAt (rank + 1)) / 2

/-- The numbers that are rounded to the value of a rank. -/
def cell (rank : ℤ) : Set ℚ :=
  if Even rank then
    Set.Icc (boundary (rank - 1)) (boundary rank)
  else
    Set.Ioo (boundary (rank - 1)) (boundary rank)

theorem cell_subset_Icc (rank : ℤ) :
    cell rank ⊆ Set.Icc (boundary (rank - 1)) (boundary rank) := by
  rw [cell]
  split
  · exact subset_rfl
  · exact Set.Ioo_subset_Icc_self

instance (rank : ℤ) : (cell rank).OrdConnected := by
  rw [cell]
  split
  · exact Set.ordConnected_Icc
  · exact Set.ordConnected_Ioo

theorem boundary_lt_valueAt (rank : ℤ) :
    boundary (rank - 1) < valueAt rank := by
  have less := valueAt_strictMono (sub_one_lt rank)
  rw [boundary, sub_add_cancel]
  linarith

theorem valueAt_lt_boundary (rank : ℤ) :
    valueAt rank < boundary rank := by
  have less := valueAt_strictMono (lt_add_one rank)
  rw [boundary]
  linarith

theorem valueAt_mem_cell (rank : ℤ) :
    valueAt rank ∈ cell rank := by
  have below := boundary_lt_valueAt rank
  have above := valueAt_lt_boundary rank
  rw [cell]
  split
  · exact ⟨below.le, above.le⟩
  · exact ⟨below, above⟩

theorem boundary_neg (rank : ℤ) :
    boundary (-rank) = -boundary (rank - 1) := by
  have next : -rank + 1 = -(rank - 1) := by ring
  rw [boundary, boundary, next, valueAt_neg, valueAt_neg, sub_add_cancel]
  ring

/-- The cells of opposite ranks are opposite. -/
theorem neg_mem_cell_neg {target : ℚ} {rank : ℤ} :
    -target ∈ cell (-rank) ↔ target ∈ cell rank := by
  have lower : boundary (-rank - 1) = -boundary rank := by
    have previous : -rank - 1 = -(rank + 1) := by ring
    rw [previous, boundary_neg, add_sub_cancel_right]
  simp only [cell, lower, boundary_neg, even_neg]
  split
  · rw [Set.mem_Icc, Set.mem_Icc, neg_le_neg_iff, neg_le_neg_iff, and_comm]
  · rw [Set.mem_Ioo, Set.mem_Ioo, neg_lt_neg_iff, neg_lt_neg_iff, and_comm]

theorem midpoint_le_boundary {lower rank : ℤ} (less : lower < rank) :
    (valueAt lower + valueAt rank) / 2 ≤ boundary (rank - 1) := by
  have atMost :=
    valueAt_strictMono.monotone (Int.le_sub_one_of_lt less)
  rw [boundary, sub_add_cancel]
  linarith

theorem boundary_le_midpoint {rank upper : ℤ} (less : rank < upper) :
    boundary rank ≤ (valueAt rank + valueAt upper) / 2 := by
  have atLeast := valueAt_strictMono.monotone (Int.add_one_le_of_lt less)
  rw [boundary]
  linarith

/-- The value of a rank is nearest to the numbers in its cell. -/
theorem abs_sub_le_of_mem_cell
    {target : ℚ} {rank : ℤ} (member : target ∈ cell rank) (other : ℤ) :
    |target - valueAt rank| ≤ |target - valueAt other| := by
  rcases cell_subset_Icc rank member with ⟨lower, upper⟩
  rcases lt_trichotomy other rank with less | rfl | greater
  · rw [← not_lt, abs_sub_lt_abs_sub_iff (valueAt_strictMono less), not_lt]
    exact (midpoint_le_boundary less).trans lower
  · exact le_rfl
  · rw [abs_sub_le_abs_sub_iff (valueAt_strictMono greater)]
    exact upper.trans (boundary_le_midpoint greater)

/-- Only in the cell of an even rank there are ties. -/
theorem abs_sub_lt_of_mem_cell
    {target : ℚ} {rank other : ℤ}
    (member : target ∈ cell rank)
    (odd : ¬ Even rank)
    (different : other ≠ rank) :
    |target - valueAt rank| < |target - valueAt other| := by
  rw [cell, if_neg odd] at member
  rcases member with ⟨lower, upper⟩
  rcases lt_or_gt_of_ne different with less | greater
  · rw [← not_le, abs_sub_le_abs_sub_iff (valueAt_strictMono less), not_le]
    exact (midpoint_le_boundary less).trans_lt lower
  · rw [abs_sub_lt_abs_sub_iff (valueAt_strictMono greater)]
    exact upper.trans_le (boundary_le_midpoint greater)

theorem isNearest_of_mem_cell
    {target : ℚ} {value : Double}
    (isFinite : value.isFinite = true)
    (member : target ∈ cell value.rank) :
    IsNearest target value where
  isFinite := isFinite
  nearest other _ := by
    rw [toRat_eq_valueAt, toRat_eq_valueAt]
    exact abs_sub_le_of_mem_cell member other.rank
  even other _ different tie := by
    rw [toRat_eq_valueAt, toRat_eq_valueAt] at different tie
    rw [← even_rank_iff]
    by_contra odd
    have sameRank : other.rank ≠ value.rank := fun equal =>
      different (congrArg valueAt equal)
    exact (abs_sub_lt_of_mem_cell member odd sameRank).ne tie.symm

theorem IsNearest.abs_sub_le
    {target : ℚ} {value : Double} {other : ℤ}
    (nearest : IsNearest target value)
    (bound : other.natAbs < finiteWords) :
    |target - valueAt value.rank| ≤ |target - valueAt other| := by
  rcases exists_rank bound with ⟨neighbour, isFinite, rfl⟩
  rw [← toRat_eq_valueAt, ← toRat_eq_valueAt]
  exact nearest.nearest neighbour isFinite

theorem IsNearest.abs_sub_lt
    {target : ℚ} {value : Double} {other : ℤ}
    (nearest : IsNearest target value)
    (odd : ¬ Even value.rank)
    (bound : other.natAbs < finiteWords)
    (different : other ≠ value.rank) :
    |target - valueAt value.rank| < |target - valueAt other| := by
  refine lt_of_le_of_ne (nearest.abs_sub_le bound) fun tie => odd ?_
  rcases exists_rank bound with ⟨neighbour, isFinite, rfl⟩
  have otherValue : neighbour.toRat ≠ value.toRat := by
    rw [toRat_eq_valueAt, toRat_eq_valueAt]
    exact valueAt_strictMono.injective.ne different
  rw [← toRat_eq_valueAt, ← toRat_eq_valueAt] at tie
  exact value.even_rank_iff.mpr
    (nearest.even neighbour isFinite otherValue tie.symm)

/-- With a finite neighbour on each side, a value is nearest to its cell only. -/
theorem isNearest_iff_mem_cell
    {target : ℚ} {value : Double}
    (inner : value.rank.natAbs + 1 < finiteWords) :
    IsNearest target value ↔ target ∈ cell value.rank := by
  have isFinite : value.isFinite = true := by
    rw [isFinite_iff, ← natAbs_rank]
    omega
  refine ⟨fun nearest => ?_, isNearest_of_mem_cell isFinite⟩
  have belowBound : (value.rank - 1).natAbs < finiteWords := by omega
  have aboveBound : (value.rank + 1).natAbs < finiteWords := by omega
  have less := valueAt_strictMono (sub_one_lt value.rank)
  have greater := valueAt_strictMono (lt_add_one value.rank)
  rw [cell, boundary, boundary, sub_add_cancel]
  split
  case isTrue even =>
    constructor
    · rw [← not_lt, ← abs_sub_lt_abs_sub_iff less, not_lt]
      exact nearest.abs_sub_le belowBound
    · rw [← abs_sub_le_abs_sub_iff greater]
      exact nearest.abs_sub_le aboveBound
  case isFalse odd =>
    constructor
    · rw [← not_le, ← abs_sub_le_abs_sub_iff less, not_le]
      exact nearest.abs_sub_lt odd belowBound (sub_one_lt _).ne
    · rw [← abs_sub_lt_abs_sub_iff greater]
      exact nearest.abs_sub_lt odd aboveBound (lt_add_one _).ne'

end Double

end CssMath
