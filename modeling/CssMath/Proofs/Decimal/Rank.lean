import CssMath.Decimal.Double
import Mathlib.Algebra.Order.Field.Basic
import Mathlib.Algebra.Order.Ring.Rat
import Mathlib.Algebra.Ring.Int.Parity
import Mathlib.Data.Int.ConditionallyCompleteOrder
import Mathlib.Order.ConditionallyCompleteLattice.Basic
import Mathlib.Tactic.Ring

/-!
# The order of binary64 values

Without its sign bit the word of a finite value counts the magnitudes below
it.  With the sign put back this gives each finite value a rank, an integer,
and the two zeros have the same one.  All integers below `finiteWords` in
magnitude are ranks of finite values, and the value grows with the rank:
`valueAt` is strictly monotone.

So the neighbours of a value are the values of the next ranks, and a value is
even, in the sense of rounding ties, if its rank is.
-/

namespace CssMath

namespace Double

/-- The exact rational value that a finite word stands for. -/
def toRat (value : Double) : ℚ :=
  (if value.isNegative then -1 else 1) * value.significand *
    2 ^ ((max value.exponentField 1 : ℤ) - 1075)

/-! ## Words and magnitudes -/

/-- The interchange word without its sign bit. -/
def word (value : Double) : ℕ :=
  value.bits.toNat % 2 ^ 63

/-- The units in the magnitude of a word without sign bit. -/
def unitsAt (word : ℕ) : ℕ :=
  (if word / 2 ^ 52 = 0 then word % 2 ^ 52 else 2 ^ 52 + word % 2 ^ 52) *
    2 ^ (word / 2 ^ 52 - 1)

/-- The number of words without sign bit that are words of finite values. -/
def finiteWords : ℕ :=
  2047 * 2 ^ 52

theorem exponentField_eq (value : Double) :
    value.exponentField = value.word / 2 ^ 52 := by
  simp only [exponentField, word, Nat.pow_eq]
  omega

theorem fractionField_eq (value : Double) :
    value.fractionField = value.word % 2 ^ 52 := by
  simp only [fractionField, word, Nat.pow_eq]
  omega

theorem spacing_eq (value : Double) :
    value.spacing = 2 ^ (value.word / 2 ^ 52 - 1) := by
  rw [spacing, exponentField_eq, Nat.pow_eq]

theorem units_eq (value : Double) :
    value.units = unitsAt value.word := by
  rw [units, spacing_eq, significand, exponentField_eq, fractionField_eq,
    unitsAt, Nat.pow_eq]

theorem isFinite_iff (value : Double) :
    value.isFinite = true ↔ value.word < finiteWords := by
  rw [isFinite, bne_iff_ne, exponentField_eq, word, finiteWords]
  omega

/-- A significand and the word that it is from are even alike. -/
theorem significand_mod_two (value : Double) :
    value.significand % 2 = value.word % 2 := by
  rw [significand, exponentField_eq, fractionField_eq, Nat.pow_eq]
  split <;> omega

/-- The next word has the next magnitude. -/
theorem unitsAt_succ (word : ℕ) :
    unitsAt (word + 1) = unitsAt word + 2 ^ (word / 2 ^ 52 - 1) := by
  by_cases sameExponent : word % 2 ^ 52 + 1 < 2 ^ 52
  · have exponent : (word + 1) / 2 ^ 52 = word / 2 ^ 52 := by omega
    have fraction : (word + 1) % 2 ^ 52 = word % 2 ^ 52 + 1 := by omega
    rw [unitsAt, unitsAt, exponent, fraction]
    split <;> ring
  -- The fraction is all ones, and the significand doubles with the exponent.
  · have exponent : (word + 1) / 2 ^ 52 = word / 2 ^ 52 + 1 := by omega
    have fraction : (word + 1) % 2 ^ 52 = 0 := by omega
    have allOnes : word % 2 ^ 52 = 2 ^ 52 - 1 := by omega
    rw [unitsAt, unitsAt, exponent, fraction, allOnes]
    generalize word / 2 ^ 52 = exponent
    cases exponent with
    | zero => rfl
    | succ exponent =>
        simp only [Nat.add_eq_zero_iff, one_ne_zero, and_false, if_false,
          Nat.add_sub_cancel, pow_succ]
        ring

@[simp]
theorem unitsAt_zero : unitsAt 0 = 0 := by
  simp [unitsAt]

theorem unitsAt_strictMono : StrictMono unitsAt :=
  strictMono_nat_of_lt_succ fun word => by
    rw [unitsAt_succ]
    exact Nat.lt_add_of_pos_right (Nat.two_pow_pos _)

/-! ## Ranks -/

/-- The signed place of a finite value in the order of all of them. -/
def rank (value : Double) : ℤ :=
  if value.isNegative then -value.word else value.word

@[simp]
theorem natAbs_rank (value : Double) :
    value.rank.natAbs = value.word := by
  rw [rank]
  split <;> simp

/-- A finite value has an even significand exactly if its rank is even. -/
theorem even_rank_iff (value : Double) :
    Even value.rank ↔ value.significand % 2 = 0 := by
  rw [significand_mod_two, ← natAbs_rank, ← Nat.even_iff, Int.natAbs_even]

/-- The magnitude at a rank in units, with the sign of the rank. -/
def signedUnits (rank : ℤ) : ℤ :=
  rank.sign * unitsAt rank.natAbs

@[simp]
theorem signedUnits_natCast (word : ℕ) :
    signedUnits word = unitsAt word := by
  rcases Nat.eq_zero_or_pos word with rfl | positive
  · simp [signedUnits]
  · simp [signedUnits, Int.sign_eq_one_of_pos (Int.natCast_pos.mpr positive)]

@[simp]
theorem signedUnits_neg (rank : ℤ) :
    signedUnits (-rank) = -signedUnits rank := by
  simp [signedUnits]

theorem signedUnits_strictMono : StrictMono signedUnits := by
  apply strictMono_int_of_lt_succ
  intro rank
  rcases Int.eq_nat_or_neg rank with ⟨word, rfl | rfl⟩
  · have grows := unitsAt_strictMono (Nat.lt_succ_self word)
    rw [← Nat.cast_succ, signedUnits_natCast, signedUnits_natCast]
    exact_mod_cast grows
  · cases word with
    | zero =>
        have positive := unitsAt_strictMono Nat.zero_lt_one
        rw [unitsAt_zero] at positive
        simpa [signedUnits] using positive
    | succ word =>
        have grows := unitsAt_strictMono (Nat.lt_succ_self word)
        have successor : -((word + 1 : ℕ) : ℤ) + 1 = -(word : ℤ) := by
          push_cast
          ring
        rw [successor, signedUnits_neg, signedUnits_neg, signedUnits_natCast,
          signedUnits_natCast]
        exact neg_lt_neg (by exact_mod_cast grows)

/-- The binary places of the unit. -/
def unitPlaces : ℕ :=
  1074

theorem unitsPerOne_eq : unitsPerOne = 2 ^ unitPlaces :=
  rfl

theorem unitsPerOne_pos : 0 < unitsPerOne := by
  rw [unitsPerOne_eq]
  exact Nat.two_pow_pos _

theorem cast_unitsPerOne_pos : (0 : ℚ) < unitsPerOne :=
  Nat.cast_pos.mpr unitsPerOne_pos

/-- The value at a rank. -/
def valueAt (rank : ℤ) : ℚ :=
  signedUnits rank / unitsPerOne

theorem valueAt_strictMono : StrictMono valueAt := by
  intro lower upper less
  exact div_lt_div_of_pos_right
    (by exact_mod_cast signedUnits_strictMono less) cast_unitsPerOne_pos

@[simp]
theorem valueAt_neg (rank : ℤ) :
    valueAt (-rank) = -valueAt rank := by
  rw [valueAt, valueAt, signedUnits_neg, Int.cast_neg, neg_div]

theorem toRat_eq_valueAt (value : Double) :
    value.toRat = valueAt value.rank := by
  have scale :
      (2 : ℚ) ^ ((max value.exponentField 1 : ℤ) - 1075) =
        value.spacing / unitsPerOne := by
    have exponent :
        (max value.exponentField 1 : ℤ) - 1075 =
          (value.exponentField - 1 : ℕ) - (unitPlaces : ℤ) := by
      rw [unitPlaces]
      omega
    rw [exponent, zpow_sub₀ two_ne_zero, zpow_natCast, zpow_natCast, spacing,
      unitsPerOne_eq, Nat.pow_eq, Nat.cast_pow, Nat.cast_pow, Nat.cast_ofNat]
  have magnitude :
      (value.significand : ℚ) * value.spacing = unitsAt value.word := by
    rw [← units_eq, units, Nat.cast_mul]
  rw [toRat, scale, mul_assoc, ← mul_div_assoc, magnitude, valueAt, rank]
  split
  · rw [signedUnits_neg, signedUnits_natCast, Int.cast_neg, Int.cast_natCast,
      neg_div, neg_mul, one_mul]
  · rw [signedUnits_natCast, Int.cast_natCast, one_mul]

/-- Each integer below the bound is the rank of a finite value. -/
theorem exists_rank {rank : ℤ} (bound : rank.natAbs < finiteWords) :
    ∃ value : Double, value.isFinite = true ∧ value.rank = rank := by
  let bits := (if rank < 0 then 2 ^ 63 else 0) + rank.natAbs
  have size : bits < 2 ^ 64 := by
    simp only [bits, finiteWords] at bound ⊢
    split <;> omega
  have toNat : (UInt64.ofNat bits).toNat = bits :=
    UInt64.toNat_ofNat_of_lt' size
  have sameWord : (Double.mk (.ofNat bits)).word = rank.natAbs := by
    rw [word, toNat]
    simp only [bits, finiteWords] at bound ⊢
    split <;> omega
  refine ⟨⟨.ofNat bits⟩, ?_, ?_⟩
  · rwa [isFinite_iff, sameWord]
  · rw [Double.rank, sameWord, isNegative, toNat, Nat.pow_eq]
    simp only [bits, finiteWords, decide_eq_true_eq] at bound ⊢
    split <;> split at * <;> omega

end Double

end CssMath
