import CssMath.Proofs.Decimal.Reading
import CssMath.Text.Scalar

/-!
# Texts of binary64 values

The text of a finite value loses nothing.  An integer is written as its
canonical numeral, whatever its size.  Any other value is written as a decimal
fraction that is rounded to just this value, and no number with fewer
significant digits is (`Double.hasLosslessText`).

In either case the text is a numeral that is rounded to the value
(`exists_read_text`).  A number is rounded to one value at most, so two finite
values with the same text are equal.
-/

namespace CssMath

/--
A text is the canonical numeral of an integer: its digits without leading
zeros, after a minus sign if the integer is negative.
-/
def IsCanonicalNumeral (number : ℤ) (text : String) : Prop :=
  ∃ digits : List Char,
    text.toList = (if number < 0 then ['-'] else []) ++ digits ∧
      digits ≠ [] ∧
      Numeral.AllDigits digits ∧
      (digits.head? = some '0' → digits = ['0']) ∧
      Nat.ofDigitChars 10 digits 0 = number.natAbs

/-- The digits of a number other than zero do not start with a zero. -/
theorem toDigits_eq_of_head_zero {number : ℕ}
    (leadingZero : (Nat.toDigits 10 number).head? = some '0') :
    Nat.toDigits 10 number = ['0'] := by
  induction number using Nat.strongRecOn with
  | ind number inductionHypothesis =>
      rw [Nat.toDigits_eq_if (by decide)] at leadingZero ⊢
      split at leadingZero
      case isTrue small =>
        rw [if_pos small]
        simpa using leadingZero
      case isFalse large =>
        rw [List.head?_append_of_ne_nil _ Nat.toDigits_ne_nil] at leadingZero
        have zero := inductionHypothesis (number / 10) (by omega) leadingZero
        have value : number / 10 = Nat.ofDigitChars 10 ['0'] 0 := by
          rw [← zero, Nat.ofDigitChars_ten_toDigits]
        change number / 10 = 0 at value
        omega

theorem toList_toString_int (number : ℤ) :
    (toString number).toList =
      (if number < 0 then ['-'] else []) ++
        Nat.toDigits 10 number.natAbs := by
  cases number with
  | ofNat number => exact Nat.toList_repr
  | negSucc number =>
      change ("-" ++ Nat.repr (number + 1)).toList = _
      rw [String.toList_append, Nat.toList_repr,
        if_pos (Int.negSucc_lt_zero number)]
      simp

theorem isCanonicalNumeral_toString (number : ℤ) :
    IsCanonicalNumeral number (toString number) :=
  ⟨Nat.toDigits 10 number.natAbs, toList_toString_int number,
    Nat.toDigits_ne_nil, allDigits_toDigits _, toDigits_eq_of_head_zero,
    Nat.ofDigitChars_ten_toDigits⟩

namespace Double

/-! ## Signs and magnitudes -/

theorem valueAt_natCast_nonneg (word : ℕ) :
    0 ≤ valueAt word := by
  rw [valueAt_natCast]
  exact div_nonneg (Nat.cast_nonneg _) (Nat.cast_nonneg _)

theorem abs_toRat (value : Double) :
    |value.toRat| = valueAt value.word := by
  rw [toRat_eq_valueAt, rank]
  split
  · rw [valueAt_neg, abs_neg, abs_of_nonneg (valueAt_natCast_nonneg _)]
  · exact abs_of_nonneg (valueAt_natCast_nonneg _)

/-- The cell of a value and that of its magnitude differ in sign only. -/
theorem mem_cell_rank_iff {value : Double} {target : ℚ} :
    target ∈ cell value.rank ↔
      (if value.isNegative then -target else target) ∈ cell value.word := by
  rw [rank]
  split
  · rw [← neg_mem_cell_neg, neg_neg]
  · rfl

/-- The cell of a magnitude other than zero has only positive numbers. -/
theorem pos_of_mem_cell
    {value : Double} {target : ℚ}
    (positive : 0 < value.word)
    (member : target ∈ cell value.word) :
    0 < target := by
  obtain ⟨previous, equal⟩ : ∃ previous, value.word = previous + 1 :=
    Nat.exists_eq_succ_of_ne_zero positive.ne'
  have lower := (cell_subset_Icc _ member).1
  rw [equal, Nat.cast_succ, add_sub_cancel_right] at lower
  calc
    0 ≤ valueAt previous := valueAt_natCast_nonneg previous
    _ < boundary previous := valueAt_lt_boundary previous
    _ ≤ target := lower

theorem abs_mem_cell
    {value : Double} {target : ℚ}
    (positive : 0 < value.word)
    (member : target ∈ cell value.rank) :
    |target| ∈ cell value.word := by
  rw [mem_cell_rank_iff] at member
  have magnitude := pos_of_mem_cell positive member
  split at member
  case isTrue isNegative =>
    rw [if_pos isNegative] at magnitude
    rwa [abs_of_neg (neg_pos.mp magnitude)]
  case isFalse notNegative =>
    rw [if_neg notNegative] at magnitude
    rwa [abs_of_pos magnitude]

theorem isNearest_toRat
    {value : Double} (isFinite : value.isFinite = true) :
    IsNearest value.toRat value := by
  apply isNearest_of_mem_cell isFinite
  rw [toRat_eq_valueAt]
  exact valueAt_mem_cell value.rank

/-! ## Integers -/

theorem isNaN_of_isFinite
    {value : Double} (isFinite : value.isFinite = true) :
    value.isNaN = false := by
  rw [Double.isFinite, bne_iff_ne] at isFinite
  simp [isNaN, isFinite]

theorem text_of_integral
    {value : Double}
    (isFinite : value.isFinite = true)
    (integral : value.isIntegral = true) :
    value.text = toString value.toInt := by
  simp [text, isNaN_of_isFinite isFinite, isFinite, integral]

theorem toRat_of_integral
    {value : Double} (integral : value.isIntegral = true) :
    value.toRat = value.toInt := by
  rcases (isIntegral_iff value).mp integral with ⟨number, multiple⟩
  have quotient : value.units / unitsPerOne = number := by
    rw [units_eq, multiple, Nat.mul_div_cancel_left _ unitsPerOne_pos]
  have magnitude : valueAt value.word = number := by
    rw [valueAt_natCast, multiple, Nat.cast_mul,
      mul_div_cancel_left₀ _ cast_unitsPerOne_pos.ne']
  rw [toRat_eq_valueAt, rank, toInt, quotient]
  split
  · rw [valueAt_neg, magnitude, Int.cast_neg, Int.cast_natCast]
  · rw [magnitude, Int.cast_natCast]

/-- A value that is equal to an integer is integral. -/
theorem isIntegral_of_toRat
    {value : Double} {number : ℤ} (equal : value.toRat = number) :
    value.isIntegral = true := by
  have magnitude : valueAt value.word = number.natAbs := by
    rw [← abs_toRat, equal, Nat.cast_natAbs, Int.cast_abs]
  have units : unitsAt value.word = number.natAbs * unitsPerOne := by
    apply le_antisymm
    · rw [← not_lt, ← natCast_lt_valueAt_iff, not_lt]
      exact magnitude.le
    · rw [← not_lt, ← valueAt_lt_natCast_iff, not_lt]
      exact magnitude.ge
  rw [isIntegral_iff, units]
  exact Nat.dvd_mul_left _ _

theorem read_text_of_integral
    {value : Double}
    (isFinite : value.isFinite = true)
    (integral : value.isIntegral = true) :
    ∃ reading, Numeral.read value.text.toList = some reading ∧
      reading.value = value.toRat := by
  rw [text_of_integral isFinite integral, toList_toString_int,
    toRat_of_integral integral]
  have unsigned :
      ∀ character ∈ (Nat.toDigits 10 value.toInt.natAbs).head?,
        character.isDigit = true := by
    rw [← List.append_nil (Nat.toDigits _ _)]
    exact head_append_of_allDigits Nat.toDigits_ne_nil (allDigits_toDigits _)
  refine ⟨_, Numeral.read_signed _ unsigned (read_toDigits _) rfl, ?_⟩
  have magnitude :
      Numeral.Reading.value
          ⟨false, Nat.toDigits 10 value.toInt.natAbs, [], 0⟩ =
        |(value.toInt : ℚ)| := by
    simp [Numeral.Reading.value, Numeral.Reading.digits]
  rw [Numeral.Reading.value_signed rfl, magnitude]
  split
  case isTrue negative =>
    rw [abs_of_neg (Int.cast_lt_zero.mpr negative), neg_neg]
  case isFalse nonnegative =>
    exact abs_of_nonneg (by exact_mod_cast not_lt.mp nonnegative)

/-! ## Fractions -/

theorem text_of_fractional
    {value : Double}
    (isFinite : value.isFinite = true)
    (fractional : value.isIntegral = false) :
    value.text.toList =
      (if value.isNegative then ['-'] else []) ++ value.shortest.digits := by
  simp only [text, isNaN_of_isFinite isFinite, isFinite, fractional]
  cases value.isNegative <;> simp

theorem read_text_of_fractional
    {value : Double}
    (isFinite : value.isFinite = true)
    (fractional : value.isIntegral = false) :
    ∃ reading, Numeral.read value.text.toList = some reading ∧
      IsNearest reading.value value ∧
      Nat.ofDigitChars 10 reading.digits 0 = value.shortest.coefficient ∧
      Numeral.AllDigits reading.digits := by
  have positive := word_pos_of_fractional fractional
  have admitted := admits_shortest positive
  rcases Decimal.read_digits (places_pos fractional admitted) with
    ⟨reading, isRead, isReadAs⟩
  have signed :=
    Numeral.read_signed value.isNegative value.shortest.digits_head isRead
      isReadAs.unsigned
  rw [← text_of_fractional isFinite fractional] at signed
  refine ⟨_, signed, ?_, isReadAs.coefficient, isReadAs.allDigits⟩
  apply isNearest_of_mem_cell isFinite
  rw [admits_iff positive, ← isReadAs.value_eq] at admitted
  rw [Numeral.Reading.value_signed isReadAs.unsigned, mem_cell_rank_iff]
  split
  · rwa [neg_neg]
  · exact admitted

/-- A number that is rounded to a fraction has as many digits as its text. -/
theorem pow_le_of_isNearest
    {value : Double} {coefficient power : ℤ} {digits : ℕ}
    (fractional : value.isIntegral = false)
    (nearest : IsNearest (coefficient * 10 ^ power) value)
    (reached : 10 ^ digits ≤ value.shortest.coefficient) :
    10 ^ digits ≤ coefficient.natAbs := by
  have positive := word_pos_of_fractional fractional
  rw [isNearest_iff_mem_cell (inner_of_fractional fractional)] at nearest
  have magnitude := abs_mem_cell positive nearest
  rw [abs_mul, ← Int.cast_abs, ← Nat.cast_natAbs,
    abs_of_pos (zpow_pos (by norm_num) power)] at magnitude
  rcases Int.eq_nat_or_neg power with ⟨places, rfl | rfl⟩
  -- Whole numbers are not rounded to a fraction.
  · rw [zpow_natCast] at magnitude
    exact (natCast_notMem_cell fractional (coefficient.natAbs * 10 ^ places)
      (by exact_mod_cast magnitude)).elim
  · rw [zpow_neg, zpow_natCast, ← div_eq_mul_inv] at magnitude
    have admitted : value.admits ⟨coefficient.natAbs, places⟩ = true :=
      (admits_iff positive _).mpr magnitude
    exact pow_le_of_admits fractional admitted reached

/-- A numeral that is rounded to a value, with the fewest digits that such a number has. -/
def IsShortestNumeral (value : Double) (text : String) : Prop :=
  ∃ reading, Numeral.read text.toList = some reading ∧
    IsNearest reading.value value ∧
    ∀ coefficient power : ℤ,
      IsNearest (coefficient * 10 ^ power) value →
        reading.significant.length ≤
          (Nat.toDigits 10 coefficient.natAbs).length

theorem isShortestNumeral_text
    {value : Double}
    (isFinite : value.isFinite = true)
    (fractional : value.isIntegral = false) :
    value.IsShortestNumeral value.text := by
  rcases read_text_of_fractional isFinite fractional with
    ⟨reading, isRead, nearest, digits, allDigits⟩
  refine ⟨reading, isRead, nearest, fun coefficient power others => ?_⟩
  cases length : reading.significant.length with
  | zero => exact Nat.zero_le _
  | succ rest =>
      have reached := Numeral.Reading.pow_le_of_significant allDigits length
      rw [digits] at reached
      have atLeast := pow_le_of_isNearest fractional others reached
      by_contra fewer
      rw [not_le, Nat.lt_succ_iff] at fewer
      have positive : 0 < rest :=
        Nat.length_toDigits_pos.trans_le fewer
      rw [Nat.length_toDigits_le_iff (by decide) positive] at fewer
      exact absurd atLeast (not_le.mpr fewer)

/-! ## Nothing is lost -/

/-- The text of a value is a numeral that is rounded to it. -/
theorem exists_read_text
    {value : Double} (isFinite : value.isFinite = true) :
    ∃ reading, Numeral.read value.text.toList = some reading ∧
      IsNearest reading.value value := by
  cases integral : value.isIntegral with
  | true =>
      rcases read_text_of_integral isFinite integral with
        ⟨reading, isRead, equal⟩
      exact ⟨reading, isRead, equal ▸ isNearest_toRat isFinite⟩
  | false =>
      rcases isShortestNumeral_text isFinite integral with
        ⟨reading, isRead, nearest, _⟩
      exact ⟨reading, isRead, nearest⟩

/-- Finite values with the same text are equal as numbers. -/
theorem toRat_eq_of_text_eq
    {left right : Double}
    (leftFinite : left.isFinite = true)
    (rightFinite : right.isFinite = true)
    (sameText : left.text = right.text) :
    left.toRat = right.toRat := by
  rcases exists_read_text leftFinite with ⟨reading, isRead, toLeft⟩
  rcases exists_read_text rightFinite with ⟨reading', isRead', toRight⟩
  rw [sameText, isRead', Option.some.injEq] at isRead
  rw [isRead] at toRight
  exact toLeft.toRat_eq toRight

/--
What it says that the text of a value loses nothing: integers are written in
full, other values with the digits that they need, and no other value has the
same text.
-/
structure HasLosslessText (value : Double) : Prop where
  integer (number : ℤ) :
    value.toRat = number →
      IsCanonicalNumeral number (Scalar.double value).text
  fraction :
    (∀ number : ℤ, value.toRat ≠ number) →
      value.IsShortestNumeral (Scalar.double value).text
  unique (other : Double) :
    other.isFinite = true →
      (Scalar.double other).text = (Scalar.double value).text →
        other.toRat = value.toRat

/-- The text of each finite value loses nothing. -/
theorem hasLosslessText
    {value : Double} (isFinite : value.isFinite = true) :
    value.HasLosslessText where
  integer number equal := by
    have integral := isIntegral_of_toRat equal
    have sameNumber : value.toInt = number := by
      rw [toRat_of_integral integral] at equal
      exact_mod_cast equal
    rw [Scalar.text, text_of_integral isFinite integral, sameNumber]
    exact isCanonicalNumeral_toString number
  fraction noInteger := by
    have fractional : value.isIntegral = false := by
      rw [Bool.eq_false_iff]
      intro integral
      exact noInteger value.toInt (toRat_of_integral integral)
    exact isShortestNumeral_text isFinite fractional
  unique other otherFinite sameText :=
    toRat_eq_of_text_eq otherFinite isFinite sameText

-- The least positive value, and the one nearest to the power `10 ^ 23`.
example : (Double.mk 1).text = "5e-324" := by
  decide +kernel

example : (Double.mk 0x44B52D02C7E14AF6).text = "99999999999999991611392" := by
  decide +kernel

/-- The value nearest to one tenth. -/
def tenth : Double :=
  ⟨0x3FB999999999999A⟩

theorem hasLosslessText_tenth :
    tenth.isFinite = true ∧ tenth.HasLosslessText :=
  ⟨by decide, hasLosslessText (by decide)⟩

end Double

end CssMath
