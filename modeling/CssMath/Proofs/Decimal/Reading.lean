import CssMath.Decimal.Text
import CssMath.Proofs.Decimal.Shortest
import CssMath.Text.Numeral

/-!
# Reading numerals

`Numeral.read` takes a text that is a numeral as a whole, by the grammar of
`Numeral.split`, and tells its sign, its digits and its power of ten.  The
number that it denotes is `Numeral.Reading.value`.

The two ways of writing a decimal fraction are read alike: the number is that
fraction, and the digits from the first one on that is not zero are those of
its coefficient (`Decimal.read_digits`).
-/

namespace CssMath

namespace Numeral

/--
What a numeral says: its sign, the digits in front of its point and behind it,
and the power of ten in its exponent.
-/
structure Reading where
  negative : Bool
  whole : List Char
  fraction : List Char
  power : ℤ

namespace Reading

/-- The digits of the mantissa. -/
def digits (reading : Reading) : List Char :=
  reading.whole ++ reading.fraction

/-- The digits from the first one on that is not zero. -/
def significant (reading : Reading) : List Char :=
  reading.digits.dropWhile fun digit => digit = '0'

/-- The number that a numeral denotes. -/
def value (reading : Reading) : ℚ :=
  (if reading.negative then -1 else 1) *
    Nat.ofDigitChars 10 reading.digits 0 *
      10 ^ (reading.power - reading.fraction.length)

end Reading

/-- The integer that digits with an optional sign stand for. -/
def readInteger (text : List Char) : ℤ :=
  let (sign, digits) := splitSign text
  if sign = ['-'] then
    -(Nat.ofDigitChars 10 digits 0 : ℤ)
  else
    Nat.ofDigitChars 10 digits 0

/-- Read a text that is a numeral from its first to its last character. -/
def read (text : List Char) : Option Reading :=
  let (sign, afterSign) := splitSign text
  let (whole, afterWhole) := splitDigits afterSign
  let (fraction, afterFraction) := splitFraction afterWhole
  let (exponent, rest) := splitExponent afterFraction
  if whole.isEmpty && fraction.isEmpty || !rest.isEmpty then
    none
  else
    some
      { negative := decide (sign = ['-'])
        whole := whole
        fraction := fraction.drop 1
        power := readInteger (exponent.drop 1) }

example : read "-1.5e-07".toList = some ⟨true, ['1'], ['5'], -7⟩ := by
  rfl

/-! ## Cutting numerals -/

/-- All characters of a text are digits. -/
def AllDigits (text : List Char) : Prop :=
  ∀ character ∈ text, character.isDigit = true

theorem splitSign_digit
    {digit : Char} (isDigit : digit.isDigit = true) (rest : List Char) :
    splitSign (digit :: rest) = ([], digit :: rest) := by
  rw [splitSign]
  · intro _ plus
    cases plus
    cases isDigit
  · intro _ minus
    cases minus
    cases isDigit

theorem splitDigits_append
    {digits rest : List Char}
    (allDigits : AllDigits digits)
    (stop : ∀ character ∈ rest.head?, character.isDigit = false) :
    splitDigits (digits ++ rest) = (digits, rest) := by
  rw [splitDigits, List.takeWhile_append_of_pos allDigits,
    List.dropWhile_append_of_pos allDigits]
  cases rest with
  | nil => simp
  | cons character rest =>
      have notDigit := stop character rfl
      simp [notDigit]

/-- Digits behind a point, if there are any. -/
def pointed (fraction : List Char) : List Char :=
  if fraction.isEmpty then [] else '.' :: fraction

/-- Digits as a negative power of ten, if there are any. -/
def lowered (exponent : List Char) : List Char :=
  if exponent.isEmpty then [] else 'e' :: '-' :: exponent

theorem lowered_stop (exponent : List Char) :
    ∀ character ∈ (lowered exponent).head?, character.isDigit = false := by
  rw [lowered]
  split <;> simp

theorem pointed_lowered_stop (fraction exponent : List Char) :
    ∀ character ∈ (pointed fraction ++ lowered exponent).head?,
      character.isDigit = false := by
  rw [pointed]
  split
  · exact lowered_stop exponent
  · simp

theorem splitFraction_pointed
    {fraction exponent : List Char} (allDigits : AllDigits fraction) :
    splitFraction (pointed fraction ++ lowered exponent) =
      (pointed fraction, lowered exponent) := by
  cases fraction with
  | nil =>
      cases exponent with
      | nil => rfl
      | cons digit others => rfl
  | cons digit others =>
      have cut := splitDigits_append allDigits (lowered_stop exponent)
      rw [List.cons_append] at cut
      simp [pointed, splitFraction, cut]

theorem splitExponent_lowered
    {exponent : List Char} (allDigits : AllDigits exponent) :
    splitExponent (lowered exponent) = (lowered exponent, []) := by
  cases exponent with
  | nil => rfl
  | cons digit others =>
      have cut : splitDigits (digit :: others ++ []) = (digit :: others, []) :=
        splitDigits_append allDigits (by simp)
      rw [List.append_nil] at cut
      simp [lowered, splitExponent, splitSign, cut]

theorem readInteger_lowered (exponent : List Char) :
    readInteger ((lowered exponent).drop 1) =
      -(Nat.ofDigitChars 10 exponent 0 : ℤ) := by
  cases exponent with
  | nil => simp [lowered, readInteger, splitSign]
  | cons digit others => simp [lowered, readInteger, splitSign]

/-- A numeral without a sign is read as it is composed. -/
theorem read_unsigned
    {whole fraction exponent : List Char}
    (nonempty : whole ≠ [])
    (wholeDigits : AllDigits whole)
    (fractionDigits : AllDigits fraction)
    (exponentDigits : AllDigits exponent) :
    read (whole ++ (pointed fraction ++ lowered exponent)) =
      some ⟨false, whole, fraction, -(Nat.ofDigitChars 10 exponent 0 : ℤ)⟩ := by
  have noSign :
      splitSign (whole ++ (pointed fraction ++ lowered exponent)) =
        ([], whole ++ (pointed fraction ++ lowered exponent)) := by
    cases whole with
    | nil => exact (nonempty rfl).elim
    | cons digit others => exact splitSign_digit (wholeDigits digit (by simp)) _
  have digits :
      (pointed fraction).drop 1 = fraction := by
    cases fraction with
    | nil => rfl
    | cons digit others => rfl
  simp only [read, noSign,
    splitDigits_append wholeDigits (pointed_lowered_stop fraction exponent),
    splitFraction_pointed fractionDigits, splitExponent_lowered exponentDigits,
    readInteger_lowered, digits]
  simp [nonempty]

/-- A minus sign in front of a numeral is read as such. -/
theorem read_minus
    {text : List Char}
    (unsigned : ∀ character ∈ text.head?, character.isDigit = true) :
    read ('-' :: text) =
      (read text).map fun reading => { reading with negative := true } := by
  cases text with
  | nil => rfl
  | cons digit rest =>
      simp only [read, splitSign_digit (unsigned digit rfl)]
      rw [splitSign]
      split <;> simp

/-- A sign in front of a numeral without one is read as such. -/
theorem read_signed
    (negative : Prop) [Decidable negative]
    {text : List Char} {reading : Reading}
    (unsigned : ∀ character ∈ text.head?, character.isDigit = true)
    (isRead : read text = some reading)
    (noSign : reading.negative = false) :
    read ((if negative then ['-'] else []) ++ text) =
      some { reading with negative := decide negative } := by
  split
  case isTrue isNegative =>
    rw [List.singleton_append, read_minus unsigned, isRead, Option.map_some]
    simp [isNegative]
  case isFalse notNegative =>
    rw [List.nil_append, isRead]
    cases reading
    simp_all

end Numeral

theorem Numeral.Reading.value_signed
    {reading : Numeral.Reading} (noSign : reading.negative = false)
    (negative : Prop) [Decidable negative] :
    { reading with negative := decide negative }.value =
      if negative then -reading.value else reading.value := by
  by_cases isNegative : negative <;>
    simp [Numeral.Reading.value, Numeral.Reading.digits, noSign, isNegative]

/-! ## Digits -/

theorem allDigits_toDigits (number : ℕ) :
    Numeral.AllDigits (Nat.toDigits 10 number) := fun _ member =>
  Nat.isDigit_of_mem_toDigits (by decide) (by decide) member

/-- The digits of a number are read as it. -/
theorem read_toDigits (number : ℕ) :
    Numeral.read (Nat.toDigits 10 number) =
      some ⟨false, Nat.toDigits 10 number, [], 0⟩ := by
  have none : Numeral.AllDigits [] := by nofun
  simpa [Numeral.pointed, Numeral.lowered] using
    Numeral.read_unsigned Nat.toDigits_ne_nil (allDigits_toDigits number)
      none none

theorem head_append_of_allDigits
    {digits rest : List Char}
    (nonempty : digits ≠ [])
    (allDigits : Numeral.AllDigits digits) :
    ∀ character ∈ (digits ++ rest).head?, character.isDigit = true := by
  cases digits with
  | nil => exact (nonempty rfl).elim
  | cons digit others =>
      rintro character ⟨⟩
      exact allDigits digit List.mem_cons_self

/-- Leading zeros do not count. -/
theorem ofDigitChars_dropWhile (digits : List Char) :
    Nat.ofDigitChars 10 (digits.dropWhile fun digit => digit = '0') 0 =
      Nat.ofDigitChars 10 digits 0 := by
  induction digits with
  | nil => rfl
  | cons digit others inductionHypothesis =>
      by_cases zero : digit = '0'
      · simp [zero, inductionHypothesis, Nat.ofDigitChars_cons]
      · simp [zero]

/-- A first digit that is not zero counts for a power of ten. -/
theorem pow_le_ofDigitChars
    {digit : Char} {others : List Char}
    (isDigit : digit.isDigit = true)
    (nonzero : digit ≠ '0') :
    10 ^ others.length ≤ Nat.ofDigitChars 10 (digit :: others) 0 := by
  have positive : 1 ≤ digit.toNat - '0'.toNat := by
    have atLeast : '0'.toNat ≤ digit.toNat := by
      rw [Char.isDigit, Bool.and_eq_true, decide_eq_true_eq] at isDigit
      exact isDigit.1
    have different : '0'.toNat ≠ digit.toNat := fun equal =>
      nonzero (Char.toNat_inj.mp equal).symm
    omega
  rw [Nat.ofDigitChars_cons, Nat.ofDigitChars_eq_ofDigitChars_zero,
    Nat.mul_zero, Nat.zero_add]
  exact (Nat.le_mul_of_pos_right _ positive).trans (Nat.le_add_right _ _)

/-- The number of significant digits bounds the number that the digits stand for. -/
theorem Numeral.Reading.pow_le_of_significant
    {reading : Numeral.Reading} {others : ℕ}
    (allDigits : Numeral.AllDigits reading.digits)
    (length : reading.significant.length = others + 1) :
    10 ^ others ≤ Nat.ofDigitChars 10 reading.digits 0 := by
  rw [← ofDigitChars_dropWhile]
  cases digits : reading.digits.dropWhile fun digit => digit = '0' with
  | nil =>
      rw [significant, digits] at length
      cases length
  | cons digit rest =>
      rw [significant, digits, List.length_cons, Nat.succ_inj] at length
      rw [← length]
      apply pow_le_ofDigitChars
      · have member : digit ∈ reading.digits := by
          apply (List.dropWhile_sublist _).subset
          rw [digits]
          simp
        exact allDigits digit member
      · have first := List.head?_dropWhile_not
          (fun digit => decide (digit = '0')) reading.digits
        simpa [digits] using first

namespace Decimal

theorem allDigits_paddedDigits (width number : ℕ) :
    Numeral.AllDigits (paddedDigits width number) := by
  intro digit member
  rw [paddedDigits, List.leftpad, List.mem_append] at member
  rcases member with zero | member
  · rw [List.eq_of_mem_replicate zero]
    rfl
  · exact allDigits_toDigits number digit member

theorem ofDigitChars_paddedDigits (width number : ℕ) :
    Nat.ofDigitChars 10 (paddedDigits width number) 0 = number := by
  rw [paddedDigits, List.leftpad, Nat.ofDigitChars_append,
    Nat.ofDigitChars_replicate_zero, Nat.mul_zero,
    Nat.ofDigitChars_ten_toDigits]

theorem paddedDigits_ne_nil (width number : ℕ) :
    paddedDigits width number ≠ [] := by
  simp [paddedDigits, List.leftpad]

theorem length_paddedDigits
    {width number : ℕ}
    (positive : 0 < width)
    (bound : number < 10 ^ width) :
    (paddedDigits width number).length = width := by
  have atMost : (Nat.toDigits 10 number).length ≤ width :=
    (Nat.length_toDigits_le_iff (by decide) positive).mpr bound
  rw [paddedDigits, List.leftpad, List.length_append, List.length_replicate]
  omega

/-- A reading denotes a decimal fraction, with the digits of its coefficient. -/
structure IsReadAs (decimal : Decimal) (reading : Numeral.Reading) : Prop where
  unsigned : reading.negative = false
  allDigits : Numeral.AllDigits reading.digits
  coefficient : Nat.ofDigitChars 10 reading.digits 0 = decimal.coefficient
  places : reading.power - reading.fraction.length = -decimal.places

theorem IsReadAs.value_eq
    {decimal : Decimal} {reading : Numeral.Reading}
    (isReadAs : decimal.IsReadAs reading) :
    reading.value = decimal.toRat := by
  rw [Numeral.Reading.value, isReadAs.unsigned, isReadAs.coefficient, isReadAs.places,
    zpow_neg, zpow_natCast, toRat, div_eq_mul_inv]
  simp

theorem positional_eq (decimal : Decimal) :
    decimal.positional =
      Nat.toDigits 10 (decimal.coefficient / 10 ^ decimal.places) ++
        (Numeral.pointed
            (paddedDigits decimal.places
              (decimal.coefficient % 10 ^ decimal.places)) ++
          Numeral.lowered []) := by
  simp [positional, Numeral.pointed, Numeral.lowered, paddedDigits_ne_nil]

theorem read_positional
    {decimal : Decimal} (positive : 0 < decimal.places) :
    ∃ reading, Numeral.read decimal.positional = some reading ∧
      decimal.IsReadAs reading := by
  rw [positional_eq]
  refine ⟨_, Numeral.read_unsigned Nat.toDigits_ne_nil
    (allDigits_toDigits _) (allDigits_paddedDigits _ _) (by nofun), ?_⟩
  have bound :
      decimal.coefficient % 10 ^ decimal.places < 10 ^ decimal.places :=
    Nat.mod_lt _ (by positivity)
  have length := length_paddedDigits positive bound
  constructor
  · rfl
  · rintro digit member
    rcases List.mem_append.mp member with inWhole | inFraction
    · exact allDigits_toDigits _ digit inWhole
    · exact allDigits_paddedDigits _ _ digit inFraction
  · rw [Numeral.Reading.digits, Nat.ofDigitChars_append,
      Nat.ofDigitChars_ten_toDigits, Nat.ofDigitChars_eq_ofDigitChars_zero,
      length, ofDigitChars_paddedDigits]
    exact Nat.div_add_mod _ _
  · simp [length]

theorem scientific_eq
    {decimal : Decimal} {lead : Char} {others : List Char}
    (digits : Nat.toDigits 10 decimal.coefficient = lead :: others) :
    decimal.scientific =
      [lead] ++
        (Numeral.pointed others ++
          Numeral.lowered
            (paddedDigits 2 (decimal.places - others.length))) := by
  simp [scientific, digits, Numeral.pointed, Numeral.lowered,
    paddedDigits_ne_nil]

theorem read_scientific
    {decimal : Decimal}
    (positive : 0 < decimal.places)
    (small : decimal.coefficient < 10 ^ decimal.places) :
    ∃ reading, Numeral.read decimal.scientific = some reading ∧
      decimal.IsReadAs reading := by
  cases digits : Nat.toDigits 10 decimal.coefficient with
  | nil => exact (Nat.toDigits_ne_nil digits).elim
  | cons lead others =>
      have allDigits := allDigits_toDigits decimal.coefficient
      have length :=
        (Nat.length_toDigits_le_iff (by decide) positive).mpr small
      rw [digits] at allDigits length
      rw [List.length_cons] at length
      rw [scientific_eq digits]
      refine ⟨_, Numeral.read_unsigned (List.cons_ne_nil lead [])
        (fun digit member => allDigits digit ?_)
        (fun digit member => allDigits digit (List.mem_cons_of_mem _ member))
        (allDigits_paddedDigits _ _), ?_⟩
      · rw [List.mem_singleton.mp member]
        exact List.mem_cons_self
      constructor
      · rfl
      · exact allDigits
      · rw [Numeral.Reading.digits, List.singleton_append, ← digits,
          Nat.ofDigitChars_ten_toDigits]
      · rw [ofDigitChars_paddedDigits]
        push_cast
        omega

/-- Both ways of writing a decimal fraction are read as that fraction. -/
theorem read_digits
    {decimal : Decimal} (positive : 0 < decimal.places) :
    ∃ reading, Numeral.read decimal.digits = some reading ∧
      decimal.IsReadAs reading := by
  rw [digits]
  split
  case isTrue small =>
    rw [Nat.pow_eq, Nat.pow_eq] at small
    refine read_scientific positive (lt_of_le_of_lt ?_ small)
    exact Nat.le_mul_of_pos_right _ (by norm_num)
  case isFalse => exact read_positional positive

/-- A written decimal fraction starts with a digit. -/
theorem digits_head (decimal : Decimal) :
    ∀ character ∈ decimal.digits.head?, character.isDigit = true := by
  rw [digits]
  split
  · cases digits : Nat.toDigits 10 decimal.coefficient with
    | nil => exact (Nat.toDigits_ne_nil digits).elim
    | cons lead others =>
        have allDigits := allDigits_toDigits decimal.coefficient
        rw [digits] at allDigits
        rw [scientific_eq digits]
        rintro character ⟨⟩
        exact allDigits lead List.mem_cons_self
  · exact head_append_of_allDigits Nat.toDigits_ne_nil (allDigits_toDigits _)

end Decimal

end CssMath
