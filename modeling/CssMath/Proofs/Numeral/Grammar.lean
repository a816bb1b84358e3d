import CssMath.Proofs.Decimal.Reading
import Mathlib.Computability.Language
import Mathlib.Order.CompletePartialOrder

/-!
# The grammar of numerals

The language of CSS numerals: an optional sign, a mantissa and an optional
exponent.  The mantissa is a run of digits, or any number of digits with a point
and at least one digit behind it.

A text is in the language if it is put together from a sign, whole digits, a
fraction and an exponent, of which all but one run of digits may be missing
(`Numeral.mem_numerals_iff`).
-/

namespace CssMath.Numeral

open scoped Computability

/-! ## The language -/

/-- One of the ten digits of ASCII. -/
def digit : Language Char :=
  {text | ∃ character : Char, character.isDigit = true ∧ text = [character]}

/-- At least one digit. -/
def digits : Language Char :=
  digit * digit∗

/-- Either of the two signs. -/
def sign : Language Char :=
  {['+']} + {['-']}

/-- Digits with a point among or in front of them, or digits only. -/
def mantissa : Language Char :=
  digit∗ * {['.']} * digits + digits

/-- A power of ten: a letter, maybe a sign, and digits. -/
def exponent : Language Char :=
  ({['e']} + {['E']}) * (1 + sign) * digits

/-- A mantissa, maybe with a sign before it and an exponent behind it. -/
def numerals : Language Char :=
  (1 + sign) * mantissa * (1 + exponent)

/-! ## Digits -/

theorem mem_kstar_digit {text : List Char} :
    text ∈ digit∗ ↔ AllDigits text := by
  rw [Language.mem_kstar]
  constructor
  · rintro ⟨pieces, rfl, each⟩ character member
    rcases List.mem_flatten.mp member with ⟨piece, inPieces, inPiece⟩
    rcases each piece inPieces with ⟨only, isDigit, rfl⟩
    rw [List.mem_singleton.mp inPiece]
    exact isDigit
  · intro allDigits
    refine ⟨text.map fun character => [character], ?_, ?_⟩
    · rw [← List.flatMap_def, List.flatMap_singleton']
    · intro piece member
      rcases List.mem_map.mp member with ⟨character, inText, rfl⟩
      exact ⟨character, allDigits character inText, rfl⟩

theorem mem_digits {text : List Char} :
    text ∈ digits ↔ text ≠ [] ∧ AllDigits text := by
  rw [digits, Language.mem_mul]
  constructor
  · rintro ⟨_, ⟨first, isDigit, rfl⟩, rest, allDigits, rfl⟩
    refine ⟨by simp, ?_⟩
    rw [mem_kstar_digit] at allDigits
    simpa [AllDigits] using ⟨isDigit, allDigits⟩
  · rintro ⟨nonempty, allDigits⟩
    cases text with
    | nil => exact (nonempty rfl).elim
    | cons first rest =>
        rw [AllDigits, List.forall_mem_cons] at allDigits
        exact
          ⟨[first], ⟨first, allDigits.1, rfl⟩,
            rest, mem_kstar_digit.mpr allDigits.2, rfl⟩

/-! ## The parts of a numeral -/

/-- Nothing, or a sign. -/
def IsSignPart (text : List Char) : Prop :=
  text = [] ∨ text = ['+'] ∨ text = ['-']

/-- Nothing, or a point with at least one digit behind it. -/
def IsFraction (text : List Char) : Prop :=
  text = [] ∨
    ∃ behind, behind ≠ [] ∧ AllDigits behind ∧ text = '.' :: behind

/-- Nothing, or an `e` of either case with a sign or none and at least one digit. -/
def IsExponent (text : List Char) : Prop :=
  text = [] ∨
    ∃ mark sign power,
      (mark = 'e' ∨ mark = 'E') ∧ IsSignPart sign ∧
        power ≠ [] ∧ AllDigits power ∧ text = mark :: (sign ++ power)

/-- The parts of a numeral; there is a digit in front of the point or behind it. -/
structure Parts (sign whole fraction exponent : List Char) : Prop where
  isSign : IsSignPart sign
  allDigits : AllDigits whole
  isFraction : IsFraction fraction
  isExponent : IsExponent exponent
  nonempty : whole ≠ [] ∨ fraction ≠ []

theorem mem_optional_sign {text : List Char} :
    text ∈ 1 + Numeral.sign ↔ IsSignPart text := by
  rfl

theorem mem_mantissa {text : List Char} :
    text ∈ mantissa ↔
      ∃ whole fraction,
        AllDigits whole ∧ IsFraction fraction ∧
          (whole ≠ [] ∨ fraction ≠ []) ∧ text = whole ++ fraction := by
  rw [mantissa, Language.mem_add]
  constructor
  · rintro (pointed | whole)
    · rcases Language.mem_mul.mp pointed with
        ⟨_, front, behind, behindDigits, rfl⟩
      rcases Language.mem_mul.mp front with
        ⟨whole, wholeDigits, _, rfl, rfl⟩
      rw [mem_kstar_digit] at wholeDigits
      rw [mem_digits] at behindDigits
      exact
        ⟨whole, '.' :: behind, wholeDigits,
          Or.inr ⟨behind, behindDigits.1, behindDigits.2, rfl⟩,
          Or.inr (by simp), by simp⟩
    · rw [mem_digits] at whole
      exact ⟨text, [], whole.2, Or.inl rfl, Or.inl whole.1, by simp⟩
  · rintro ⟨whole, fraction, wholeDigits, isFraction, nonempty, rfl⟩
    rcases isFraction with rfl | ⟨behind, behindNonempty, behindDigits, rfl⟩
    · refine Or.inr ?_
      rw [List.append_nil, mem_digits]
      exact ⟨by simpa using nonempty, wholeDigits⟩
    · refine Or.inl (Language.mem_mul.mpr
        ⟨whole ++ ['.'], ?_, behind, ?_, by simp⟩)
      · exact Language.mem_mul.mpr
          ⟨whole, mem_kstar_digit.mpr wholeDigits, ['.'], rfl, rfl⟩
      · exact mem_digits.mpr ⟨behindNonempty, behindDigits⟩

theorem mem_optional_exponent {text : List Char} :
    text ∈ 1 + Numeral.exponent ↔ IsExponent text := by
  rw [Language.mem_add, Language.mem_one, IsExponent]
  refine or_congr_right ?_
  rw [Numeral.exponent, Language.mem_mul]
  constructor
  · rintro ⟨front, inFront, power, isPower, rfl⟩
    rcases Language.mem_mul.mp inFront with ⟨mark, isMark, sign, isSign, rfl⟩
    rw [mem_optional_sign] at isSign
    rw [mem_digits] at isPower
    rcases isMark with rfl | rfl
    · exact
        ⟨'e', sign, power, Or.inl rfl, isSign, isPower.1, isPower.2, rfl⟩
    · exact
        ⟨'E', sign, power, Or.inr rfl, isSign, isPower.1, isPower.2, rfl⟩
  · rintro ⟨mark, sign, power, isMark, isSign, nonempty, allDigits, rfl⟩
    refine ⟨mark :: sign, ?_, power, mem_digits.mpr ⟨nonempty, allDigits⟩, rfl⟩
    refine Language.mem_mul.mpr
      ⟨[mark], ?_, sign, mem_optional_sign.mpr isSign, rfl⟩
    rcases isMark with rfl | rfl
    · exact Or.inl rfl
    · exact Or.inr rfl

/-- The numerals are the texts that are put together from such parts. -/
theorem mem_numerals_iff {text : List Char} :
    text ∈ numerals ↔
      ∃ sign whole fraction exponent,
        Parts sign whole fraction exponent ∧
          text = sign ++ whole ++ fraction ++ exponent := by
  rw [numerals, Language.mem_mul]
  constructor
  · rintro ⟨front, inFront, exponent, isExponent, rfl⟩
    rcases Language.mem_mul.mp inFront with
      ⟨sign, isSign, mantissa, isMantissa, rfl⟩
    rcases mem_mantissa.mp isMantissa with
      ⟨whole, fraction, wholeDigits, isFraction, nonempty, rfl⟩
    exact
      ⟨sign, whole, fraction, exponent,
        ⟨mem_optional_sign.mp isSign, wholeDigits, isFraction,
          mem_optional_exponent.mp isExponent, nonempty⟩,
        by simp⟩
  · rintro ⟨sign, whole, fraction, exponent, parts, rfl⟩
    refine
      ⟨sign ++ whole ++ fraction, ?_, exponent,
        mem_optional_exponent.mpr parts.isExponent, rfl⟩
    refine Language.mem_mul.mpr
      ⟨sign, mem_optional_sign.mpr parts.isSign, whole ++ fraction, ?_,
        by simp⟩
    exact mem_mantissa.mpr
      ⟨whole, fraction, parts.allDigits, parts.isFraction, parts.nonempty, rfl⟩

end CssMath.Numeral
