import CssMath.Proofs.Numeral.Longest

/-!
# Units behind numerals

A dimension is written with its unit right behind the number.  When its text is
read again, a numeral is cut off as far as it goes, and so the front of the unit
may be lost to it.  A digit always is; a point with a digit behind it is lost to
a numeral of digits only, and an exponent is lost to a numeral without one.

In each of these cases the numeral and what it takes are a longer numeral
together (`Numeral.numerals_mul_digit_le` and the two inclusions behind it).  In
no other case is anything taken, since every part that could still be cut off
starts in one of these ways (`Numeral.Parts.split_ended`).  So the text of a
dimension is read as that dimension just if its numeral ends before its unit and
the unit is neither empty nor a percent sign (`Numeral.rereads`).
-/

namespace CssMath

namespace Numeral

open scoped Computability

/-! ## The fronts of units -/

/-- Numerals without a fraction and without an exponent. -/
def wholes : Language Char :=
  (1 + sign) * digits

/-- Numerals without an exponent. -/
def unscaled : Language Char :=
  (1 + sign) * mantissa

/-- The least fractions: a point with one digit behind it. -/
def fractionFront : Language Char :=
  {['.']} * digit

/-- The least exponents: an `e` of either case, a sign or none, and one digit. -/
def exponentFront : Language Char :=
  ({['e']} + {['E']}) * (1 + sign) * digit

/-- A text starts with another one that is in a language. -/
def StartsIn (fronts : Language Char) (text : List Char) : Prop :=
  ∃ front ∈ fronts, front <+: text

/-- Nothing at the front of a unit prolongs the numeral before it. -/
structure EndsBefore (numeral unit : List Char) : Prop where
  noDigit : ¬ StartsIn digit unit
  noFraction : numeral ∈ wholes → ¬ StartsIn fractionFront unit
  noExponent : numeral ∈ unscaled → ¬ StartsIn exponentFront unit

/-! ## What prolongs a numeral -/

theorem digit_le_digits : digit ≤ digits := by
  calc
    digit = digit * 1 := (mul_one digit).symm
    _ ≤ digit * digit∗ := by
      gcongr
      exact one_le_kstar

theorem digits_mul_digit_le : digits * digit ≤ digits := by
  rw [digits, mul_assoc]
  gcongr
  exact kstar_mul_le_kstar

/-- A digit prolongs any numeral. -/
theorem numerals_mul_digit_le : numerals * digit ≤ numerals := by
  have mantissas : mantissa * digit ≤ mantissa := by
    rw [mantissa, add_mul, mul_assoc]
    gcongr <;> exact digits_mul_digit_le
  have exponents : exponent * digit ≤ exponent := by
    rw [exponent, mul_assoc]
    gcongr
    exact digits_mul_digit_le
  calc
    numerals * digit
        = (1 + sign) * (mantissa * digit) +
            (1 + sign) * mantissa * (exponent * digit) := by
          simp only [numerals, mul_add, add_mul, mul_one, mul_assoc]
    _ ≤ (1 + sign) * mantissa + (1 + sign) * mantissa * exponent := by
          gcongr
    _ = numerals := by
          rw [numerals, mul_add, mul_one]

/-- A fraction prolongs a numeral of digits only. -/
theorem wholes_mul_fractionFront_le : wholes * fractionFront ≤ numerals := by
  calc
    wholes * fractionFront
        = (1 + sign) * (digits * {['.']} * digit) := by
          simp only [wholes, fractionFront, mul_assoc]
    _ ≤ (1 + sign) * (digit∗ * {['.']} * digits) := by
          gcongr
          · exact mul_kstar_le_kstar
          · exact digit_le_digits
    _ ≤ (1 + sign) * mantissa := by
          gcongr
          exact le_self_add
    _ ≤ numerals := le_mul_of_one_le_right' le_self_add

/-- An exponent prolongs a numeral without one. -/
theorem unscaled_mul_exponentFront_le : unscaled * exponentFront ≤ numerals := by
  calc
    unscaled * exponentFront ≤ unscaled * exponent := by
      rw [exponentFront, exponent]
      gcongr
      exact digit_le_digits
    _ ≤ unscaled * (1 + exponent) := by
      gcongr
      exact le_add_self

theorem nil_notMem_digit : [] ∉ digit := by
  rintro ⟨character, _, impossible⟩
  cases impossible

theorem nil_notMem_mul_digit (before : Language Char) :
    [] ∉ before * digit := by
  rintro ⟨first, _, last, isDigit, empty⟩
  rw [(List.append_eq_nil_iff.mp empty).2] at isDigit
  exact nil_notMem_digit isDigit

/-- The longest numeral stands before a unit that cannot prolong it. -/
theorem IsLongest.not_startsIn
    {numeral unit : List Char} {shorter fronts : Language Char}
    (longest : IsLongest numeral (numeral ++ unit))
    (prolongs : shorter * fronts ≤ numerals)
    (nonempty : [] ∉ fronts)
    (mem : numeral ∈ shorter) :
    ¬ StartsIn fronts unit := by
  rintro ⟨front, isFront, rest, rfl⟩
  have isPrefix : numeral ++ front <+: numeral ++ (front ++ rest) :=
    ⟨rest, List.append_assoc _ _ _⟩
  have longer : numeral ++ front ∈ numerals :=
    prolongs (Language.append_mem_mul mem isFront)
  have bound := longest.longest _ isPrefix longer
  have noFront : front = [] := by simpa using bound
  exact nonempty (noFront ▸ isFront)

/-! ## What ends a numeral -/

theorem StartsIn.append
    {fronts : Language Char} {text : List Char}
    (starts : StartsIn fronts text)
    (rest : List Char) :
    StartsIn fronts (text ++ rest) := by
  rcases starts with ⟨front, isFront, isPrefix⟩
  exact ⟨front, isFront, isPrefix.trans (List.prefix_append text rest)⟩

theorem startsIn_digit_iff {text : List Char} :
    StartsIn digit text ↔
      ∃ character ∈ text.head?, character.isDigit = true := by
  constructor
  · rintro ⟨_, ⟨character, isDigit, rfl⟩, rest, rfl⟩
    exact ⟨character, rfl, isDigit⟩
  · rintro ⟨character, isHead, isDigit⟩
    rcases List.head?_eq_some_iff.mp isHead with ⟨rest, rfl⟩
    exact ⟨[character], ⟨character, isDigit, rfl⟩, rest, rfl⟩

theorem head?_of_startsIn_fraction
    {text : List Char} (starts : StartsIn fractionFront text) :
    text.head? = some '.' := by
  rcases starts with ⟨front, isFront, rest, rfl⟩
  rcases Language.mem_mul.mp isFront with ⟨_, rfl, _, _, rfl⟩
  rfl

theorem head?_of_startsIn_exponent
    {text : List Char} (starts : StartsIn exponentFront text) :
    text.head? = some 'e' ∨ text.head? = some 'E' := by
  rcases starts with ⟨front, isFront, rest, rfl⟩
  rcases Language.mem_mul.mp isFront with ⟨_, isMarked, _, _, rfl⟩
  rcases Language.mem_mul.mp isMarked with ⟨_, isMark, _, _, rfl⟩
  rcases isMark with rfl | rfl
  · exact Or.inl rfl
  · exact Or.inr rfl

/-- A numeral ends before what starts like no part of one. -/
theorem endsBefore_of_head
    {numeral unit : List Char}
    (stop : ∀ character ∈ unit.head?,
      character.isDigit = false ∧ character ∉ ['.', 'e', 'E']) :
    EndsBefore numeral unit where
  noDigit starts := by
    rcases startsIn_digit_iff.mp starts with ⟨character, isHead, isDigit⟩
    rw [(stop character isHead).1] at isDigit
    cases isDigit
  noFraction _ starts :=
    (stop '.' (head?_of_startsIn_fraction starts)).2 (by simp)
  noExponent _ starts := by
    rcases head?_of_startsIn_exponent starts with isHead | isHead
    · exact (stop 'e' isHead).2 (by simp)
    · exact (stop 'E' isHead).2 (by simp)

theorem startsIn_of_allDigits
    {text : List Char} (allDigits : AllDigits text) (nonempty : text ≠ []) :
    StartsIn digit text := by
  rcases List.exists_cons_of_ne_nil nonempty with ⟨first, rest, rfl⟩
  exact startsIn_digit_iff.mpr ⟨first, rfl, allDigits first (by simp)⟩

theorem startsIn_of_isFraction
    {text : List Char} (isFraction : IsFraction text) (nonempty : text ≠ []) :
    StartsIn fractionFront text := by
  rcases isFraction with rfl | ⟨behind, there, allDigits, rfl⟩
  · exact (nonempty rfl).elim
  · rcases startsIn_of_allDigits allDigits there with
      ⟨front, isDigit, rest, rfl⟩
    have point : ['.'] ∈ ({['.']} : Language Char) := rfl
    exact
      ⟨['.'] ++ front, Language.append_mem_mul point isDigit, rest, rfl⟩

theorem startsIn_of_isExponent
    {text : List Char} (isExponent : IsExponent text) (nonempty : text ≠ []) :
    StartsIn exponentFront text := by
  rcases isExponent with
    rfl | ⟨mark, sign, power, isMark, isSign, there, allDigits, rfl⟩
  · exact (nonempty rfl).elim
  · rcases startsIn_of_allDigits allDigits there with
      ⟨front, isDigit, rest, rfl⟩
    have marks : [mark] ∈ ({['e']} + {['E']} : Language Char) := by
      rcases isMark with rfl | rfl
      · exact Or.inl rfl
      · exact Or.inr rfl
    refine ⟨mark :: sign ++ front, ?_, rest, by simp⟩
    exact
      Language.append_mem_mul
        (Language.append_mem_mul marks (mem_optional_sign.mpr isSign)) isDigit

/-- Nothing is cut off a text that does not start as the part would. -/
theorem eq_of_not_startsIn
    {fronts : Language Char} {text : List Char}
    {cut : List Char × List Char}
    (whole : cut.1 ++ cut.2 = text)
    (starts : cut.1 ≠ [] → StartsIn fronts cut.1)
    (absent : ¬ StartsIn fronts text) :
    cut = ([], text) := by
  have noPart : cut.1 = [] := by
    by_contra there
    exact absent (whole ▸ (starts there).append cut.2)
  exact Prod.ext noPart (by rw [← whole, noPart, List.nil_append])

/-- A digit is not at the front behind a part that starts with something else. -/
theorem not_startsIn_append
    {part rest : List Char}
    (stop : ∀ character ∈ part.head?, character.isDigit = false)
    (noDigit : ¬ StartsIn digit rest) :
    ¬ StartsIn digit (part ++ rest) := by
  rw [startsIn_digit_iff]
  rintro ⟨character, isHead, isDigit⟩
  cases part with
  | nil => exact noDigit (startsIn_digit_iff.mpr ⟨character, isHead, isDigit⟩)
  | cons first part =>
      rw [stop character isHead] at isDigit
      cases isDigit

theorem IsFraction.stop
    {fraction : List Char} (isFraction : IsFraction fraction) :
    ∀ character ∈ fraction.head?, character.isDigit = false := by
  rcases isFraction with rfl | ⟨behind, _, _, rfl⟩
  · nofun
  · rintro character ⟨⟩
    rfl

theorem IsExponent.stop
    {exponent : List Char} (isExponent : IsExponent exponent) :
    (∀ character ∈ exponent.head?, character.isDigit = false) ∧
      exponent.head? ≠ some '.' := by
  rcases isExponent with rfl | ⟨mark, _, _, isMark, _, _, _, rfl⟩
  · exact ⟨by nofun, by nofun⟩
  · have stop := stop_of_isMark isMark
    refine ⟨?_, by simpa using stop.2⟩
    rintro character ⟨⟩
    exact stop.1

theorem splitDigits_ended
    {digits rest : List Char}
    (allDigits : AllDigits digits)
    (noDigit : ¬ StartsIn digit rest) :
    splitDigits (digits ++ rest) = (digits, rest) := by
  refine splitDigits_append allDigits ?_
  intro character isHead
  rw [Bool.eq_false_iff]
  intro isDigit
  exact noDigit (startsIn_digit_iff.mpr ⟨character, isHead, isDigit⟩)

theorem splitDigits_of_not_startsIn
    {rest : List Char} (noDigit : ¬ StartsIn digit rest) :
    splitDigits rest = ([], rest) := by
  have none : AllDigits [] := by nofun
  exact splitDigits_ended none noDigit

theorem splitFraction_ended
    {fraction rest : List Char}
    (isFraction : IsFraction fraction)
    (noDigit : ¬ StartsIn digit rest)
    (noFraction : fraction = [] → ¬ StartsIn fractionFront rest) :
    splitFraction (fraction ++ rest) = (fraction, rest) := by
  rcases isFraction with rfl | ⟨behind, nonempty, allDigits, rfl⟩
  · have cuts := splitFraction_cuts rest
    exact eq_of_not_startsIn cuts.2 (startsIn_of_isFraction cuts.1)
      (noFraction rfl)
  · rw [splitFraction_prolongs nonempty allDigits,
      splitDigits_of_not_startsIn noDigit, List.append_nil]

theorem splitExponent_ended
    {exponent rest : List Char}
    (isExponent : IsExponent exponent)
    (noDigit : ¬ StartsIn digit rest)
    (noExponent : exponent = [] → ¬ StartsIn exponentFront rest) :
    splitExponent (exponent ++ rest) = (exponent, rest) := by
  rcases isExponent with
    rfl | ⟨mark, sign, power, isMark, isSign, nonempty, allDigits, rfl⟩
  · have cuts := splitExponent_cuts rest
    exact eq_of_not_startsIn cuts.2 (startsIn_of_isExponent cuts.1)
      (noExponent rfl)
  · rw [splitExponent_prolongs isMark isSign nonempty allDigits,
      splitDigits_of_not_startsIn noDigit, List.append_nil]

namespace Parts

variable {sign whole fraction exponent : List Char}

theorem mem_unscaled
    (parts : Parts sign whole fraction exponent) :
    sign ++ whole ++ fraction ∈ unscaled := by
  rw [List.append_assoc]
  exact
    Language.append_mem_mul (mem_optional_sign.mpr parts.isSign)
      (mem_mantissa.mpr
        ⟨whole, fraction, parts.allDigits, parts.isFraction, parts.nonempty,
          rfl⟩)

theorem mem_wholes (parts : Parts sign whole [] exponent) :
    sign ++ whole ∈ wholes :=
  Language.append_mem_mul (mem_optional_sign.mpr parts.isSign)
    (mem_digits.mpr
      ⟨parts.nonempty.resolve_right (not_not.mpr rfl), parts.allDigits⟩)

/-- A numeral is cut off in front of a unit that does not prolong it. -/
theorem split_ended
    {unit : List Char}
    (parts : Parts sign whole fraction exponent)
    (ends : EndsBefore (sign ++ whole ++ fraction ++ exponent) unit) :
    split (sign ++ whole ++ fraction ++ exponent ++ unit) =
      some (sign ++ whole ++ fraction ++ exponent, unit) := by
  have exponentCut :
      splitExponent (exponent ++ unit) = (exponent, unit) := by
    refine splitExponent_ended parts.isExponent ends.noDigit ?_
    rintro rfl
    rw [List.append_nil] at ends
    exact ends.noExponent parts.mem_unscaled
  have noDigit : ¬ StartsIn digit (exponent ++ unit) :=
    not_startsIn_append parts.isExponent.stop.1 ends.noDigit
  have fractionCut :
      splitFraction (fraction ++ (exponent ++ unit)) =
        (fraction, exponent ++ unit) := by
    refine splitFraction_ended parts.isFraction noDigit ?_
    rintro rfl starts
    have isPoint := head?_of_startsIn_fraction starts
    by_cases absent : exponent = []
    · subst exponent
      rw [List.append_nil, List.append_nil] at ends
      exact ends.noFraction parts.mem_wholes starts
    · rw [List.head?_append_of_ne_nil _ absent] at isPoint
      exact parts.isExponent.stop.2 isPoint
  have wholeCut :
      splitDigits (whole ++ (fraction ++ (exponent ++ unit))) =
        (whole, fraction ++ (exponent ++ unit)) :=
    splitDigits_ended parts.allDigits
      (not_startsIn_append parts.isFraction.stop noDigit)
  have cut :=
    split_eq (parts.signCut (exponent ++ unit)) wholeCut fractionCut
      exponentCut parts.nonempty
  simpa only [List.append_assoc] using cut

end Parts

/-- A numeral is cut off in front of a unit just if it ends there. -/
theorem split_append_iff
    {numeral : List Char} (mem : numeral ∈ numerals) (unit : List Char) :
    split (numeral ++ unit) = some (numeral, unit) ↔
      EndsBefore numeral unit := by
  constructor
  · intro cut
    have longest := (split_eq_some_iff.mp cut).2
    exact
      ⟨longest.not_startsIn numerals_mul_digit_le nil_notMem_digit mem,
        longest.not_startsIn wholes_mul_fractionFront_le
          (nil_notMem_mul_digit _),
        longest.not_startsIn unscaled_mul_exponentFront_le
          (nil_notMem_mul_digit _)⟩
  · intro ends
    rcases mem_numerals_iff.mp mem with
      ⟨sign, whole, fraction, exponent, parts, rfl⟩
    exact parts.split_ended ends

end Numeral

/-! ## Numbers read again -/

namespace Expr

theorem text_dimensionOf (scalar : Scalar) (unit : String) :
    (dimensionOf scalar unit).tree.text = scalar.text ++ unit := by
  simp [dimensionOf, tree, Tree.text_eq_rowText]

theorem text_percentageOf (scalar : Scalar) :
    (percentageOf scalar).tree.text = scalar.text ++ "%" := by
  simp [percentageOf, tree, Tree.text_eq_rowText]

/-- A numeral is read as the number that it is. -/
theorem ofText_of_mem
    {text : String} (mem : text.toList ∈ Numeral.numerals) :
    ofText text = .number text := by
  have cut : Numeral.split (text.toList ++ []) = some (text.toList, []) :=
    (Numeral.split_append_iff mem []).mpr
      (Numeral.endsBefore_of_head (by nofun))
  rw [List.append_nil] at cut
  rw [ofText_of_cut cut, if_pos rfl, String.ofList_toList]

theorem ofText_percent
    {numeral : String} (mem : numeral.toList ∈ Numeral.numerals) :
    ofText (numeral ++ "%") = .percentage numeral := by
  have cut :
      Numeral.split (numeral ++ "%").toList = some (numeral.toList, ['%']) := by
    rw [String.toList_append]
    refine (Numeral.split_append_iff mem ['%']).mpr
      (Numeral.endsBefore_of_head ?_)
    rintro character ⟨⟩
    decide
  rw [ofText_of_cut cut, if_neg (List.cons_ne_nil _ _), if_pos rfl,
    String.ofList_toList]

/-- A text is read as a dimension just if its numeral is cut off before the unit. -/
theorem ofText_eq_dimension_iff {text numeral unit : String} :
    ofText text = .dimension numeral unit ↔
      Numeral.split text.toList = some (numeral.toList, unit.toList) ∧
        unit ≠ "" ∧ unit ≠ "%" := by
  have isPercent : unit.toList = ['%'] ↔ unit = "%" :=
    @String.toList_inj unit "%"
  constructor
  · intro isRead
    cases cut : Numeral.split text.toList with
    | none =>
        rw [ofText_of_uncut cut] at isRead
        cases isRead
    | some parts =>
        rw [ofText_of_cut cut] at isRead
        split_ifs at isRead with notEmpty notPercent
        cases isRead
        rw [ne_eq, ne_eq, ← isPercent, ← String.toList_eq_nil_iff]
        simp only [String.toList_ofList, true_and]
        exact ⟨notEmpty, notPercent⟩
  · rintro ⟨cut, notEmpty, notPercent⟩
    rw [ne_eq, ← isPercent] at notPercent
    rw [ne_eq, ← String.toList_eq_nil_iff] at notEmpty
    rw [ofText_of_cut cut, if_neg notEmpty, if_neg notPercent,
      String.ofList_toList, String.ofList_toList]

end Expr

namespace Numeral

/--
What it says that a numeral is read again: its number and its percentage are
read as they were written, and a dimension is just if the numeral ends before
the unit, which is neither empty nor a percent sign.
-/
structure Rereads (numeral : String) : Prop where
  number :
    (Scalar.verbatim (Expr.numberOf (.verbatim numeral)).tree.text).expr =
      Expr.numberOf (.verbatim numeral)
  percentage :
    (Scalar.verbatim (Expr.percentageOf (.verbatim numeral)).tree.text).expr =
      Expr.percentageOf (.verbatim numeral)
  dimension (unit : String) :
    (Scalar.verbatim
          (Expr.dimensionOf (.verbatim numeral) unit).tree.text).expr =
        Expr.dimensionOf (.verbatim numeral) unit ↔
      unit ≠ "" ∧ unit ≠ "%" ∧ EndsBefore numeral.toList unit.toList

theorem rereads
    {numeral : String} (mem : numeral.toList ∈ numerals) :
    Rereads numeral where
  number := by
    rw [Expr.numberOf, Expr.tree, Tree.text_leaf, Scalar.expr]
    exact Expr.ofText_of_mem mem
  percentage := by
    rw [Expr.text_percentageOf, Scalar.expr]
    exact Expr.ofText_percent mem
  dimension unit := by
    rw [Expr.text_dimensionOf, Scalar.expr, Expr.dimensionOf,
      Expr.ofText_eq_dimension_iff, Scalar.text, String.toList_append,
      split_append_iff mem]
    tauto

-- An exponent is not prolonged by another one.
example : (Scalar.verbatim "1e3e5").expr = .dimension "1e3" "e5" := by
  rfl

theorem rereads_negative :
    "-12".toList ∈ numerals ∧ Rereads "-12" := by
  have mem : "-12".toList ∈ numerals := by
    refine mem_numerals_iff.mpr
      ⟨['-'], ['1', '2'], [], [], ⟨Or.inr (Or.inr rfl), ?_, Or.inl rfl,
        Or.inl rfl, Or.inl (by simp)⟩, rfl⟩
    simp [AllDigits]
  exact ⟨mem, rereads mem⟩

end Numeral

end CssMath
