import CssMath.Compose.Operand
import CssMath.Proofs.Numeral.Grammar
import CssMath.Proofs.Writing.Text
import Mathlib.Data.List.TakeWhile

/-!
# The longest numeral

A numeral is cut off the front of a text part by part, and each part is taken
as far as it goes.  What is cut off is the longest numeral that the text starts
with.

It is a numeral because each part is one of its kind.  No numeral at the front
of the text is longer, because the last part of such a numeral that is there is
all that cutting could prolong: digits are prolonged by digits only, and the
parts in front of the last one are followed by a character that ends them
(`Numeral.exists_split_append`).

So a text is read by its longest numeral, and nothing of it is lost: what it is
read as is written as the text (`Scalar.readsLongest`).
-/

namespace CssMath

namespace Numeral

/-! ## What is cut off -/

theorem splitSign_cuts (text : List Char) :
    IsSignPart (splitSign text).1 ∧
      (splitSign text).1 ++ (splitSign text).2 = text := by
  fun_cases splitSign text with
  | case1 rest => exact ⟨Or.inr (Or.inl rfl), rfl⟩
  | case2 rest => exact ⟨Or.inr (Or.inr rfl), rfl⟩
  | case3 text noPlus noMinus => exact ⟨Or.inl rfl, rfl⟩

theorem splitDigits_cuts (text : List Char) :
    AllDigits (splitDigits text).1 ∧
      (splitDigits text).1 ++ (splitDigits text).2 = text :=
  ⟨fun _ member => List.mem_takeWhile_imp member,
    List.takeWhile_append_dropWhile⟩

theorem splitFraction_cuts (text : List Char) :
    IsFraction (splitFraction text).1 ∧
      (splitFraction text).1 ++ (splitFraction text).2 = text := by
  fun_cases splitFraction text with
  | case1 afterPoint digits rest cut isEmpty => exact ⟨Or.inl rfl, rfl⟩
  | case2 afterPoint digits rest cut nonempty =>
      have cuts := splitDigits_cuts afterPoint
      rw [cut] at cuts
      exact
        ⟨Or.inr ⟨digits, by simpa using nonempty, cuts.1, rfl⟩,
          congrArg ('.' :: ·) cuts.2⟩
  | case3 text noPoint => exact ⟨Or.inl rfl, rfl⟩

theorem splitExponent_cuts (text : List Char) :
    IsExponent (splitExponent text).1 ∧
      (splitExponent text).1 ++ (splitExponent text).2 = text := by
  fun_cases splitExponent text with
  | case1 => exact ⟨Or.inl rfl, rfl⟩
  | case2 mark afterMark sign afterSign cutSign digits rest cut complete =>
      have signCuts := splitSign_cuts afterMark
      have cuts := splitDigits_cuts afterSign
      rw [cutSign] at signCuts
      rw [cut] at cuts
      refine
        ⟨Or.inr ⟨mark, sign, digits, complete.1, signCuts.1, complete.2,
          cuts.1, rfl⟩, ?_⟩
      rw [← signCuts.2, ← cuts.2]
      simp
  | case3 mark afterMark sign afterSign cutSign digits rest cut incomplete =>
      exact ⟨Or.inl rfl, rfl⟩

/-- The parts that are cut off, one after the other, are the numeral. -/
theorem split_eq
    {text sign afterSign whole afterWhole fraction afterFraction : List Char}
    {exponent rest : List Char}
    (signCut : splitSign text = (sign, afterSign))
    (wholeCut : splitDigits afterSign = (whole, afterWhole))
    (fractionCut : splitFraction afterWhole = (fraction, afterFraction))
    (exponentCut : splitExponent afterFraction = (exponent, rest))
    (nonempty : whole ≠ [] ∨ fraction ≠ []) :
    split text = some (sign ++ whole ++ fraction ++ exponent, rest) := by
  simp only [split, signCut, wholeCut, fractionCut, exponentCut]
  rw [if_neg]
  simpa [imp_iff_not_or] using nonempty

/-- What is cut off is a numeral, and it is cut off the front. -/
theorem split_cuts
    {text numeral rest : List Char}
    (cut : split text = some (numeral, rest)) :
    numeral ++ rest = text ∧ numeral ∈ numerals := by
  have signCuts := splitSign_cuts text
  have wholeCuts := splitDigits_cuts (splitSign text).2
  have fractionCuts :=
    splitFraction_cuts (splitDigits (splitSign text).2).2
  have exponentCuts :=
    splitExponent_cuts
      (splitFraction (splitDigits (splitSign text).2).2).2
  simp only [split] at cut
  split at cut
  · cases cut
  · rename_i found
    cases cut
    constructor
    · simp only [List.append_assoc, exponentCuts.2, fractionCuts.2,
        wholeCuts.2, signCuts.2]
    · refine mem_numerals_iff.mpr
        ⟨_, _, _, _, ⟨signCuts.1, wholeCuts.1, fractionCuts.1,
          exponentCuts.1, ?_⟩, rfl⟩
      simpa [imp_iff_not_or] using found

/-! ## What is prolonged -/

/-- A sign is taken in front of anything that does not start with one. -/
theorem splitSign_append
    {sign rest : List Char}
    (isSign : IsSignPart sign)
    (unsigned : ∀ character ∈ rest.head?,
      character ≠ '+' ∧ character ≠ '-') :
    splitSign (sign ++ rest) = (sign, rest) := by
  rcases isSign with rfl | rfl | rfl
  · rw [List.nil_append]
    fun_cases splitSign rest with
    | case1 rest => exact ((unsigned '+' rfl).1 rfl).elim
    | case2 rest => exact ((unsigned '-' rfl).2 rfl).elim
    | case3 text noPlus noMinus => rfl
  · rfl
  · rfl

theorem unsigned_of_isDigit
    {character : Char} (isDigit : character.isDigit = true) :
    character ≠ '+' ∧ character ≠ '-' := by
  constructor
  · rintro rfl
    cases isDigit
  · rintro rfl
    cases isDigit

/-- Digits are prolonged by the digits behind them. -/
theorem splitDigits_prolongs
    {digits : List Char} (allDigits : AllDigits digits) (rest : List Char) :
    splitDigits (digits ++ rest) =
      (digits ++ (splitDigits rest).1, (splitDigits rest).2) := by
  rw [splitDigits, List.takeWhile_append_of_pos allDigits,
    List.dropWhile_append_of_pos allDigits]
  rfl

theorem splitFraction_prolongs
    {behind : List Char}
    (nonempty : behind ≠ [])
    (allDigits : AllDigits behind)
    (rest : List Char) :
    splitFraction ('.' :: behind ++ rest) =
      ('.' :: behind ++ (splitDigits rest).1, (splitDigits rest).2) := by
  simp [splitFraction, splitDigits_prolongs allDigits, nonempty]

theorem splitExponent_prolongs
    {mark : Char} {sign power : List Char}
    (isMark : mark = 'e' ∨ mark = 'E')
    (isSign : IsSignPart sign)
    (nonempty : power ≠ [])
    (allDigits : AllDigits power)
    (rest : List Char) :
    splitExponent (mark :: (sign ++ power) ++ rest) =
      (mark :: (sign ++ power) ++ (splitDigits rest).1,
        (splitDigits rest).2) := by
  have signCut : splitSign (sign ++ (power ++ rest)) = (sign, power ++ rest) :=
    splitSign_append isSign fun character member =>
      unsigned_of_isDigit
        (head_append_of_allDigits nonempty allDigits character member)
  rw [List.cons_append, List.append_assoc]
  simp [splitExponent, signCut, splitDigits_prolongs allDigits, nonempty,
    isMark]

/-! ## What is ended -/

/-- A fraction is ended by what is neither a digit nor a point. -/
theorem splitFraction_append
    {fraction rest : List Char}
    (isFraction : IsFraction fraction)
    (stop : ∀ character ∈ rest.head?,
      character.isDigit = false ∧ character ≠ '.') :
    splitFraction (fraction ++ rest) = (fraction, rest) := by
  rcases isFraction with rfl | ⟨behind, nonempty, allDigits, rfl⟩
  · rw [List.nil_append]
    fun_cases splitFraction rest with
    | case1 afterPoint digits rest cut isEmpty => rfl
    | case2 afterPoint digits rest cut nonempty =>
        exact ((stop '.' rfl).2 rfl).elim
    | case3 text noPoint => rfl
  · have ended : splitDigits ([] ++ rest) = ([], rest) :=
      splitDigits_append (by nofun) fun character member =>
        (stop character member).1
    rw [List.nil_append] at ended
    rw [splitFraction_prolongs nonempty allDigits, ended, List.append_nil]

/-- Whole digits are ended by a fraction. -/
theorem head?_fraction
    {fraction rest : List Char}
    (isFraction : IsFraction fraction)
    (stop : ∀ character ∈ rest.head?, character.isDigit = false) :
    ∀ character ∈ (fraction ++ rest).head?, character.isDigit = false := by
  rcases isFraction with rfl | ⟨behind, nonempty, allDigits, rfl⟩
  · exact stop
  · rintro character ⟨⟩
    rfl

/-- A mark of an exponent is not a part of what stands in front of it. -/
theorem stop_of_isMark
    {mark : Char} (isMark : mark = 'e' ∨ mark = 'E') :
    mark.isDigit = false ∧ mark ≠ '.' := by
  rcases isMark with rfl | rfl <;> decide

namespace Parts

variable {sign whole fraction exponent : List Char}

/-- The sign is cut off in front of the first digit or the point. -/
theorem signCut
    (parts : Parts sign whole fraction exponent) (rest : List Char) :
    splitSign (sign ++ (whole ++ (fraction ++ rest))) =
      (sign, whole ++ (fraction ++ rest)) := by
  refine splitSign_append parts.isSign ?_
  intro character member
  by_cases isEmpty : whole = []
  · have isFraction := parts.isFraction.resolve_left
      (parts.nonempty.resolve_left (not_not.mpr isEmpty))
    rcases isFraction with ⟨behind, _, _, rfl⟩
    subst whole
    cases member
    decide
  · exact unsigned_of_isDigit
      (head_append_of_allDigits isEmpty parts.allDigits character member)

/-- Whole digits are prolonged by digits, and then by a fraction or an exponent. -/
theorem split_whole
    (parts : Parts sign whole [] []) (rest : List Char) :
    ∃ more after,
      split (sign ++ whole ++ rest) = some (sign ++ whole ++ more, after) := by
  have nonempty : whole ++ (splitDigits rest).1 ≠ [] :=
    List.append_ne_nil_of_left_ne_nil
      (parts.nonempty.resolve_right (not_not.mpr rfl)) _
  have cut :=
    split_eq (parts.signCut rest) (splitDigits_prolongs parts.allDigits rest)
      rfl rfl (Or.inl nonempty)
  simp only [List.nil_append, List.append_assoc] at cut ⊢
  exact ⟨_, _, cut⟩

/-- A fraction is prolonged by digits, and then by an exponent. -/
theorem split_fraction
    {behind : List Char}
    (parts : Parts sign whole ('.' :: behind) [])
    (nonempty : behind ≠ [])
    (allDigits : AllDigits behind)
    (rest : List Char) :
    ∃ more after,
      split (sign ++ whole ++ '.' :: behind ++ rest) =
        some (sign ++ whole ++ '.' :: behind ++ more, after) := by
  have wholeCut :
      splitDigits (whole ++ ('.' :: behind ++ rest)) =
        (whole, '.' :: behind ++ rest) :=
    splitDigits_append parts.allDigits (by rintro character ⟨⟩; rfl)
  have cut :=
    split_eq (parts.signCut rest) wholeCut
      (splitFraction_prolongs nonempty allDigits rest) rfl
      (Or.inr (List.cons_ne_nil _ _))
  simp only [List.append_assoc] at cut ⊢
  exact ⟨_, _, cut⟩

/-- An exponent is prolonged by digits. -/
theorem split_exponent
    {mark : Char} {powerSign power : List Char}
    (parts : Parts sign whole fraction (mark :: (powerSign ++ power)))
    (isMark : mark = 'e' ∨ mark = 'E')
    (isSign : IsSignPart powerSign)
    (nonempty : power ≠ [])
    (allDigits : AllDigits power)
    (rest : List Char) :
    ∃ more after,
      split (sign ++ whole ++ fraction ++ mark :: (powerSign ++ power) ++
          rest) =
        some
          (sign ++ whole ++ fraction ++ mark :: (powerSign ++ power) ++ more,
            after) := by
  have stop :
      ∀ character ∈ (mark :: (powerSign ++ power) ++ rest).head?,
        character.isDigit = false ∧ character ≠ '.' := by
    rintro character ⟨⟩
    exact stop_of_isMark isMark
  have wholeCut :=
    splitDigits_append parts.allDigits
      (head?_fraction parts.isFraction fun character member =>
        (stop character member).1)
  have cut :=
    split_eq (parts.signCut _) wholeCut
      (splitFraction_append parts.isFraction stop)
      (splitExponent_prolongs isMark isSign nonempty allDigits rest)
      parts.nonempty
  simp only [List.append_assoc] at cut ⊢
  exact ⟨_, _, cut⟩

end Parts

/-! ## The longest numeral -/

/-- A numeral at the front of a text is prolonged by what is cut off, if at all. -/
theorem exists_split_append
    {numeral : List Char} (mem : numeral ∈ numerals) (rest : List Char) :
    ∃ more after,
      split (numeral ++ rest) = some (numeral ++ more, after) := by
  rcases mem_numerals_iff.mp mem with
    ⟨sign, whole, fraction, exponent, parts, rfl⟩
  -- The last part that is there is the one that can be prolonged.
  rcases parts.isExponent with
    rfl | ⟨mark, powerSign, power, isMark, isSign, nonempty, allDigits, rfl⟩
  · rw [List.append_nil]
    rcases parts.isFraction with rfl | ⟨behind, nonempty, allDigits, rfl⟩
    · rw [List.append_nil]
      exact parts.split_whole rest
    · exact parts.split_fraction nonempty allDigits rest
  · exact parts.split_exponent isMark isSign nonempty allDigits rest

/-- A numeral at the front of a text such that no longer one is there. -/
structure IsLongest (numeral text : List Char) : Prop where
  isPrefix : numeral <+: text
  mem : numeral ∈ numerals
  longest : ∀ other, other <+: text → other ∈ numerals →
    other.length ≤ numeral.length

/-- What is cut off the front of a text is the longest numeral there. -/
theorem split_eq_some_iff {text numeral rest : List Char} :
    split text = some (numeral, rest) ↔
      numeral ++ rest = text ∧ IsLongest numeral text := by
  constructor
  · intro cut
    rcases split_cuts cut with ⟨whole, mem⟩
    refine ⟨whole, ⟨rest, whole⟩, mem, ?_⟩
    rintro other ⟨behind, rfl⟩ otherMem
    rcases exists_split_append otherMem behind with ⟨more, after, prolonged⟩
    rw [cut] at prolonged
    cases prolonged
    simp
  · rintro ⟨rfl, longest⟩
    rcases exists_split_append longest.mem rest with ⟨more, after, cut⟩
    rcases split_cuts cut with ⟨whole, mem⟩
    have bound := longest.longest _ ⟨after, whole⟩ mem
    have noMore : more = [] := by simpa using bound
    subst more
    rw [List.append_nil] at cut whole
    rw [cut, List.append_cancel_left whole]

/-- Nothing is cut off just if no numeral stands at the front of a text. -/
theorem split_eq_none_iff {text : List Char} :
    split text = none ↔
      ∀ numeral, numeral <+: text → numeral ∉ numerals := by
  constructor
  · rintro uncut numeral ⟨rest, rfl⟩ mem
    rcases exists_split_append mem rest with ⟨more, after, cut⟩
    rw [uncut] at cut
    cases cut
  · intro noNumeral
    cases cut : split text with
    | none => rfl
    | some parts =>
        rcases split_cuts cut with ⟨whole, mem⟩
        exact (noNumeral parts.1 ⟨parts.2, whole⟩ mem).elim

end Numeral

/-! ## What a text is read as -/

namespace Expr

theorem ofText_of_uncut
    {text : String} (uncut : Numeral.split text.toList = none) :
    ofText text = .raw text := by
  rw [ofText, uncut]

/-- What stands behind the numeral decides what a text is read as. -/
theorem ofText_of_cut
    {text : String}
    {numeral unit : List Char}
    (cut : Numeral.split text.toList = some (numeral, unit)) :
    ofText text =
      if unit = [] then .number (String.ofList numeral)
      else if unit = ['%'] then .percentage (String.ofList numeral)
      else .dimension (String.ofList numeral) (String.ofList unit) := by
  rw [ofText, cut]
  split
  · rename_i absent
    cases absent
  · rename_i here
    cases here
    rw [if_pos rfl]
  · rename_i here
    cases here
    rw [if_neg (List.cons_ne_nil _ _), if_pos rfl]
  · rename_i notEmpty notPercent here
    cases here
    rw [if_neg notEmpty, if_neg notPercent]

/-- Writing what a text is read as gives the text back. -/
theorem text_ofText (text : String) :
    (ofText text).tree.text = text := by
  cases cut : Numeral.split text.toList with
  | none =>
      rw [ofText_of_uncut cut]
      simp [tree]
  | some parts =>
      have whole := (Numeral.split_cuts cut).1
      rw [ofText_of_cut cut, ← String.toList_inj, ← whole]
      split_ifs with isEmpty isPercent
      · simp [tree, isEmpty]
      · simp [tree, isPercent, Tree.text_eq_rowText]
      · simp [tree, Tree.text_eq_rowText]

end Expr

namespace Scalar

/--
What it says that a text is read by its longest numeral: a text with a numeral
at its front is read as the longest one and the unit behind it, any other text
is taken as it stands, and the text that is written is the one that was read.
-/
structure ReadsLongest (text : String) : Prop where
  unnumbered :
    (∀ numeral, numeral <+: text.toList → numeral ∉ Numeral.numerals) →
      (verbatim text).expr = .raw text
  exists_longest :
    (∃ numeral, numeral <+: text.toList ∧ numeral ∈ Numeral.numerals) →
      ∃ numeral unit : String,
        numeral ++ unit = text ∧
          Numeral.IsLongest numeral.toList text.toList
  numbered (numeral unit : String) :
    numeral ++ unit = text →
      Numeral.IsLongest numeral.toList text.toList →
        (verbatim text).expr =
          if unit = "" then .number numeral
          else if unit = "%" then .percentage numeral
          else .dimension numeral unit
  written : (verbatim text).expr.tree.text = text
  again :
    (verbatim (verbatim text).expr.tree.text).expr = (verbatim text).expr

/-- Each text is read by its longest numeral. -/
theorem readsLongest (text : String) : ReadsLongest text where
  unnumbered noNumeral :=
    Expr.ofText_of_uncut (Numeral.split_eq_none_iff.mpr noNumeral)
  exists_longest := by
    rintro ⟨numeral, isPrefix, mem⟩
    cases cut : Numeral.split text.toList with
    | none =>
        exact (Numeral.split_eq_none_iff.mp cut numeral isPrefix mem).elim
    | some parts =>
        rcases Numeral.split_eq_some_iff.mp cut with ⟨whole, longest⟩
        refine ⟨String.ofList parts.1, String.ofList parts.2, ?_, ?_⟩
        · rw [← String.toList_inj, String.toList_append,
            String.toList_ofList, String.toList_ofList, whole]
        · rwa [String.toList_ofList]
  numbered numeral unit whole longest := by
    have cut :
        Numeral.split text.toList = some (numeral.toList, unit.toList) :=
      Numeral.split_eq_some_iff.mpr
        ⟨by rw [← String.toList_append, whole], longest⟩
    have isPercent : unit.toList = ['%'] ↔ unit = "%" :=
      @String.toList_inj unit "%"
    rw [expr, Expr.ofText_of_cut cut]
    simp only [String.toList_eq_nil_iff, isPercent, String.ofList_toList]
  written := Expr.text_ofText text
  again := by
    rw [expr, expr, Expr.text_ofText]

-- The second `e` starts no exponent, as no digit is behind it.
example : (verbatim "-.5e3em").expr = .dimension "-.5e3" "em" := by
  rfl

end Scalar

end CssMath
