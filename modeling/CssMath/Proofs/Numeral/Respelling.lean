import CssMath.Proofs.Decimal.Lossless
import CssMath.Proofs.Interchange
import CssMath.Proofs.Numeral.Units

/-!
# Numbers and their texts

A number and its text are the same operand.  The text of an integer is a sign
and digits, and the text of a finite binary64 value can be read from its first
to its last character; so both are numerals as a whole, and what a numeral is
read as is the number with that text.

No call tells the two apart, because they become the same expression in every
place.  A bound is no exception: the one text that is read differently there is
not a numeral.
-/

namespace CssMath

/-! ## The texts of numbers -/

/-- An integer of any size, or a binary64 value that is finite. -/
inductive Scalar.IsFiniteNumber : Scalar → Prop where
  | integer (number : Int) :
      IsFiniteNumber (.integer number)
  | double
      {number : Double}
      (isFinite : number.isFinite = true) :
      IsFiniteNumber (.double number)

namespace Numeral

/-- What is read from its first to its last character is a numeral. -/
theorem mem_numerals_of_read
    {text : List Char} {reading : Reading}
    (isRead : read text = some reading) :
    text ∈ numerals := by
  simp only [read] at isRead
  split at isRead
  · cases isRead
  · rename_i complete
    simp only [Bool.or_eq_true, Bool.and_eq_true, List.isEmpty_iff,
      Bool.not_eq_true', List.isEmpty_eq_false_iff, not_or, not_and_or,
      not_not] at complete
    have cut :=
      split_eq Prod.mk.eta.symm Prod.mk.eta.symm Prod.mk.eta.symm
        Prod.mk.eta.symm complete.1
    rcases split_cuts cut with ⟨whole, mem⟩
    rw [complete.2, List.append_nil] at whole
    rwa [whole] at mem

/-- The text of an integer is a sign, if it is negative, and its digits. -/
theorem toString_int_mem (number : Int) :
    (toString number).toList ∈ numerals := by
  have isSign : IsSignPart (if number < 0 then ['-'] else []) := by
    split
    · exact Or.inr (Or.inr rfl)
    · exact Or.inl rfl
  rw [toList_toString_int]
  exact mem_numerals_iff.mpr
    ⟨_, Nat.toDigits 10 number.natAbs, [], [],
      ⟨isSign, allDigits_toDigits _, Or.inl rfl, Or.inl rfl,
        Or.inl Nat.toDigits_ne_nil⟩, by simp⟩

end Numeral

namespace Scalar.IsFiniteNumber

variable {number : Scalar}

/-- The whole text of a number is a numeral. -/
theorem text_mem
    (isNumber : number.IsFiniteNumber) :
    number.text.toList ∈ Numeral.numerals := by
  cases isNumber with
  | integer number => exact Numeral.toString_int_mem number
  | double isFinite =>
      rcases Double.exists_read_text isFinite with ⟨reading, isRead, _⟩
      exact Numeral.mem_numerals_of_read isRead

theorem expr_eq
    (isNumber : number.IsFiniteNumber) :
    number.expr = Expr.numberOf number := by
  cases isNumber <;> rfl

/-- The text of a number is read as that number. -/
theorem expr_text
    (isNumber : number.IsFiniteNumber) :
    (verbatim number.text).expr = number.expr := by
  rw [isNumber.expr_eq, Scalar.expr, Expr.ofText_of_mem isNumber.text_mem,
    Expr.numberOf]

end Scalar.IsFiniteNumber

/-! ## Operands -/

/-- An operand that is left as it is, or a number that is replaced by its text. -/
inductive Operand.Respelled : Option Operand → Option Operand → Prop where
  | same (operand : Option Operand) :
      Respelled operand operand
  | number
      {number : Scalar}
      (isNumber : number.IsFiniteNumber) :
      Respelled
        (some (.scalar number))
        (some (.scalar (.verbatim number.text)))

theorem Numeral.none_notMem : "none".toList ∉ numerals := by
  intro mem
  have isRead : Expr.ofText "none" = .number "none" := Expr.ofText_of_mem mem
  cases isRead

/-- A numeral is no open bound. -/
theorem Compose.bound_numeral
    {text : String} (mem : text.toList ∈ Numeral.numerals) :
    bound (some (.scalar (.verbatim text))) =
      some (Scalar.verbatim text).expr := by
  unfold bound
  split
  · rename_i isOpen
    cases isOpen
    exact (Numeral.none_notMem mem).elim
  · rfl

namespace Operand.Respelled

variable {operand operand' : Option Operand}

theorem sameMember
    (respelled : Respelled operand operand') :
    SameMember operand operand' := by
  cases respelled with
  | same operand => rfl
  | number isNumber =>
      simp only [SameMember, Option.map_some, asMember, isNumber.expr_text]

theorem sameArgument
    (respelled : Respelled operand operand') :
    SameArgument operand operand' := by
  cases respelled with
  | same operand => exact ⟨rfl, rfl⟩
  | number isNumber =>
      constructor
      · simp only [Option.map_some, asArgument, isNumber.expr_text]
      · rw [Compose.bound_numeral isNumber.text_mem, isNumber.expr_text]
        cases isNumber <;> rfl

end Operand.Respelled

/-- A call composes the same from numbers and from their texts. -/
theorem Call.compose_respelled
    {call call' : Call (Option Operand)}
    (respelled : call.Related Operand.Respelled call') :
    call.compose = call'.compose := by
  by_cases function : call.IsFunction
  · exact Call.compose_congr function
      (respelled.imp fun _ _ _ respelled => respelled.sameArgument)
  · cases respelled with
    | arithmetic operation each =>
        exact operation.compose_congr
          (each.imp fun _ _ respelled => respelled.sameMember)
    | _ => exact (function trivial).elim

/--
The whole text of a number is a numeral, it is read as the number, and no
function tells the one from the other, whichever of its operands are replaced.
-/
theorem Scalar.text_interchangeable :
    (∀ number : Scalar, number.IsFiniteNumber →
        number.text.toList ∈ Numeral.numerals ∧
          (verbatim number.text).expr = number.expr ∧
          number.expr = Expr.numberOf number) ∧
      (∀ operand operand' : Option Operand,
        Operand.Respelled operand operand' →
          operand'.map Operand.asArgument = operand.map Operand.asArgument) ∧
      ∀ call call' : Call (Option Operand),
        call.Related Operand.Respelled call' →
          call'.compose = call.compose := by
  refine ⟨?_, ?_, ?_⟩
  · intro number isNumber
    exact ⟨isNumber.text_mem, isNumber.expr_text, isNumber.expr_eq⟩
  · intro operand operand' respelled
    exact respelled.sameArgument.argument.symm
  · intro call call' respelled
    exact (Call.compose_respelled respelled).symm

/-- The least positive value, with a negative exponent of three digits. -/
def Double.least : Double :=
  ⟨1⟩

theorem Double.text_least : Double.least.text = "5e-324" := by
  decide +kernel

/-- One, as a calculation, between two bounds. -/
def farClamp (lower upper : Operand) : Call (Option Operand) :=
  .clamp (some lower) (some (.expr (.calc (.number "1")))) (some upper)

theorem Scalar.text_interchangeable_farClamp :
    IsFiniteNumber (.integer (-10 ^ 25)) ∧
      IsFiniteNumber (.double .least) ∧
      Double.least.text.toList ∈ Numeral.numerals ∧
      (farClamp
            (.scalar (.verbatim "-10000000000000000000000000"))
            (.scalar (.verbatim "5e-324"))).compose =
        (farClamp
            (.scalar (.integer (-10 ^ 25)))
            (.scalar (.double .least))).compose := by
  have isInteger : IsFiniteNumber (.integer (-10 ^ 25)) := .integer _
  have isDouble : IsFiniteNumber (.double .least) := .double (by decide)
  have lower :
      Operand.Respelled
        (some (.scalar (.integer (-10 ^ 25))))
        (some (.scalar (.verbatim "-10000000000000000000000000"))) := by
    exact .number isInteger
  have upper :
      Operand.Respelled
        (some (.scalar (.double .least)))
        (some (.scalar (.verbatim "5e-324"))) := by
    rw [← Double.text_least]
    exact .number isDouble
  exact
    ⟨isInteger, isDouble,
      (Scalar.text_interchangeable.1 _ isDouble).1,
      Scalar.text_interchangeable.2.2 _ _
        (.clamp lower (.same _) upper)⟩

end CssMath
