/-!
# Leading numerals

A CSS numeral is an optional sign, a mantissa and an optional exponent.  The
mantissa is a run of digits, or any number of digits with a point and at least
one digit after it; the exponent is an `e` of either case, an optional sign
and at least one digit.  Digits are the ten ASCII digits.

`Numeral.split` cuts the longest numeral off the front of a text.  Each
optional part is taken only if it is complete, so the `e` of `1em` and the
point of `1.` stay with the rest.
-/

namespace CssMath.Numeral

/-- Cut off a leading plus or minus sign, if there is one. -/
def splitSign : List Char → List Char × List Char
  | '+' :: rest => (['+'], rest)
  | '-' :: rest => (['-'], rest)
  | text => ([], text)

/-- Cut off the leading digits. -/
def splitDigits (text : List Char) : List Char × List Char :=
  (text.takeWhile Char.isDigit, text.dropWhile Char.isDigit)

/-- Cut off a point with at least one digit after it, and those digits. -/
def splitFraction : List Char → List Char × List Char
  | '.' :: afterPoint =>
      let (digits, rest) := splitDigits afterPoint
      if digits.isEmpty then
        ([], '.' :: afterPoint)
      else
        ('.' :: digits, rest)
  | text => ([], text)

/-- Cut off an exponent, if it is complete. -/
def splitExponent : List Char → List Char × List Char
  | [] => ([], [])
  | mark :: afterMark =>
      let (sign, afterSign) := splitSign afterMark
      let (digits, rest) := splitDigits afterSign
      if (mark = 'e' ∨ mark = 'E') ∧ digits ≠ [] then
        (mark :: sign ++ digits, rest)
      else
        ([], mark :: afterMark)

/--
The longest numeral at the front of a text and what follows it, or nothing if
the text does not start with a numeral.
-/
def split (text : List Char) : Option (List Char × List Char) :=
  let (sign, afterSign) := splitSign text
  let (whole, afterWhole) := splitDigits afterSign
  let (fraction, afterFraction) := splitFraction afterWhole
  if whole.isEmpty && fraction.isEmpty then
    none
  else
    let (exponent, rest) := splitExponent afterFraction
    some (sign ++ whole ++ fraction ++ exponent, rest)

end CssMath.Numeral
