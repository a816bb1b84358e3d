/-!
# Blank characters

The characters that may surround an operator without being part of it: the
Unicode white space characters together with the four information separators
U+001C to U+001F, twenty-nine in all.  Zero-width characters such as U+200B
and U+FEFF are not blank.
-/

namespace CssMath

/-- Closed ranges of code points, ascending and apart. -/
def blankRanges : List (Nat × Nat) :=
  [(0x09, 0x0D), (0x1C, 0x20), (0x85, 0x85), (0xA0, 0xA0), (0x1680, 0x1680),
    (0x2000, 0x200A), (0x2028, 0x2029), (0x202F, 0x202F), (0x205F, 0x205F),
    (0x3000, 0x3000)]

/-- Whether a character is one of the twenty-nine blanks. -/
def isBlank (character : Char) : Bool :=
  blankRanges.any fun range =>
    decide (range.1 ≤ character.toNat) && decide (character.toNat ≤ range.2)

/-- A text without the blanks at its two ends. -/
def trimBlanks (text : String) : String :=
  String.ofList
    ((text.toList.dropWhile isBlank).reverse.dropWhile isBlank).reverse

end CssMath
