import CssMath.Decimal.Text

/-!
# Scalars

The plain values from which expressions are made.  Each has a text; the text
of a verbatim scalar is that scalar itself, whatever it contains.
-/

namespace CssMath

/--
A number, a truth value, which counts as a number, or a text, which is taken
as it stands.
-/
inductive Scalar where
  | integer (number : Int)
  | double (number : Double)
  | truth (holds : Bool)
  | verbatim (text : String)
  deriving DecidableEq, Repr

/-- What a scalar is written as. -/
def Scalar.text : Scalar → String
  | .integer number => toString number
  | .double number => number.text
  | .truth true => "True"
  | .truth false => "False"
  | .verbatim text => text

end CssMath
