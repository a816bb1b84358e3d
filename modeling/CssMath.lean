import CssMath.Decimal.Double
import CssMath.Decimal.Shortest
import CssMath.Decimal.Text
import CssMath.Text.Blank
import CssMath.Text.Numeral
import CssMath.Text.Scalar
import CssMath.Tree.Kind
import CssMath.Tree.Basic
import CssMath.Tree.Walks
import CssMath.Tree.Outline
import CssMath.Tree.Bounds
import CssMath.Fault
import CssMath.Expr.Basic
import CssMath.Expr.Layout
import CssMath.Expr.Parts
import CssMath.Expr.Construct
import CssMath.Expr.Equality
import CssMath.Compose.Operand
import CssMath.Compose.Chain
import CssMath.Compose.Arithmetic
import CssMath.Compose.Function
import CssMath.Proofs.Blank
import CssMath.Proofs.Occurrence
import CssMath.Proofs.Chain
import CssMath.Proofs.Layout
import CssMath.Proofs.Construction
import CssMath.Proofs.Composition
import CssMath.Proofs.Call
import CssMath.Proofs.Arithmetic
import CssMath.Proofs.Inheritance
import CssMath.Proofs.Interchange
import CssMath.Proofs.Faults
import CssMath.Proofs.Wrapping
import CssMath.Proofs.Program
import CssMath.Proofs.Meaning.Plain
import CssMath.Proofs.Meaning.Interpretation
import CssMath.Proofs.Meaning.Preservation
import CssMath.Proofs.Meaning.Division
import CssMath.Proofs.AtomChain
import CssMath.Proofs.Signs
import CssMath.Proofs.Scalings
import CssMath.Proofs.Regrouping
import CssMath.Proofs.NormalForm
import CssMath.Proofs.Tree.Structure
import CssMath.Proofs.Tree.Bounds
import CssMath.Proofs.Size
import CssMath.Proofs.Growth
import CssMath.Proofs.Cutting
import CssMath.Proofs.Tree.Lines
import CssMath.Proofs.Values
import CssMath.Proofs.Writing.Splicing
import CssMath.Proofs.Writing.Brackets
import CssMath.Proofs.Writing.Layered
import CssMath.Proofs.Writing.Unambiguity
import CssMath.Proofs.Outline
import CssMath.Proofs.Decimal.Nearest
import CssMath.Proofs.Decimal.Shortest
import CssMath.Proofs.Decimal.Reading
import CssMath.Proofs.Decimal.Lossless
import CssMath.Proofs.Numeral.Grammar
import CssMath.Proofs.Numeral.Longest
import CssMath.Proofs.Numeral.Units
import CssMath.Proofs.Numeral.Respelling
