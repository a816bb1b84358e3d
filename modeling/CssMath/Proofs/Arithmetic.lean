import CssMath.Proofs.Call

/-!
# Arithmetic operations

The four operations differ in what they make, a sum or a product, in the
operator that they put between their operands, and in what becomes of the
operators within a later operand.  Otherwise they are one: each joins the
chains of the operands that are there, and composes the calculation of the
joined chain (`Arithmetic.compose_eq`).
-/

namespace CssMath

namespace Arithmetic

/-- What an operation makes: a sum or a product. -/
def level : Arithmetic → Kind
  | .add => .sum
  | .subtract => .sum
  | .multiply => .product
  | .divide => .product

/-- The operator that an operation puts between its operands. -/
def operator : Arithmetic → String
  | .add => "+"
  | .subtract => "-"
  | .multiply => "*"
  | .divide => "/"

/-- What the operators within a later operand become. -/
def carry : Arithmetic → String → String
  | .subtract => reverseSign
  | _ => id

end Arithmetic

namespace Expr

/-- An expression as a chain of terms for a sum, or of factors for a product. -/
def chainAt : Kind → Expr → Chain
  | .sum => terms
  | _ => factors

/-- The sum or the product of a chain. -/
def ofChain : Kind → Chain → Expr
  | .sum, chain => .sumOf chain.first chain.rest
  | _, chain => .productOf chain.first chain.rest

variable {level : Kind}

theorem chainAt_of_ne (noSum : level ≠ .sum) (expression : Expr) :
    expression.chainAt level = expression.factors := by
  unfold chainAt
  split
  · exact (noSum rfl).elim
  · rfl

theorem ofChain_of_ne (noSum : level ≠ .sum) (chain : Chain) :
    ofChain level chain = productOf chain.first chain.rest := by
  unfold ofChain
  split
  · exact (noSum rfl).elim
  · rfl

end Expr

namespace Arithmetic

/-- The chain that an operation joins, if any operand is there. -/
def chain? (operation : Arithmetic) (operands : List (Option Operand)) :
    Option Chain :=
  Chain.join operation.operator operation.carry
    ((Compose.present operands).map fun operand =>
      operand.asMember.chainAt operation.level)

/-- An operation composes the calculation of its chain, or has none. -/
theorem compose_eq (operation : Arithmetic) (operands : List (Option Operand)) :
    operation.compose operands =
      match operation.chain? operands with
      | none => .error (.emptyInput operation.operation)
      | some chain => .ok (.calc (.ofChain operation.level chain)) := by
  cases operation <;> rfl

theorem compose_eq_ok_iff
    {operation : Arithmetic} {operands : List (Option Operand)}
    {expression : Expr} :
    operation.compose operands = .ok expression ↔
      ∃ chain, operation.chain? operands = some chain ∧
        .calc (.ofChain operation.level chain) = expression := by
  rw [compose_eq]
  cases operation.chain? operands <;> simp

theorem chain?_eq_none_iff
    {operation : Arithmetic} {operands : List (Option Operand)} :
    operation.chain? operands = none ↔ Compose.present operands = [] := by
  unfold chain?
  cases Compose.present operands <;> simp [Chain.join]

end Arithmetic

end CssMath
