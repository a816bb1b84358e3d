import CssMath.Compose.Chain
import CssMath.Compose.Operand

/-!
# Composing sums and products

The four arithmetic operations, on any number of operands of which some may be
absent.  Absent operands are dropped, and at least one must be left.  The
result is a calculation of a single chain: sums among the terms and products
among the factors are spliced into it, and a sum among the factors is put in
brackets.
-/

namespace CssMath.Compose

/-- The operands that are there, in their order. -/
def present (operands : List (Option Operand)) : List Operand :=
  operands.filterMap id

/-- A calculation of the sum of the operands, joined by an operator. -/
def sumWith
    (operation : Operation) (operator : String) (carry : String → String)
    (operands : List (Option Operand)) : Except Fault Expr :=
  let chains := (present operands).map fun operand => operand.asMember.terms
  match Chain.join operator carry chains with
  | none => .error (.emptyInput operation)
  | some chain => .ok (.calc (.sumOf chain.first chain.rest))

/-- A calculation of the product of the operands, joined by an operator. -/
def productWith
    (operation : Operation) (operator : String)
    (operands : List (Option Operand)) : Except Fault Expr :=
  let chains := (present operands).map fun operand => operand.asMember.factors
  match Chain.join operator id chains with
  | none => .error (.emptyInput operation)
  | some chain => .ok (.calc (.productOf chain.first chain.rest))

/-- The sum of all the operands. -/
def add (operands : List (Option Operand)) : Except Fault Expr :=
  sumWith .add "+" id operands

/--
The first operand less all the others.  The signs within a sum that is
subtracted are turned.
-/
def subtract (operands : List (Option Operand)) : Except Fault Expr :=
  sumWith .subtract "-" reverseSign operands

/-- The product of all the operands. -/
def multiply (operands : List (Option Operand)) : Except Fault Expr :=
  productWith .multiply "*" operands

/--
The first operand with a division sign between it and each of the others.
A product among the others keeps the operators it has.
-/
def divide (operands : List (Option Operand)) : Except Fault Expr :=
  productWith .divide "/" operands

end CssMath.Compose
