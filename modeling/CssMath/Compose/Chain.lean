import CssMath.Expr.Parts

/-!
# Chains

A chain is a first operand followed by pairs of an operator and an operand.
Every expression is a chain of terms and a chain of factors, most of them with
one member only, and chains are joined end to end.

When chains are joined, the first member of each chain but the leading one
gets the joining operator.  Its other members keep their own operators, or
exchange them for the ones that mean the same behind the joining operator: a
minus in front of a sum turns each sign within it.  The leading chain stands
as it was.
-/

namespace CssMath

/-- A first operand and the pairs of an operator and an operand behind it. -/
structure Chain where
  first : Expr
  rest : List (String × Expr)

namespace Chain

/-- A chain behind a joining operator. -/
def behind
    (operator : String) (carry : String → String) (chain : Chain) :
    List (String × Expr) :=
  (operator, chain.first) ::
    chain.rest.map fun step => (carry step.1, step.2)

/-- Join chains end to end; nothing if there are none. -/
def join (operator : String) (carry : String → String) :
    List Chain → Option Chain
  | [] => none
  | leading :: others =>
      some ⟨leading.first, leading.rest ++ others.flatMap (behind operator carry)⟩

end Chain

/--
The sign that a term of a subtracted sum is given.  Whatever is not a plus
counts as a minus.
-/
def reverseSign (operator : String) : String :=
  if operator = "+" then "-" else "+"

namespace Expr

/-- An expression as a chain of terms: the terms of a sum, or else itself. -/
def terms : Expr → Chain
  | .sum first operator second rest =>
      ⟨first, trimmedTerms ((operator, second) :: rest)⟩
  | expression => ⟨expression, []⟩

/--
An expression as a chain of factors: the factors of a product, a sum in
brackets, or else itself.
-/
def factors : Expr → Chain
  | .product first operator second rest =>
      ⟨first, (operator, second) :: rest⟩
  | .sum first operator second rest =>
      ⟨.group (.sum first operator second rest), []⟩
  | expression => ⟨expression, []⟩

end Expr

end CssMath
