/-!
# Faults

The two ways in which an expression cannot be made: an operation on any number
of operands is given none, or an operation with named arguments lacks one that
it requires.  A fault names the operation it arose in.
-/

namespace CssMath

/-- An operation that can fail for want of an operand. -/
inductive Operation where
  | add
  | subtract
  | multiply
  | divide
  | min
  | max
  | clamp
  | exp
  | pow
  | round
  deriving DecidableEq, Repr

/-- The name under which a fault reports an operation. -/
def Operation.name : Operation → String
  | .add => "add"
  | .subtract => "subtract"
  | .multiply => "multiply"
  | .divide => "divide"
  | .min => "min"
  | .max => "max"
  | .clamp => "clamp"
  | .exp => "exp"
  | .pow => "pow"
  | .round => "round"

/-- An argument that an operation requires. -/
inductive Argument where
  | value
  | base
  | exponent
  | min
  | preferred
  | max
  deriving DecidableEq, Repr

/-- The name under which a fault reports an argument. -/
def Argument.name : Argument → String
  | .value => "value"
  | .base => "base"
  | .exponent => "exponent"
  | .min => "min"
  | .preferred => "preferred"
  | .max => "max"

/-- Why an expression could not be made. -/
inductive Fault where
  | emptyInput (operation : Operation)
  | missingArgument (operation : Operation) (argument : Argument)
  deriving DecidableEq, Repr

namespace Fault

/-- The operation in which a fault arose. -/
def operation : Fault → Operation
  | .emptyInput operation => operation
  | .missingArgument operation _ => operation

/-- What is told about a fault. -/
def message : Fault → String
  | .emptyInput _ => "Expected at least one item."
  | .missingArgument operation argument =>
      operation.name ++ ": missing required argument '" ++ argument.name ++ "'"

end Fault

end CssMath
