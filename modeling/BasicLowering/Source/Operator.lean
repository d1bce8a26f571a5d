/-!
# Visual Basic operators

The operators of the source language, their spelling, and the families the
analyses ask about.
-/

namespace BasicLowering.Source

/-- A binary operator of the source language. `and` and `or` are the eager
forms: both operands are always evaluated. -/
inductive BinaryOperator where
  | andAlso | orElse | and | or | xor
  | equals | notEquals | lessThan | lessThanOrEqual | greaterThan
  | greaterThanOrEqual
  | is | isNot
  | add | subtract | multiply | divide | integerDivide | modulo | concatenate
  deriving DecidableEq

namespace BinaryOperator

/-- How the operator is written in source text. -/
def spelling : BinaryOperator → String
  | andAlso => "AndAlso"
  | orElse => "OrElse"
  | and => "And"
  | or => "Or"
  | xor => "Xor"
  | equals => "="
  | notEquals => "<>"
  | lessThan => "<"
  | lessThanOrEqual => "<="
  | greaterThan => ">"
  | greaterThanOrEqual => ">="
  | is => "Is"
  | isNot => "IsNot"
  | add => "+"
  | subtract => "-"
  | multiply => "*"
  | divide => "/"
  | integerDivide => "\\"
  | modulo => "Mod"
  | concatenate => "&"

/-- The four comparisons that order their operands. -/
def isOrdering : BinaryOperator → Bool
  | lessThan | lessThanOrEqual | greaterThan | greaterThanOrEqual => true
  | _ => false

/-- Orderings together with `=` and `<>`. -/
def isRelational : BinaryOperator → Bool
  | equals | notEquals => true
  | operator => operator.isOrdering

/-- Conjunctions, short-circuiting or eager. -/
def isConjunction : BinaryOperator → Bool
  | andAlso | and => true
  | _ => false

/-- Disjunctions, short-circuiting or eager. -/
def isDisjunction : BinaryOperator → Bool
  | orElse | or => true
  | _ => false

/-- Eager conjunction and disjunction. -/
def isEager : BinaryOperator → Bool
  | and | or => true
  | _ => false

/-- The short-circuiting counterpart of an eager logical operator. -/
def shortCircuitForm? : BinaryOperator → Option BinaryOperator
  | and => some andAlso
  | or => some orElse
  | _ => none

end BinaryOperator

/-- A unary operator of the source language. -/
inductive UnaryOperator where
  | not | minus | plus
  deriving DecidableEq

end BasicLowering.Source
