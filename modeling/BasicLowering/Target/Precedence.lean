import BasicLowering.Target.Expr

/-!
# Precedence

How tightly an expression holds together. An operand is enclosed in parentheses
when it holds together less tightly than the place it stands in asks for.
-/

namespace BasicLowering.Target

namespace Precedence

/-- Below every operator: forms that are not operands at all. -/
def none : Nat := 0
def conditional : Nat := 3
def logicalOr : Nat := 5
def logicalAnd : Nat := 6
def bitOr : Nat := 7
def exclusiveOr : Nat := 8
def bitAnd : Nat := 9
def equality : Nat := 10
/-- Orderings and `is`. -/
def relational : Nat := 11
def additive : Nat := 13
def multiplicative : Nat := 14
/-- Unary operators and casts. -/
def unary : Nat := 15
def primary : Nat := 16

end Precedence

/-- The level of a binary operator. -/
def BinaryOperator.precedence : BinaryOperator → Nat
  | logicalOr => Precedence.logicalOr
  | logicalAnd => Precedence.logicalAnd
  | bitOr => Precedence.bitOr
  | exclusiveOr => Precedence.exclusiveOr
  | bitAnd => Precedence.bitAnd
  | equal | notEqual => Precedence.equality
  | less | lessOrEqual | greater | greaterOrEqual => Precedence.relational
  | add | subtract => Precedence.additive
  | multiply | divide | modulo => Precedence.multiplicative

/-- The level of the operator at the root of an expression. A named argument
stands only in an argument list and is below every operator. -/
def Expr.precedence : Expr → Nat
  | binary _ operator _ => operator.precedence
  | conditional .. => Precedence.conditional
  | test .. => Precedence.relational
  | unary .. | cast .. => Precedence.unary
  | namedArgument .. => Precedence.none
  | _ => Precedence.primary

end BasicLowering.Target
