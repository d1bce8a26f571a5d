import BasicLowering.Lowering.Logical
import BasicLowering.Lowering.Relational

/-!
# Binary expressions

Operators on nullable operands are three-valued in the source language: a
comparison with `Nothing` is `Nothing`, and `Nothing AndAlso False` is `False`.
The operators of the target language differ, so such an expression is restated.
Expressions with operands that are known not to be null stay as they are.
-/

namespace BasicLowering.Lowering

open Source Binding Analysis
open Target (Expr)

/-- The operators that are restated: the logical ones save `Xor`, and the
comparisons. -/
def isRestated (operator : BinaryOperator) : Bool :=
  operator.isRelational || operator.isConjunction || operator.isDisjunction

/-- Whether an expression is converted to a nullable type. -/
def convertsToNullable (model : Model) (type : ExprType) : Bool :=
  type.converted.any model.types.isNullable

namespace Site

variable (site : Site)

/-- Restate an operator of which at least one operand may be null, where
`collapse` tells whether null counts as false. The eager operators of the target
language already have three values; where null counts as false they may be
short-circuited if no one can notice. -/
def restate (collapse : Bool) (operator : BinaryOperator) (unchanged : Expr)
    (left right : Operand) : Naming Lowered :=
  match operator with
  | .andAlso =>
      if collapse then site.collapsedConjunction left right
      else site.conjunction left right
  | .orElse =>
      if collapse then collapsedDisjunction left right
      else site.disjunction left right
  | .and | .or =>
      if !collapse then
        return .plain unchanged
      else if !site.isPure right then
        return .proven unchanged.equalsTrue
      else if operator = .and then
        site.collapsedConjunction left right
      else
        collapsedDisjunction left right
  | _ => site.comparison collapse operator unchanged left right

/-- Restate the binary expression at `parent`, given the path above it.
`unchanged` is the plain operator on the converted operands. It is the result
wherever nothing needs to be restated. -/
def lowerBinary (path : Path) (parent : Step) (leftType rightType : ExprType)
    (unchanged : Expr) (left right : Lowered) : Naming Lowered :=
  match site.arena.binary? parent.effective with
  | none => return .plain unchanged
  | some (leftSlot, operator, rightSlot) =>
      if isRestated operator && convertsToNullable site.model leftType &&
          convertsToNullable site.model rightType then
        let left := site.operand path parent leftSlot leftType left
        let right := site.operand path parent rightSlot rightType right
        if left.mayBeNull || right.mayBeNull then
          let collapse :=
            canConvertToBoolean site.model site.arena path parent.referent
          site.restate collapse operator unchanged left right
        else
          return .proven unchanged
      else
        return .plain unchanged

end Site

end BasicLowering.Lowering
