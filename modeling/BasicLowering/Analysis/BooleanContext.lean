import BasicLowering.Analysis.Purity
import BasicLowering.Source.Path

/-!
# Boolean contexts

Where a null value is treated exactly like `False`.

In the condition of a statement or of a ternary, a null condition counts as
false. The same then holds for an operand of an enclosing operator, if the
operator passes it on: where its own result may be collapsed, and where
collapsing the operand changes neither that result nor what is evaluated.
-/

namespace BasicLowering.Analysis

open Source Binding

section

variable (arena : Arena)

/-- The nearest level that is not a parenthesized expression, and the levels
above it. -/
def parentSkippingParens? : Path → Option (Step × Path)
  | [] => none
  | step :: outer =>
      if arena.isParenthesized step.effective then
        parentSkippingParens? outer
      else
        some (step, outer)

/-- Whether the node at a level asks for the truth of what is in `slot`. -/
def asksForTruth (parent : Step) (slot : Slot) : Bool :=
  match arena.form? parent.effective with
  | some (.conditionStatement _ condition)
  | some (.ternary condition _ _) =>
      arena.skipParens condition == arena.skipParens slot
  | _ => false

/-- Whether a slot is the condition of a statement or of a ternary. -/
def alwaysHasBooleanType (path : Path) (slot : Slot) : Bool :=
  match parentSkippingParens? arena path with
  | some (parent, _) => asksForTruth arena parent slot
  | none => false

/-- Whether a slot or an expression around it is a condition. -/
def withinCondition : Path → Slot → Bool
  | [], slot => alwaysHasBooleanType arena [] slot
  | step :: outer, slot =>
      alwaysHasBooleanType arena (step :: outer) slot ||
        (arena.isExpression step.effective &&
          withinCondition outer step.referent)

end

variable (model : Model) (arena : Arena)

/-- Whether an operator whose own result may be collapsed treats a null operand
like `False`. A null left operand of `AndAlso` still has its right operand
evaluated, which must then go unnoticed. -/
def passesCollapse (left : Slot) (operator : BinaryOperator) (right : Slot)
    (slot : Slot) : Bool :=
  match operator with
  | .andAlso =>
      slot != arena.skipParens left || isPure model arena right
  | .orElse | .equals | .notEquals => true
  | _ => false

/-- Whether a null value in a slot is treated exactly like `False` by whatever
consumes it. -/
def canConvertToBoolean : Path → Slot → Bool
  | [], _ => false
  | step :: outer, slot =>
      if arena.isParenthesized step.effective then
        canConvertToBoolean outer slot
      else
        asksForTruth arena step slot ||
          match arena.binary? step.effective with
          | none => false
          | some (left, operator, right) =>
              canConvertToBoolean outer step.referent &&
                passesCollapse model arena left operator right slot

end BasicLowering.Analysis
