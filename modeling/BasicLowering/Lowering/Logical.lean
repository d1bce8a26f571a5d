import BasicLowering.Lowering.Operand

/-!
# Conjunction and disjunction

The templates for logical operators with at least one operand that may be null.
There is one family for a boolean context, where null counts as false and the
result is a plain `bool`, and one for all other places, where the result has
three values.
-/

namespace BasicLowering.Lowering

open Target (Expr)

/-- The test `left == false`, and the expression to use for the left operand
from then on. -/
def captureForFalseTest (left : Operand) : Naming Capture :=
  if left.isReusable then
    return ⟨left.expr.equalsFalse, left.expr⟩
  else do
    let captured ← captureAny left.expr
    return ⟨captured.test.and captured.value.equalsFalse, captured.value⟩

/-- The test that the left operand has no value, and the expression to use for
it from then on. -/
def captureForMissingTest (left : Operand) : Naming Capture :=
  if left.isReusable then
    return ⟨left.expr.hasNoValue, left.expr⟩
  else do
    let captured ← captureAny left.expr
    return ⟨captured.test.and captured.value.hasNoValue, captured.value⟩

/-- The test that the right operand has no value, and the expression for its
value where it has one. -/
def captureForMissingValue (right : Operand) : Naming Capture :=
  if right.isReusable then
    return ⟨right.expr.hasNoValue, right.expr.getValue⟩
  else
    captureUnlessNull right.expr

/-- Short-circuiting disjunction where null counts as false. -/
def collapsedDisjunction (left right : Operand) : Naming Lowered :=
  if !left.mayBeNull then
    return .proven (left.expr.or right.expr.equalsTrue)
  else
    return .proven (left.expr.equalsTrue.or right.collapsed)

namespace Site

variable (site : Site)

/-- Three-valued conjunction of operands that may both be null:
`l == false ? false : (r has no value) ? null : (value of r) ? l : false`. The
capture of the right operand is named first. -/
def conjunctionOfBoth (left right : Operand) : Naming Expr := do
  let right ← captureForMissingValue right
  let left ← captureForFalseTest left
  return .conditional left.test site.nullableFalse
    (.conditional right.test site.nullableNull
      (.conditional right.value left.value site.nullableFalse))

/-- Short-circuiting conjunction where null counts as false. Where the left
operand is null, the right one is still evaluated if that can be noticed. -/
def collapsedConjunction (left right : Operand) : Naming Lowered :=
  if !left.mayBeNull then
    return .proven (left.expr.and right.expr.equalsTrue)
  else if site.isPure right then
    return .proven (left.expr.equalsTrue.and right.collapsed)
  else if !right.mayBeNull then do
    let left ← captureForMissingTest left
    return .proven
      (((left.test.or left.value.getValue).and right.expr).and
        left.value.hasValue)
  else do
    let conjunction ← site.conjunctionOfBoth left right
    return .proven conjunction.equalsTrue

/-- Short-circuiting conjunction with three values. -/
def conjunction (left right : Operand) : Naming Lowered :=
  if !left.mayBeNull then
    return .plain (.conditional left.expr right.expr site.nullableFalse)
  else if !right.mayBeNull then do
    let left ← captureForFalseTest left
    return .plain
      (.conditional left.test site.nullableFalse
        (.conditional right.expr left.value site.nullableFalse))
  else do
    let conjunction ← site.conjunctionOfBoth left right
    return .plain conjunction

/-- Short-circuiting disjunction with three values. -/
def disjunction (left right : Operand) : Naming Lowered :=
  if !left.mayBeNull then
    return .plain (.conditional left.expr site.nullableTrue right.expr)
  else do
    let left ← captureAny left.expr
    let whenNotTrue ←
      if !right.mayBeNull then
        pure (Expr.conditional right.expr site.nullableTrue left.value)
      else do
        let right ← captureUnlessNull right.expr
        pure (Expr.conditional right.test site.nullableNull
          (.conditional right.value site.nullableTrue left.value))
    return .plain
      (.conditional (left.test.and left.value.equalsTrue) site.nullableTrue
        whenNotTrue)

end Site

end BasicLowering.Lowering
