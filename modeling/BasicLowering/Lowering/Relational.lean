import BasicLowering.Lowering.Operand

/-!
# Comparisons

A comparison with null is null, where the target language has it false or
compares null like a value. The comparison is therefore guarded by tests that
its operands have values. An operand that must not be evaluated twice is bound
by its guard.
-/

namespace BasicLowering.Lowering

open Source (BinaryOperator)
open Target (Expr)

/-- A test in front of a comparison. A mandatory test binds a name and has to
run before the tests that use it. -/
structure Guard where
  isMandatory : Bool
  test : Expr

/-- The test that an operand has a value, if one is needed, and the expression
to compare. -/
def guardOperand (operand : Operand) : Naming (List Guard × Expr) :=
  if operand.isReusable then
    if operand.mayBeNull then
      return ([⟨false, operand.expr.hasValue⟩], operand.expr)
    else
      return ([], operand.expr)
  else do
    let captured ← captureValue operand.expr
    return ([⟨true, captured.test⟩], captured.value)

/-- The tests in front of a comparison, and the two expressions to compare.
Where both operands have to be bound, the right one is bound first and whatever
its value. -/
def guardOperands (left right : Operand) :
    Naming (List Guard × Expr × Expr) := do
  let (first, right) ←
    if !left.isReusable && !right.isReusable then do
      let captured ← captureAny right.expr
      pure ([⟨true, captured.test⟩],
        { right with expr := captured.value, isReusable := true })
    else
      pure (([] : List Guard), right)
  let (leftGuards, leftExpr) ← guardOperand left
  let (rightGuards, rightExpr) ← guardOperand right
  return (first ++ leftGuards ++ rightGuards, leftExpr, rightExpr)

/-- The tests in the order in which they run: the mandatory ones first, and
otherwise as they were made. -/
def orderGuards (guards : List Guard) : List Expr :=
  ((guards.filter (·.isMandatory)) ++
    (guards.filter (!·.isMandatory))).map (·.test)

/-- The tests joined by `&&`, if there are any. -/
def joinTests? : List Expr → Option Expr
  | [] => none
  | test :: rest => some (rest.foldl Expr.and test)

/-- Whether the target language agrees with a comparison as it stands, when
null counts as false: an ordering with null is false in both, and so is an
equality of which only one side may be null. -/
def agreesWhenCollapsed (operator : BinaryOperator) (left right : Operand) :
    Bool :=
  operator.isOrdering ||
    (operator == .equals && !(left.mayBeNull && right.mayBeNull))

/-- Whether the last test may be left out: an equality is already false where
just one side is null. -/
def lastTestIsSuperfluous (collapse : Bool) (operator : BinaryOperator)
    (left right : Operand) : Bool :=
  collapse && operator == .equals && left.mayBeNull && right.mayBeNull

namespace Site

variable (site : Site)

/-- A comparison with at least one operand that may be null. `unguarded` is the
comparison as it stands. -/
def comparison (collapse : Bool) (operator : BinaryOperator)
    (unguarded : Expr) (left right : Operand) : Naming Lowered :=
  if collapse && agreesWhenCollapsed operator left right then
    return .proven unguarded
  else
    match unguarded with
    | .binary _ targetOperator _ => do
        let (guards, leftExpr, rightExpr) ← guardOperands left right
        let tests := orderGuards guards
        let tests :=
          if lastTestIsSuperfluous collapse operator left right then
            tests.dropLast
          else
            tests
        let compared := Expr.binary leftExpr targetOperator rightExpr
        match joinTests? tests with
        | none => return .plain compared
        | some test =>
            if collapse then
              return .proven (test.and compared)
            else
              return .plain (.conditional test compared site.nullableNull)
    | _ => return .plain unguarded

end Site

end BasicLowering.Lowering
