import BasicLowering.Proofs.Semantics.Value
import BasicLowering.Target.Expr
import Mathlib.Algebra.Order.Group.Multiset
import Mathlib.Logic.Function.Basic

/-!
# Evaluating target expressions

The state of a program holds whatever an evaluation can read and change: the
variables, the fields, and what has happened so far. What an expression does
that is not made of logical operators, comparisons and patterns, such as a call,
is left to the program.

Names of captures are apart from the state. They are bound by patterns while an
expression is evaluated, and a name that is not bound yet cannot be read.
Evaluation fails where the language would refuse the expression or throw: on an
operand of `&&` that is null, on `.Value` of null, on a name without a value.
-/

namespace BasicLowering.Target

open Semantics

/-- What a program makes of its states: the values of the variables, and what
calls and other expressions do. -/
structure Environment (State : Type) where
  read : State → String → Option Value
  perform : State → Expr → Option (Value × State)

/-- The values of the captures, and the state of the program. -/
structure Store (State : Type) where
  bindings : String → Option Value
  state : State

variable {State : Type}

/-- Give a name a value. -/
def Store.bind (store : Store State) (name : String) (value : Value) :
    Store State :=
  { store with bindings := Function.update store.bindings name (some value) }

/-- Whether a pattern asks for a type. -/
def Pattern.asksForType : Pattern → Bool
  | .type _ => true
  | .not inner => inner.asksForType
  | _ => false

/-- Match a value against a pattern that asks for no type. -/
def Pattern.run :
    Pattern → Value → Store State → Option (Bool × Store State)
  | .anything name, value, store => some (true, store.bind name value)
  | .notNull none, value, store => some (value != .null, store)
  | .notNull (some name), value, store =>
      if value = .null then some (false, store)
      else some (true, store.bind name value)
  | .null, value, store => some (value == .null, store)
  | .type _, _, _ => none
  | .not inner, value, store =>
      (inner.run value store).map fun (holds, store) => (!holds, store)

namespace BinaryOperator

/-- Whether an operator computes with its operands. -/
def isArithmetic : BinaryOperator → Bool
  | .exclusiveOr | .add | .subtract | .multiply | .divide | .modulo => true
  | _ => false

/-- Whether the left operand alone decides. -/
def decides : BinaryOperator → Value → Bool
  | .logicalAnd, left => left == .boolean false
  | .logicalOr, left => left == .boolean true
  | _, _ => false

/-- What a comparison asks of two numbers. -/
def holds : BinaryOperator → Int → Int → Bool
  | .less, left, right => left < right
  | .lessOrEqual, left, right => left ≤ right
  | .greater, left, right => right < left
  | .greaterOrEqual, left, right => right ≤ left
  | _, _, _ => false

/-- The value of an operator where both operands are evaluated. Only `&`, `|`
and the comparisons take null; an ordering with null is false. -/
def result? : BinaryOperator → Value → Value → Option Value
  | .logicalAnd, .boolean true, .boolean right => some (.boolean right)
  | .logicalOr, .boolean false, .boolean right => some (.boolean right)
  | .bitAnd, left, right =>
      if left.isLogical && right.isLogical then some (left.conj right) else none
  | .bitOr, left, right =>
      if left.isLogical && right.isLogical then some (left.disj right) else none
  | .equal, left, right => some (.boolean (left == right))
  | .notEqual, left, right => some (.boolean (left != right))
  | .less, left, right => order .less left right
  | .lessOrEqual, left, right => order .lessOrEqual left right
  | .greater, left, right => order .greater left right
  | .greaterOrEqual, left, right => order .greaterOrEqual left right
  | _, _, _ => none
where
  /-- An ordering of two numbers, either of which may be null. -/
  order (operator : BinaryOperator) : Value → Value → Option Value
    | .integer left, .integer right =>
        some (.boolean (operator.holds left right))
    | .null, .integer _ | .integer _, .null | .null, .null =>
        some (.boolean false)
    | _, _ => none

end BinaryOperator

/-- Evaluate what is left to the program. -/
def Environment.run (environment : Environment State) (expr : Expr)
    (store : Store State) : Option (Value × Store State) :=
  (environment.perform store.state expr).map fun (value, state) =>
    (value, { store with state })

/-- Evaluate an expression. A variable hides a capture of the same name. -/
@[simp] def Expr.run (environment : Environment State) :
    Expr → Store State → Option (Value × Store State)
  | .identifier text, store =>
      ((environment.read store.state text).or (store.bindings text)).map
        (·, store)
  | .null, store => some (.null, store)
  | .boolean value, store => some (.boolean value, store)
  | .number text, store => some (.integer (numeral text), store)
  | .member operand name, store =>
      if name = "HasValue" then
        (operand.run environment store).map fun (value, store) =>
          (.boolean (value != .null), store)
      else if name = "Value" then
        (operand.run environment store).filter (·.1 ≠ .null)
      else environment.run (.member operand name) store
  | .binary left operator right, store =>
      if operator.isArithmetic then
        environment.run (.binary left operator right) store
      else do
        let (leftValue, store) ← left.run environment store
        if operator.decides leftValue then some (leftValue, store)
        else do
          let (rightValue, store) ← right.run environment store
          let value ← operator.result? leftValue rightValue
          some (value, store)
  | .unary .logicalNot operand, store => do
      let (value, store) ← operand.run environment store
      if value.isLogical then some (value.negate, store) else none
  | .conditional condition whenTrue whenFalse, store => do
      let (value, store) ← condition.run environment store
      match value with
      | .boolean true => whenTrue.run environment store
      | .boolean false => whenFalse.run environment store
      | _ => none
  | .test operand pattern, store =>
      if pattern.asksForType then
        environment.run (.test operand pattern) store
      else do
        let (value, store) ← operand.run environment store
        let (holds, store) ← pattern.run value store
        some (.boolean holds, store)
  | .cast typeName operand, store =>
      if typeName = "bool?" then
        (operand.run environment store).filter (·.1.isLogical)
      else environment.run (.cast typeName operand) store
  | expr, store => environment.run expr store

end BasicLowering.Target
