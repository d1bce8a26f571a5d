import BasicLowering.Source.Operator

/-!
# Values and three-valued operators

Both languages compute with Booleans, integers and null. The source language
lets null pass through its operators: a comparison with null is null, and a
logical operator is null where its operands do not decide it.

An operator that short-circuits leaves its right operand out when the left one
decides. Evaluating an expression therefore gives a value together with the
events that happened on the way.
-/

namespace BasicLowering.Semantics

open Source (BinaryOperator)

/-- The value of an expression. `Nothing` and `null` are the same value. -/
inductive Value where
  | null
  | boolean (value : Bool)
  | integer (value : Int)
  deriving DecidableEq

namespace Value

/-- Whether a condition with this value holds. Null counts as false. -/
def isTrue (value : Value) : Bool :=
  value == .boolean true

/-- What a value becomes where null is replaced by `False`. -/
def collapse : Value → Value
  | null => boolean false
  | value => value

/-- `Not`, which leaves null as it is. -/
def negate : Value → Value
  | boolean value => boolean !value
  | value => value

/-- `And`: false as soon as one side is. -/
def conj : Value → Value → Value
  | boolean false, _ => boolean false
  | _, boolean false => boolean false
  | boolean true, boolean true => boolean true
  | _, _ => null

/-- `Or`: true as soon as one side is. -/
def disj : Value → Value → Value
  | boolean true, _ => boolean true
  | _, boolean true => boolean true
  | boolean false, boolean false => boolean false
  | _, _ => null

/-- The number by which a value is compared. `True` is minus one. -/
def ordinal? : Value → Option Int
  | null => none
  | boolean true => some (-1)
  | boolean false => some 0
  | integer value => some value

/-- Whether a value is true, false or null. -/
def isLogical : Value → Bool
  | integer _ => false
  | _ => true

/-- Whether a value is a number or null. -/
def isNumeric : Value → Bool
  | boolean _ => false
  | _ => true

/-- A comparison, which is null when one side is. -/
def compare (holds : Int → Int → Bool) (left right : Value) : Value :=
  match left.ordinal?, right.ordinal? with
  | some left, some right => boolean (holds left right)
  | _, _ => null

theorem null_beq (value : Value) : (null == value) = (value == null) := by
  cases value <;> rfl

theorem null_bne (value : Value) : (null != value) = (value != null) := by
  cases value <;> rfl

@[simp] theorem isTrue_null : null.isTrue = false := rfl

@[simp] theorem isTrue_boolean (truth : Bool) :
    (boolean truth).isTrue = truth := by
  cases truth <;> rfl

@[simp] theorem boolean_beq_null (truth : Bool) :
    (boolean truth == null) = false := rfl

@[simp] theorem boolean_beq_false (truth : Bool) :
    (boolean truth == boolean false) = !truth := by
  cases truth <;> rfl

@[simp] theorem isTrue_collapse (value : Value) :
    value.collapse.isTrue = value.isTrue := by
  cases value <;> rfl

/-- A conjunction is true if both sides are. -/
theorem isTrue_conj (left right : Value) :
    (left.conj right).isTrue = (left.isTrue && right.isTrue) := by
  rcases left with _ | (_ | _) | _ <;> rcases right with _ | (_ | _) | _ <;> rfl

/-- A disjunction is true as soon as one side is. -/
theorem isTrue_disj (left right : Value) :
    (left.disj right).isTrue = (left.isTrue || right.isTrue) := by
  rcases left with _ | (_ | _) | _ <;> rcases right with _ | (_ | _) | _ <;> rfl

theorem null_or_boolean {value : Value} (isLogical : value.isLogical = true) :
    value = null ∨ ∃ truth, value = boolean truth := by
  cases value with
  | null => exact .inl rfl
  | boolean truth => exact .inr ⟨truth, rfl⟩
  | integer => cases isLogical

theorem null_or_integer {value : Value} (isNumeric : value.isNumeric = true) :
    value = null ∨ ∃ number, value = integer number := by
  cases value with
  | null => exact .inl rfl
  | boolean => cases isNumeric
  | integer number => exact .inr ⟨number, rfl⟩

/-- A logical value that is not null is true or false. -/
theorem eq_boolean_isTrue {value : Value} (isLogical : value.isLogical = true)
    (notNull : value ≠ null) : value = boolean value.isTrue := by
  obtain rfl | ⟨truth, rfl⟩ := null_or_boolean isLogical
  · exact absurd rfl notNull
  · cases truth <;> rfl

theorem negate_eq_null {value : Value} : value.negate = null ↔ value = null := by
  cases value <;> simp [negate]

/-- `And` by tests of the left operand first. -/
theorem conj_eq_ite {left right : Value} (leftLogical : left.isLogical = true)
    (rightLogical : right.isLogical = true) :
    left.conj right =
      if left == boolean false then boolean false
      else if right == null then null
      else if right.isTrue then left else boolean false := by
  rcases left with _ | (_ | _) | _ <;> rcases right with _ | (_ | _) | _ <;>
    first | rfl | simp [isLogical] at leftLogical rightLogical

/-- `Or` by tests of the left operand first. -/
theorem disj_eq_ite {left right : Value} (leftLogical : left.isLogical = true)
    (rightLogical : right.isLogical = true) :
    left.disj right =
      if left.isTrue then boolean true
      else if right == null then null
      else if right.isTrue then boolean true else left := by
  rcases left with _ | (_ | _) | _ <;> rcases right with _ | (_ | _) | _ <;>
    first | rfl | simp [isLogical] at leftLogical rightLogical

theorem boolean_conj {right : Value} (rightLogical : right.isLogical = true)
    (truth : Bool) :
    (boolean truth).conj right = if truth then right else boolean false := by
  obtain rfl | ⟨rightTruth, rfl⟩ := null_or_boolean rightLogical
  · cases truth <;> rfl
  · cases truth <;> cases rightTruth <;> rfl

theorem boolean_disj {right : Value} (rightLogical : right.isLogical = true)
    (truth : Bool) :
    (boolean truth).disj right = if truth then boolean true else right := by
  obtain rfl | ⟨rightTruth, rfl⟩ := null_or_boolean rightLogical
  · cases truth <;> rfl
  · cases truth <;> cases rightTruth <;> rfl

theorem conj_comm (left right : Value) : left.conj right = right.conj left := by
  rcases left with _ | (_ | _) | _ <;> rcases right with _ | (_ | _) | _ <;> rfl

theorem disj_comm (left right : Value) : left.disj right = right.disj left := by
  rcases left with _ | (_ | _) | _ <;> rcases right with _ | (_ | _) | _ <;> rfl

/-- A conjunction is false as soon as one side is. -/
theorem sides_of_conj_ne_false {left right : Value}
    (notFalse : left.conj right ≠ boolean false) :
    left ≠ boolean false ∧ right ≠ boolean false := by
  constructor <;> rintro rfl
  · exact notFalse rfl
  · exact notFalse (conj_comm left (boolean false))

/-- A disjunction is true as soon as one side is. -/
theorem sides_of_disj_ne_true {left right : Value}
    (notTrue : left.disj right ≠ boolean true) :
    left ≠ boolean true ∧ right ≠ boolean true := by
  constructor <;> rintro rfl
  · exact notTrue rfl
  · exact notTrue (disj_comm left (boolean true))

/-- A conjunction is true if both sides are. -/
theorem side_of_conj_ne_true {left right : Value}
    (notTrue : left.conj right ≠ boolean true) :
    left ≠ boolean true ∨ right ≠ boolean true := by
  by_cases decided : left = boolean true
  · exact .inr fun both => notTrue (by rw [decided, both, conj])
  · exact .inl decided

/-- A disjunction is false if both sides are. -/
theorem side_of_disj_ne_false {left right : Value}
    (notFalse : left.disj right ≠ boolean false) :
    left ≠ boolean false ∨ right ≠ boolean false := by
  by_cases decided : left = boolean false
  · exact .inr fun both => notFalse (by rw [decided, both, disj])
  · exact .inl decided

/-- Collapsing one side of `And` collapses the result, or changes nothing. -/
theorem conj_collapse_left (left right : Value) :
    left.collapse.conj right = left.conj right ∨
      left.collapse.conj right = (left.conj right).collapse := by
  rcases left with _ | (_ | _) | _ <;> rcases right with _ | (_ | _) | _ <;>
    simp [conj, collapse]

/-- Collapsing one side of `Or` collapses the result, or changes nothing. -/
theorem disj_collapse_left (left right : Value) :
    left.collapse.disj right = left.disj right ∨
      left.collapse.disj right = (left.disj right).collapse := by
  rcases left with _ | (_ | _) | _ <;> rcases right with _ | (_ | _) | _ <;>
    simp [disj, collapse]

end Value

/-- The number that the digits of a literal stand for, in both languages. -/
def numeral (text : String) : Int :=
  text.toInt?.getD 0

/-- What the variables of a program and its functions without parameters are
worth. -/
structure World where
  locals : String → Value
  functions : String → Value

/-- What a comparison operator asks of two numbers. Other operators compare
nothing. -/
def holdsFor : BinaryOperator → Int → Int → Bool
  | .equals, left, right => left == right
  | .notEquals, left, right => left != right
  | .lessThan, left, right => left < right
  | .lessThanOrEqual, left, right => left ≤ right
  | .greaterThan, left, right => right < left
  | .greaterThanOrEqual, left, right => right ≤ left
  | _, _, _ => false

/-- The value of a logical operator or of a comparison. `Is` compares with
`Nothing` and is never null. -/
def combine (operator : BinaryOperator) (left right : Value) : Value :=
  match operator with
  | .andAlso | .and => left.conj right
  | .orElse | .or => left.disj right
  | .is => .boolean (left == right)
  | .isNot => .boolean (left != right)
  | operator => Value.compare (holdsFor operator) left right

/-- Whether the values of operands fit an operator: numbers for a comparison and
truth values for the others. -/
def FitOperator (operator : BinaryOperator) (left right : Value) :
    Prop :=
  if operator.isRelational then
    left.isNumeric = true ∧ right.isNumeric = true
  else
    left.isLogical = true ∧ right.isLogical = true

/-- A comparison is true, false or null, and null only if a side is. -/
theorem Value.compare_fits (holds : Int → Int → Bool) (left right : Value) :
    (Value.compare holds left right).isLogical = true ∧
      (Value.compare holds left right = .null →
        left = .null ∨ right = .null) := by
  rcases left with _ | (_ | _) | _ <;> rcases right with _ | (_ | _) | _ <;>
    simp [Value.compare, Value.ordinal?, Value.isLogical]

/-- Where the operands fit, the value of an operator is true, false or null, and
null only if that of an operand is. -/
theorem combine_fits {operator : BinaryOperator} {left right : Value}
    (fit : FitOperator operator left right) :
    (combine operator left right).isLogical = true ∧
      (combine operator left right = .null → left = .null ∨ right = .null) := by
  have logicalCase (isLogical : left.isLogical = true ∧ right.isLogical = true) :
      ((left.conj right).isLogical = true ∧
        (left.conj right = .null → left = .null ∨ right = .null)) ∧
      ((left.disj right).isLogical = true ∧
        (left.disj right = .null → left = .null ∨ right = .null)) := by
    obtain rfl | ⟨leftTruth, rfl⟩ := Value.null_or_boolean isLogical.1 <;>
      obtain rfl | ⟨rightTruth, rfl⟩ := Value.null_or_boolean isLogical.2
    · simp [Value.conj, Value.disj, Value.isLogical]
    · cases rightTruth <;> simp [Value.conj, Value.disj, Value.isLogical]
    · cases leftTruth <;> simp [Value.conj, Value.disj, Value.isLogical]
    · cases leftTruth <;> cases rightTruth <;>
        simp [Value.conj, Value.disj, Value.isLogical]
  cases operator with
  | andAlso | and => exact (logicalCase fit).1
  | orElse | or => exact (logicalCase fit).2
  | is | isNot => exact ⟨rfl, nofun⟩
  | _ => exact Value.compare_fits _ left right

/-- Whether the left operand alone decides, so that the right one is not
evaluated. -/
def skipsRight : BinaryOperator → Value → Bool
  | .andAlso, left => left == .boolean false
  | .orElse, left => left == .boolean true
  | _, _ => false

/-- A null left operand does not decide. -/
@[simp] theorem skipsRight_null (operator : BinaryOperator) :
    skipsRight operator .null = false := by
  cases operator <;> rfl

/-- `False` decides a disjunction as little as null does. -/
@[simp] theorem skipsRight_orElse_collapse (left : Value) :
    skipsRight .orElse left.collapse = skipsRight .orElse left := by
  cases left <;> rfl

/-- What evaluating an expression gives: its value, and what happened. -/
structure Outcome (Event : Type) where
  value : Value
  events : List Event

namespace Outcome

variable {Event : Type}

/-- Evaluate a binary operator on the outcomes of its operands. -/
def binary (operator : BinaryOperator) (left right : Outcome Event) :
    Outcome Event where
  value := combine operator left.value right.value
  events :=
    if skipsRight operator left.value then left.events
    else left.events ++ right.events

/-- Evaluate `Not` on the outcome of its operand. -/
def negation (operand : Outcome Event) : Outcome Event :=
  { operand with value := operand.value.negate }

/-- Evaluate a ternary on the outcomes of its condition and its branches. -/
def ternary (condition whenTrue whenFalse : Outcome Event) :
    Outcome Event where
  value :=
    if condition.value.isTrue then whenTrue.value else whenFalse.value
  events :=
    condition.events ++
      if condition.value.isTrue then whenTrue.events else whenFalse.events

/-- Replace a null value by `False`. -/
def collapse (outcome : Outcome Event) : Outcome Event :=
  { outcome with value := outcome.value.collapse }

/-- Let events happen before an evaluation. -/
def after (earlier : List Event) (outcome : Outcome Event) : Outcome Event :=
  { outcome with events := earlier ++ outcome.events }

end Outcome

end BasicLowering.Semantics
