import BasicLowering.Proofs.Target.Evaluation

/-!
# Rules of evaluation

The state of the program and what is known about the values of names before an
evaluation decide its outcome, and what is known afterwards includes the names
it has bound. Each rule is one way in which an expression is evaluated.
-/

namespace BasicLowering.Target

open Semantics

/-- What is known about the values of names. -/
abbrev Knowledge := String → Option Value

/-- Whether all that is known in one state is known in another. -/
def Knowledge.Within (less more : Knowledge) : Prop :=
  ∀ name value, less name = some value → more name = some value

/-- Whether an expression has a value wherever the program is in a state and
names have the known values. The program ends in another state, and more is
known afterwards. -/
def Yields {State : Type} (environment : Environment State) (known : Knowledge)
    (before : State) (expr : Expr) (value : Value) (after : State)
    (later : Knowledge) : Prop :=
  ∀ bindings, known.Within bindings →
    ∃ bound, later.Within bound ∧
      expr.run environment ⟨bindings, before⟩ = some (value, ⟨bound, after⟩)

namespace Knowledge

theorem Within.refl (known : Knowledge) : known.Within known :=
  fun _ _ isKnown => isKnown

theorem Within.trans {first second third : Knowledge}
    (left : first.Within second) (right : second.Within third) :
    first.Within third :=
  fun name value isKnown => right name value (left name value isKnown)

/-- A name of which nothing is known can be given a value. -/
theorem within_update {known : Knowledge} {name : String}
    (unknown : known name = none) (value : Value) :
    known.Within (Function.update known name (some value)) := by
  intro other otherValue isKnown
  by_cases same : other = name
  · rw [same, unknown] at isKnown
    cases isKnown
  · rw [Function.update_of_ne same]
    exact isKnown

/-- Binding a name adds to what is known. -/
theorem Within.update {known bindings : Knowledge}
    (within : known.Within bindings) (name : String) (value : Value) :
    Within (Function.update known name (some value))
      (Function.update bindings name (some value)) := by
  intro other otherValue isKnown
  by_cases same : other = name
  · subst same
    rwa [Function.update_self] at isKnown ⊢
  · rw [Function.update_of_ne same] at isKnown ⊢
    exact within other otherValue isKnown

end Knowledge

namespace Yields

variable {State : Type} {environment : Environment State}
variable {known between later : Knowledge} {before middle after : State}
variable {left right operand condition whenTrue whenFalse : Expr}
variable {value leftValue rightValue : Value}

/-- Knowledge may be forgotten. -/
theorem forget {less : Knowledge}
    (yields : Yields environment known before operand value after later)
    (within : less.Within later) :
    Yields environment known before operand value after less := by
  intro bindings satisfied
  obtain ⟨bound, holds, ran⟩ := yields bindings satisfied
  exact ⟨bound, within.trans holds, ran⟩

/-- The value and the state may be given in another form. -/
theorem of_eq {other : Value} {otherAfter : State}
    (yields : Yields environment known before operand value after later)
    (sameValue : value = other) (sameState : after = otherAfter) :
    Yields environment known before operand other otherAfter later := by
  rwa [← sameValue, ← sameState]

/-- A capture can be read where no variable has its name. -/
theorem identifier {name : String} (isKnown : known name = some value)
    (noVariable : environment.read before name = none) :
    Yields environment known before (.identifier name) value before known := by
  intro bindings satisfied
  refine ⟨bindings, satisfied, ?_⟩
  simp [noVariable, satisfied name value isKnown]

theorem reference {name : String}
    (isVariable : environment.read before name = some value) :
    Yields environment known before (.identifier name) value before known := by
  intro bindings satisfied
  refine ⟨bindings, satisfied, ?_⟩
  simp [isVariable]

theorem null : Yields environment known before .null .null before known :=
  fun bindings satisfied => ⟨bindings, satisfied, rfl⟩

theorem boolean (truth : Bool) :
    Yields environment known before (.boolean truth) (.boolean truth) before
      known :=
  fun bindings satisfied => ⟨bindings, satisfied, rfl⟩

theorem number (text : String) :
    Yields environment known before (.number text) (.integer (numeral text))
      before known :=
  fun bindings satisfied => ⟨bindings, satisfied, rfl⟩

theorem call {callee : Expr} {arguments : List Expr}
    (performed : environment.perform before (.call callee arguments) =
      some (value, after)) :
    Yields environment known before (.call callee arguments) value after
      known := by
  intro bindings satisfied
  refine ⟨bindings, satisfied, ?_⟩
  simp [Environment.run, performed]

/-- A left operand that decides is the value. -/
theorem decided {operator : BinaryOperator}
    (decides : operator.decides leftValue = true)
    (leftYields : Yields environment known before left leftValue after later) :
    Yields environment known before (.binary left operator right) leftValue
      after later := by
  have notArithmetic : operator.isArithmetic = false := by
    cases operator <;> first | rfl | cases decides
  intro bindings satisfied
  obtain ⟨bound, holds, ran⟩ := leftYields bindings satisfied
  refine ⟨bound, holds, ?_⟩
  simp [notArithmetic, ran, decides]

/-- Otherwise both operands are evaluated. -/
theorem binary {operator : BinaryOperator}
    (undecided : operator.decides leftValue = false)
    (applies : operator.result? leftValue rightValue = some value)
    (leftYields : Yields environment known before left leftValue middle between)
    (rightYields : Yields environment between middle right rightValue after
      later) :
    Yields environment known before (.binary left operator right) value after
      later := by
  have notArithmetic : operator.isArithmetic = false := by
    cases operator <;> first | rfl | cases applies
  intro bindings satisfied
  obtain ⟨leftBound, holds, leftRan⟩ := leftYields bindings satisfied
  obtain ⟨bound, holdsLater, rightRan⟩ := rightYields leftBound holds
  refine ⟨bound, holdsLater, ?_⟩
  simp [notArithmetic, leftRan, undecided, rightRan, applies]

theorem negate (isLogical : value.isLogical = true)
    (yields : Yields environment known before operand value after later) :
    Yields environment known before operand.negate value.negate after later := by
  intro bindings satisfied
  obtain ⟨bound, holds, ran⟩ := yields bindings satisfied
  refine ⟨bound, holds, ?_⟩
  simp [Expr.negate, ran, isLogical]

theorem hasValue
    (yields : Yields environment known before operand value after later) :
    Yields environment known before operand.hasValue (.boolean (value != .null))
      after later := by
  intro bindings satisfied
  obtain ⟨bound, holds, ran⟩ := yields bindings satisfied
  refine ⟨bound, holds, ?_⟩
  simp [Expr.hasValue, ran]

theorem getValue (notNull : value ≠ .null)
    (yields : Yields environment known before operand value after later) :
    Yields environment known before operand.getValue value after later := by
  intro bindings satisfied
  obtain ⟨bound, holds, ran⟩ := yields bindings satisfied
  refine ⟨bound, holds, ?_⟩
  simp [Expr.getValue, ran, notNull]

/-- `operand == true` -/
theorem equalsTrue
    (yields : Yields environment known before operand value after later) :
    Yields environment known before operand.equalsTrue (.boolean value.isTrue)
      after later :=
  binary rfl rfl yields (boolean true)

/-- `operand == false` -/
theorem equalsFalse
    (yields : Yields environment known before operand value after later) :
    Yields environment known before operand.equalsFalse
      (.boolean (value == .boolean false)) after later :=
  binary rfl rfl yields (boolean false)

/-- `!operand.HasValue` -/
theorem hasNoValue
    (yields : Yields environment known before operand value after later) :
    Yields environment known before operand.hasNoValue
      (.boolean (value == .null)) after later := by
  have negated := negate rfl yields.hasValue
  rwa [Value.negate, bne, Bool.not_not] at negated

/-- `left && right`, where the right operand is evaluated if the left one is
true. -/
theorem and {leftTruth rightTruth : Bool}
    (leftYields : Yields environment known before left (.boolean leftTruth)
      middle later)
    (rightYields : leftTruth = true →
      Yields environment later middle right (.boolean rightTruth) after later) :
    Yields environment known before (left.and right)
      (.boolean (leftTruth && rightTruth)) (if leftTruth then after else middle)
      later := by
  cases leftTruth with
  | false => exact decided rfl leftYields
  | true => exact binary rfl rfl leftYields (rightYields rfl)

/-- `left || right`, where the right operand is evaluated if the left one is
false. -/
theorem or {leftTruth rightTruth : Bool}
    (leftYields : Yields environment known before left (.boolean leftTruth)
      middle later)
    (rightYields : leftTruth = false →
      Yields environment later middle right (.boolean rightTruth) after later) :
    Yields environment known before (left.or right)
      (.boolean (leftTruth || rightTruth)) (if leftTruth then middle else after)
      later := by
  cases leftTruth with
  | false => exact binary rfl rfl leftYields (rightYields rfl)
  | true => exact decided rfl leftYields

/-- `condition ? whenTrue : whenFalse`, of which one branch is evaluated. -/
theorem conditional {truth : Bool} {trueValue falseValue : Value}
    {afterTrue afterFalse : State}
    (test : Yields environment known before condition (.boolean truth) middle
      between)
    (trueBranch : truth = true →
      Yields environment between middle whenTrue trueValue afterTrue later)
    (falseBranch : truth = false →
      Yields environment between middle whenFalse falseValue afterFalse later) :
    Yields environment known before (.conditional condition whenTrue whenFalse)
      (if truth then trueValue else falseValue)
      (if truth then afterTrue else afterFalse) later := by
  intro bindings satisfied
  obtain ⟨testBound, holds, testRan⟩ := test bindings satisfied
  cases truth with
  | false =>
      obtain ⟨bound, holdsLater, ran⟩ := falseBranch rfl testBound holds
      exact ⟨bound, holdsLater, by simp [testRan, ran]⟩
  | true =>
      obtain ⟨bound, holdsLater, ran⟩ := trueBranch rfl testBound holds
      exact ⟨bound, holdsLater, by simp [testRan, ran]⟩

/-- A conditional of which the first branch is taken. -/
theorem conditional_of_true
    (test : Yields environment known before condition (.boolean true) middle
      between)
    (branch : Yields environment between middle whenTrue value after later) :
    Yields environment known before (.conditional condition whenTrue whenFalse)
      value after later := by
  intro bindings satisfied
  obtain ⟨testBound, holds, testRan⟩ := test bindings satisfied
  obtain ⟨bound, holdsLater, ran⟩ := branch testBound holds
  exact ⟨bound, holdsLater, by simp [testRan, ran]⟩

/-- A conditional of which the second branch is taken. -/
theorem conditional_of_false
    (test : Yields environment known before condition (.boolean false) middle
      between)
    (branch : Yields environment between middle whenFalse value after later) :
    Yields environment known before (.conditional condition whenTrue whenFalse)
      value after later := by
  intro bindings satisfied
  obtain ⟨testBound, holds, testRan⟩ := test bindings satisfied
  obtain ⟨bound, holdsLater, ran⟩ := branch testBound holds
  exact ⟨bound, holdsLater, by simp [testRan, ran]⟩

/-! ## Patterns -/

/-- `operand is var name` -/
theorem test_anything (name : String)
    (yields : Yields environment known before operand value after later) :
    Yields environment known before (.test operand (.anything name))
      (.boolean true) after (Function.update later name (some value)) := by
  intro bindings satisfied
  obtain ⟨bound, holds, ran⟩ := yields bindings satisfied
  refine ⟨_, holds.update name value, ?_⟩
  simp [Pattern.asksForType, ran, Pattern.run, Store.bind]

/-- `operand is { } name` where the operand has a value. -/
theorem test_notNull (name : String) (notNull : value ≠ .null)
    (yields : Yields environment known before operand value after later) :
    Yields environment known before (.test operand (.notNull name))
      (.boolean true) after (Function.update later name (some value)) := by
  intro bindings satisfied
  obtain ⟨bound, holds, ran⟩ := yields bindings satisfied
  refine ⟨_, holds.update name value, ?_⟩
  simp [Pattern.asksForType, ran, Pattern.run, Store.bind, notNull]

/-- `operand is { } name` where the operand is null. -/
theorem test_notNull_null (name : String)
    (yields : Yields environment known before operand .null after later) :
    Yields environment known before (.test operand (.notNull name))
      (.boolean false) after later := by
  intro bindings satisfied
  obtain ⟨bound, holds, ran⟩ := yields bindings satisfied
  refine ⟨bound, holds, ?_⟩
  simp [Pattern.asksForType, ran, Pattern.run]

/-- `operand is not { } name` where the operand has a value. -/
theorem test_missing (name : String) (notNull : value ≠ .null)
    (yields : Yields environment known before operand value after later) :
    Yields environment known before (.test operand (.not (.notNull name)))
      (.boolean false) after (Function.update later name (some value)) := by
  intro bindings satisfied
  obtain ⟨bound, holds, ran⟩ := yields bindings satisfied
  refine ⟨_, holds.update name value, ?_⟩
  simp [Pattern.asksForType, ran, Pattern.run, Store.bind, notNull]

/-- `operand is not { } name` where the operand is null. -/
theorem test_missing_null (name : String)
    (yields : Yields environment known before operand .null after later) :
    Yields environment known before (.test operand (.not (.notNull name)))
      (.boolean true) after later := by
  intro bindings satisfied
  obtain ⟨bound, holds, ran⟩ := yields bindings satisfied
  refine ⟨bound, holds, ?_⟩
  simp [Pattern.asksForType, ran, Pattern.run]

theorem cast (isLogical : value.isLogical = true)
    (yields : Yields environment known before operand value after later) :
    Yields environment known before (.cast "bool?" operand) value after
      later := by
  intro bindings satisfied
  obtain ⟨bound, holds, ran⟩ := yields bindings satisfied
  refine ⟨bound, holds, ?_⟩
  simp [ran, isLogical]

end Yields

end BasicLowering.Target
