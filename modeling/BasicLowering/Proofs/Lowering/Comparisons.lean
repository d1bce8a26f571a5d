import BasicLowering.Lowering.Conversion
import BasicLowering.Proofs.Lowering.Denotation

/-!
# The template of comparisons

The tests in front of a comparison run one after another until one of them is
false. When all of them are true, both operands have values and can be read from
the state that the program is in by then. The order of the tests makes sure that
both operands have been evaluated, whichever test is false.

A right operand that is captured is evaluated before the left one.
-/

namespace BasicLowering.Lowering

open Semantics Target

/-! ## Tests in a row -/

/-- How tests run one after another from a state: whether they all hold, and the
state that the first one that does not, or else the last one, leaves behind.
What is known afterwards is good if they all hold. -/
inductive Runs {State : Type} (environment : Environment State)
    (good : State → Knowledge → Prop) :
    State → Knowledge → List Expr → Bool → State → Prop where
  | done {state : State} {known : Knowledge} (isGood : good state known) :
      Runs environment good state known [] true state
  | stop {before after : State} {known later : Knowledge} {test : Expr}
      {rest : List Expr} (within : known.Within later)
      (yields :
        Yields environment known before test (.boolean false) after later) :
      Runs environment good before known (test :: rest) false after
  | next {before middle after : State} {known later : Knowledge} {test : Expr}
      {rest : List Expr} {truth : Bool} (within : known.Within later)
      (yields :
        Yields environment known before test (.boolean true) middle later)
      (runs : Runs environment good middle later rest truth after) :
      Runs environment good before known (test :: rest) truth after

section

variable {State : Type} {environment : Environment State}
variable {good : State → Knowledge → Prop} {before middle after : State}
variable {known between : Knowledge} {first test : Expr} {rest : List Expr}
variable {truth : Bool}

/-- Tests that are joined to a false one do not run. -/
theorem yields_foldl_of_false
    (yields : Yields environment known before first (.boolean false) after
      between) :
    Yields environment known before (rest.foldl Expr.and first) (.boolean false)
      after between := by
  induction rest generalizing first with
  | nil => exact yields
  | cons test rest ih => exact ih (.decided rfl yields)

/-- Tests that are joined to a true one run one after another. -/
theorem Runs.yields_foldl
    (runs : Runs environment good middle between rest truth after)
    (within : known.Within between)
    (yields : Yields environment known before first (.boolean true) middle
      between) :
    ∃ later, known.Within later ∧
      Yields environment known before (rest.foldl Expr.and first)
        (.boolean truth) after later ∧
      (truth = true → good after later) := by
  induction runs generalizing first with
  | @done state between isGood =>
      exact ⟨between, within, yields, fun _ => isGood⟩
  | @stop middle after between later test rest laterWithin testYields =>
      have joined : Yields environment known before (first.and test)
          (.boolean false) after later := .binary rfl rfl yields testYields
      refine ⟨later, within.trans laterWithin, ?_, nofun⟩
      rw [List.foldl_cons]
      exact yields_foldl_of_false joined
  | next laterWithin testYields _ ih =>
      exact ih (within.trans laterWithin) (.binary rfl rfl yields testYields)

/-- The tests joined by `&&`. -/
theorem Runs.yields_joined {tests : List Expr} {joined : Expr}
    (runs : Runs environment good before known tests truth after)
    (isJoined : joinTests? tests = some joined) :
    ∃ later, known.Within later ∧
      Yields environment known before joined (.boolean truth) after later ∧
      (truth = true → good after later) := by
  cases runs with
  | done => cases isJoined
  | @stop _ _ _ later _ _ within yields =>
      cases isJoined
      exact ⟨later, within, yields_foldl_of_false yields, nofun⟩
  | next within yields runs =>
      cases isJoined
      exact runs.yields_foldl within yields

/-- Without tests all is good at once. -/
theorem Runs.of_not_joined {tests : List Expr}
    (runs : Runs environment good before known tests truth after)
    (notJoined : joinTests? tests = none) :
    truth = true ∧ after = before ∧ good before known := by
  cases runs with
  | done isGood => exact ⟨rfl, rfl, isGood⟩
  | stop | next => cases notJoined

variable {expr : Expr} {value : Value}

/-- The test that an operand has a value, in front of further tests. -/
theorem Runs.hasValue
    (yields : Yields environment known before expr value before known)
    (runs : value ≠ .null →
      Runs environment good before known rest truth before) :
    Runs environment good before known (expr.hasValue :: rest)
      (value != .null && truth) before := by
  have tests := yields.hasValue
  by_cases missing : value = .null
  · subst missing
    exact .stop (.refl known) tests
  · rw [bne_iff_ne.mpr missing] at tests ⊢
    rw [Bool.true_and]
    exact .next (.refl known) tests (runs missing)

/-- A capture of an operand that has a value, in front of further tests. -/
theorem Runs.capture {later : Knowledge} (within : known.Within later)
    (yields : Yields environment known before test (.boolean (value != .null))
      after later)
    (runs : value ≠ .null →
      Runs environment good after later rest truth after) :
    Runs environment good before known (test :: rest) (value != .null && truth)
      after := by
  by_cases missing : value = .null
  · subst missing
    exact .stop within yields
  · rw [bne_iff_ne.mpr missing] at yields ⊢
    rw [Bool.true_and]
    exact .next within yields (runs missing)

/-- What is good may be better. -/
theorem Runs.mono {better : State → Knowledge → Prop} {tests : List Expr}
    (runs : Runs environment good before known tests truth after)
    (implies : ∀ state known, good state known → better state known) :
    Runs environment better before known tests truth after := by
  induction runs with
  | done isGood => exact .done (implies _ _ isGood)
  | stop within yields => exact .stop within yields
  | next within yields _ ih => exact .next within yields ih

end

/-- The test of an operand that can be evaluated again, if one is needed. -/
def optionalTests (operand : Operand) : List Expr :=
  if operand.mayBeNull then [operand.expr.hasValue] else []

theorem guardOperand_of_reusable {operand : Operand}
    (reusable : operand.isReusable = true) :
    guardOperand operand =
      return ((optionalTests operand).map (⟨false, ·⟩), operand.expr) := by
  unfold guardOperand optionalTests
  rw [if_pos reusable]
  split <;> rfl

/-- The tests of an operand that can be evaluated again, in front of further
tests. -/
theorem runs_optionalTests {State : Type} {environment : Environment State}
    {good : State → Knowledge → Prop} {state : State} {known : Knowledge}
    {operand : Operand} {value : Value} {rest : List Expr} {truth : Bool}
    (notNull : operand.mayBeNull = false → value ≠ .null)
    (yields : Yields environment known state operand.expr value state known)
    (runs : value ≠ .null →
      Runs environment good state known rest truth state) :
    Runs environment good state known (optionalTests operand ++ rest)
      (value != .null && truth) state := by
  unfold optionalTests
  split
  · exact .hasValue yields runs
  · next present =>
      have hasValue := notNull (Bool.eq_false_of_not_eq_true present)
      rw [bne_iff_ne.mpr hasValue, Bool.true_and]
      exact runs hasValue

theorem guardOperand_of_not_reusable {operand : Operand}
    (notReusable : operand.isReusable = false) :
    guardOperand operand = do
      let captured ← captureValue operand.expr
      return ([⟨true, captured.test⟩], captured.value) := by
  unfold guardOperand
  rw [if_neg (Bool.eq_false_iff.mp notReusable)]

/-- Tests that are not mandatory keep their order. -/
@[simp] theorem orderGuards_optional (tests : List Expr) :
    orderGuards (tests.map (⟨false, ·⟩)) = tests := by
  simp [orderGuards, List.filter_map, Function.comp_def]

/-- A mandatory test runs first. -/
@[simp] theorem orderGuards_cons (test : Expr) (guards : List Guard) :
    orderGuards (⟨true, test⟩ :: guards) = test :: orderGuards guards := by
  simp [orderGuards]

/-- A mandatory test runs before those in front of it that are not. -/
@[simp] theorem orderGuards_concat (tests : List Expr) (test : Expr) :
    orderGuards (tests.map (⟨false, ·⟩) ++ [⟨true, test⟩]) = test :: tests := by
  simp [orderGuards, List.filter_map, Function.comp_def]

/-- Every guard is put in order. -/
theorem mem_orderGuards {guards : List Guard} {test : Expr}
    (member : test ∈ orderGuards guards) : ∃ guard ∈ guards, guard.test = test := by
  simp only [orderGuards, List.map_append, List.mem_append, List.mem_map,
    List.mem_filter] at member
  rcases member with ⟨guard, ⟨isGuard, -⟩, isTest⟩ | ⟨guard, ⟨isGuard, -⟩, isTest⟩ <;>
    exact ⟨guard, isGuard, isTest⟩

@[simp] theorem length_orderGuards (guards : List Guard) :
    (orderGuards guards).length = guards.length := by
  rw [orderGuards, List.length_map, List.length_append,
    ← List.length_eq_length_filter_add]

/-- Some test is left in front of a comparison, whether the last one is superfluous or
not. -/
theorem exists_keptTests {guards : List Guard} (collapse : Bool)
    (operator : Source.BinaryOperator) {left right : Operand}
    (mayBeNull : (left.mayBeNull || right.mayBeNull) = true)
    (many : left.mayBeNull.toNat + right.mayBeNull.toNat ≤ guards.length) :
    ∃ first rest,
      (if lastTestIsSuperfluous collapse operator left right = true then
        (orderGuards guards).dropLast else orderGuards guards) = first :: rest ∧
      first :: rest ⊆ orderGuards guards := by
  rw [← length_orderGuards] at many
  split
  · next superfluous =>
      simp only [lastTestIsSuperfluous, Bool.and_eq_true] at superfluous
      rw [superfluous.1.2, superfluous.2] at many
      have some : (orderGuards guards).dropLast ≠ [] := by
        apply List.ne_nil_of_length_pos
        rw [List.length_dropLast]
        exact Nat.sub_pos_of_lt many
      obtain ⟨first, rest, isKept⟩ := List.exists_cons_of_ne_nil some
      exact ⟨first, rest, isKept, isKept ▸ List.dropLast_subset _⟩
  · have some : orderGuards guards ≠ [] := by
      apply List.ne_nil_of_length_pos
      rcases Bool.or_eq_true_iff.mp mayBeNull with isTrue | isTrue <;>
        rw [isTrue, Bool.toNat_true] at many <;> omega
    obtain ⟨first, rest, isKept⟩ := List.exists_cons_of_ne_nil some
    exact ⟨first, rest, isKept, isKept ▸ List.Subset.refl _⟩

/-! The guards of both operands, by which of them have to be captured. -/

section

variable {left right : Operand}

theorem guardOperands_of_reusable (leftReusable : left.isReusable = true)
    (rightReusable : right.isReusable = true) :
    guardOperands left right =
      return ((optionalTests left ++ optionalTests right).map (⟨false, ·⟩),
        left.expr, right.expr) := by
  simp only [guardOperands, leftReusable, Bool.not_true, Bool.false_and,
    Bool.false_eq_true, if_false, pure_bind, guardOperand_of_reusable leftReusable,
    guardOperand_of_reusable rightReusable, List.nil_append, List.map_append]

theorem guardOperands_of_rightCaptured (leftReusable : left.isReusable = true)
    (rightCaptured : right.isReusable = false) :
    guardOperands left right = do
      let captured ← captureValue right.expr
      return ((optionalTests left).map (⟨false, ·⟩) ++ [⟨true, captured.test⟩],
        left.expr, captured.value) := by
  simp only [guardOperands, leftReusable, Bool.not_true, Bool.false_and,
    Bool.false_eq_true, if_false, pure_bind, bind_assoc, List.nil_append,
    guardOperand_of_reusable leftReusable, guardOperand_of_not_reusable rightCaptured]

theorem guardOperands_of_leftCaptured (leftCaptured : left.isReusable = false)
    (rightReusable : right.isReusable = true) :
    guardOperands left right = do
      let captured ← captureValue left.expr
      return (⟨true, captured.test⟩ :: (optionalTests right).map (⟨false, ·⟩),
        captured.value, right.expr) := by
  simp only [guardOperands, rightReusable, Bool.not_true, Bool.and_false,
    Bool.false_eq_true, if_false, pure_bind, bind_assoc, List.nil_append,
    List.singleton_append, guardOperand_of_reusable rightReusable,
    guardOperand_of_not_reusable leftCaptured]

theorem guardOperands_of_bothCaptured (leftCaptured : left.isReusable = false)
    (rightCaptured : right.isReusable = false) :
    guardOperands left right = do
      let rightCapture ← captureAny right.expr
      let leftCapture ← captureValue left.expr
      let again : Operand :=
        { right with expr := rightCapture.value, isReusable := true }
      return (⟨true, rightCapture.test⟩ :: ⟨true, leftCapture.test⟩ ::
          (optionalTests again).map (⟨false, ·⟩),
        leftCapture.value, rightCapture.value) := by
  simp only [guardOperands, leftCaptured, rightCaptured, Bool.not_false, Bool.and_self,
    if_true, pure_bind, bind_assoc, List.cons_append, List.nil_append,
    guardOperand_of_not_reusable leftCaptured, guardOperand_of_reusable]

end

/-- Whether a comparison evaluates its right operand before the left one: where
a guard captures it. -/
def runsRightFirst (collapse : Bool) (operator : Source.BinaryOperator)
    (left right : Operand) : Bool :=
  operator.isRelational && !(collapse && agreesWhenCollapsed operator left right) &&
    !right.isReusable

/-- Whether one operand runs after the other, from one state to another. -/
def InTurn {State : Type} (leftCourse rightCourse : Course State) (rightFirst : Bool)
    (before after : State) : Prop :=
  if rightFirst then
    rightCourse.before = before ∧ leftCourse.before = rightCourse.after ∧
      leftCourse.after = after
  else
    leftCourse.before = before ∧ rightCourse.before = leftCourse.after ∧
      rightCourse.after = after

namespace Scene.Sides

variable {State : Type} {scene : Scene State} {low middle high : Nat}
variable {left right : Operand} {leftCourse rightCourse : Course State}
variable {before after : State}

/-- Whether both operands of a comparison can be read from a state, and leave it
as it is. -/
def BothRead (scene : Scene State) (leftValue rightValue : Value)
    (leftExpr rightExpr : Expr) (state : State) (known : Knowledge) : Prop :=
  Yields scene.environment known state leftExpr leftValue state known ∧
    Yields scene.environment known state rightExpr rightValue state known

/-- What the tests in front of a comparison do. Of two operands that may be
null, one has a value even if the last test is left out. -/
structure Guarded (scene : Scene State) (left right : Operand)
    (leftValue rightValue : Value) (before after : State)
    (tests : List Expr) (leftExpr rightExpr : Expr) (known : Knowledge) :
    Prop where
  all : Runs scene.environment
    (BothRead scene leftValue rightValue leftExpr rightExpr) before known tests
    (leftValue != .null && rightValue != .null) after
  butLast : left.mayBeNull = true → right.mayBeNull = true →
    ∃ truth, (truth = (leftValue != .null) ∨ truth = (rightValue != .null)) ∧
      Runs scene.environment
        (BothRead scene leftValue rightValue leftExpr rightExpr) before known
        tests.dropLast truth after

/-- The operands of a comparison may be named the other way round. -/
theorem Guarded.symm {leftValue rightValue : Value} {tests : List Expr}
    {leftExpr rightExpr : Expr} {known : Knowledge}
    (guarded : Guarded scene left right leftValue rightValue before after tests
      leftExpr rightExpr known) :
    Guarded scene right left rightValue leftValue before after tests rightExpr
      leftExpr known where
  all := by
    rw [Bool.and_comm]
    exact guarded.all.mono fun _ _ => And.symm
  butLast rightMayBeNull leftMayBeNull := by
    obtain ⟨truth, isOne, runs⟩ :=
      guarded.butLast leftMayBeNull rightMayBeNull
    exact ⟨truth, isOne.symm, runs.mono fun _ _ => And.symm⟩

/-- One operand is captured, and the other one can be evaluated once this is
done. -/
theorem guarded_of_captured {captured other : Operand} {value otherValue : Value}
    {capture : Capture} {known later : Knowledge} (within : known.Within later)
    (test : Yields scene.environment known before capture.test
      (.boolean (value != .null)) after later)
    (again : value ≠ .null →
      Yields scene.environment later after capture.value value after later)
    (otherYields :
      Yields scene.environment later after other.expr otherValue after later)
    (otherNotNull : other.mayBeNull = false → otherValue ≠ .null) :
    Guarded scene captured other value otherValue before after
      (capture.test :: optionalTests other) capture.value other.expr known where
  all := by
    apply Runs.capture within test
    intro notNull
    have both : BothRead scene value otherValue capture.value other.expr after
        later :=
      ⟨again notNull, otherYields⟩
    have otherRuns := runs_optionalTests otherNotNull otherYields
      fun _ => .done both
    rwa [List.append_nil, Bool.and_true] at otherRuns
  butLast _ otherMayBeNull := by
    refine ⟨value != .null, .inl rfl, ?_⟩
    simp only [optionalTests, otherMayBeNull]
    rw [← Bool.and_true (value != .null)]
    exact .capture within test fun notNull =>
      .done ⟨again notNull, otherYields⟩

/-- A test that is true may run in front of all the others. -/
theorem Guarded.next {leftValue rightValue : Value} {middle : State}
    {test first : Expr} {tests : List Expr} {leftExpr rightExpr : Expr}
    {known later : Knowledge} (within : known.Within later)
    (yields :
      Yields scene.environment known before test (.boolean true) middle later)
    (guarded : Guarded scene left right leftValue rightValue middle after
      (first :: tests) leftExpr rightExpr later) :
    Guarded scene left right leftValue rightValue before after
      (test :: first :: tests) leftExpr rightExpr known where
  all := .next within yields guarded.all
  butLast leftMayBeNull rightMayBeNull := by
    obtain ⟨truth, isOne, runs⟩ :=
      guarded.butLast leftMayBeNull rightMayBeNull
    exact ⟨truth, isOne, .next within yields runs⟩

variable (sides : scene.Sides low middle high left right leftCourse rightCourse
  True)

include sides

/-- Two operands that can be evaluated again. -/
theorem guarded_of_reusable (link : rightCourse.before = leftCourse.after)
    (leftReusable : left.isReusable = true)
    (rightReusable : right.isReusable = true) {known : Knowledge}
    (opened : scene.IsOpen low high known) :
    Guarded scene left right leftCourse.value rightCourse.value
      leftCourse.before rightCourse.after
      (optionalTests left ++ optionalTests right) left.expr right.expr
      known := by
  have leftYields := sides.leftYields (Nat.le_refl high) opened
  have rightYields := sides.rightYields trivial (Nat.le_refl high) opened
  have rightStill := (sides.right trivial).still rightReusable
  rw [sides.left.still leftReusable] at leftYields link
  rw [rightStill] at rightYields ⊢
  rw [link] at rightYields ⊢
  have both : BothRead scene leftCourse.value rightCourse.value left.expr
      right.expr leftCourse.before known :=
    ⟨leftYields, rightYields⟩
  constructor
  · have rightRuns := runs_optionalTests (sides.right trivial).notNull
      rightYields fun _ => .done both
    rw [List.append_nil, Bool.and_true] at rightRuns
    exact runs_optionalTests sides.left.notNull leftYields fun _ => rightRuns
  · intro leftMayBeNull rightMayBeNull
    refine ⟨leftCourse.value != .null, .inl rfl, ?_⟩
    simp only [optionalTests, leftMayBeNull, rightMayBeNull]
    rw [← Bool.and_true (leftCourse.value != .null)]
    exact .hasValue leftYields fun _ => .done both

/-- Two operands of which the left one is captured. -/
theorem guarded_of_leftCaptured (link : rightCourse.before = leftCourse.after)
    (rightReusable : right.isReusable = true)
    {capture : Capture} {last : Nat}
    (captured : scene.CaptureReads low middle high last capture
      leftCourse.before (leftCourse.value != .null) leftCourse.after
      fun _ again => again = leftCourse.value ∧ again ≠ .null)
    (ordered : high ≤ last) (room : last ≤ high + 2) {known : Knowledge}
    (opened : scene.IsOpen low last known) :
    Guarded scene left right leftCourse.value rightCourse.value
      leftCourse.before rightCourse.after
      (capture.test :: optionalTests right) capture.value right.expr known := by
  obtain ⟨later, adds, stillOpen, test, again⟩ :=
    sides.leftCaptured captured (Nat.le_refl high) ordered (Nat.le_refl last)
      room opened
  have rightYields := sides.rightYields trivial (Nat.le_refl high) stillOpen
  have rightStill := (sides.right trivial).still rightReusable
  rw [rightStill, link] at rightYields
  rw [rightStill, link]
  exact guarded_of_captured adds.within test
    (fun notNull => again _ _ ⟨rfl, notNull⟩ later (.refl later) stillOpen)
    rightYields (sides.right trivial).notNull

/-- Two operands of which the right one is captured. The left one is read once
the right one has run. -/
theorem guarded_of_rightCaptured (link : leftCourse.before = rightCourse.after)
    (leftReusable : left.isReusable = true)
    {capture : Capture} {last : Nat}
    (captured : scene.CaptureReads middle high high last capture
      rightCourse.before (rightCourse.value != .null) rightCourse.after
      fun _ again => again = rightCourse.value ∧ again ≠ .null)
    (ordered : high ≤ last) (room : last ≤ high + 2) {known : Knowledge}
    (opened : scene.IsOpen low last known) :
    Guarded scene left right leftCourse.value rightCourse.value
      rightCourse.before leftCourse.after
      (capture.test :: optionalTests left) left.expr capture.value known := by
  obtain ⟨later, adds, stillOpen, test, again⟩ :=
    sides.rightCaptured captured (Nat.le_refl high) ordered (Nat.le_refl last)
      room opened
  have leftYields := sides.leftYields (Nat.le_refl high) stillOpen
  have leftStill := sides.left.still leftReusable
  rw [leftStill, link] at leftYields
  rw [leftStill, link]
  exact (guarded_of_captured adds.within test
    (fun notNull => again _ _ ⟨rfl, notNull⟩ later (.refl later) stillOpen)
    leftYields sides.left.notNull).symm

/-- Two operands that are both captured, the right one first and whatever its
value. -/
theorem guarded_of_bothCaptured (link : leftCourse.before = rightCourse.after)
    {leftCapture rightCapture : Capture} {count last : Nat}
    (rightCaptured : scene.CaptureReads middle high high count rightCapture
      rightCourse.before true rightCourse.after
      fun _ again => again = rightCourse.value)
    (leftCaptured : scene.CaptureReads low middle count last leftCapture
      leftCourse.before (leftCourse.value != .null) leftCourse.after
      fun _ again => again = leftCourse.value ∧ again ≠ .null)
    (enough : high ≤ count) (ordered : count ≤ last) (room : last ≤ high + 2)
    {known : Knowledge} (opened : scene.IsOpen low last known) :
    Guarded scene left right leftCourse.value rightCourse.value
      rightCourse.before leftCourse.after
      (rightCapture.test :: leftCapture.test ::
        optionalTests { right with expr := rightCapture.value })
      leftCapture.value rightCapture.value known := by
  have above := sides.above
  have below := sides.below
  have limit := sides.bounded
  obtain ⟨between, rightAdds, stillOpen, rightTest, rightAgain⟩ :=
    sides.rightCaptured rightCaptured (Nat.le_refl high) enough ordered
      (by omega) opened
  have leftFree : scene.IsOpen count last between :=
    (opened.narrow (by omega) (Nat.le_refl last)).adds rightAdds
      (.inr (Nat.le_refl count)) (by omega) (by omega)
  obtain ⟨later, leftAdds, leftTest, leftAgain⟩ :=
    leftCaptured between (stillOpen.narrow (Nat.le_refl low) below) leftFree
  rw [link] at leftTest
  have finallyOpen : scene.IsOpen low high later :=
    stillOpen.adds leftAdds (.inl enough) (by omega) (by omega)
  let again : Operand := { right with expr := rightCapture.value }
  have againGuarded : Guarded scene left again leftCourse.value
      rightCourse.value rightCourse.after leftCourse.after
      (leftCapture.test :: optionalTests again) leftCapture.value again.expr
      between :=
    guarded_of_captured leftAdds.within leftTest
      (fun notNull => leftAgain _ _ ⟨rfl, notNull⟩ later (.refl later)
        (finallyOpen.narrow (Nat.le_refl low) below))
      (rightAgain leftCourse.after _ rfl later leftAdds.within finallyOpen)
      (sides.right trivial).notNull
  exact Guarded.next rightAdds.within rightTest
    ⟨againGuarded.all, againGuarded.butLast⟩

/-- The tests in front of a comparison. -/
theorem guardOperands_guarded
    (inTurn : InTurn leftCourse rightCourse (!right.isReusable) before after) :
    scene.start.Issues 2 high (guardOperands left right) fun last guarded =>
      ∀ known, scene.IsOpen low last known →
        Guarded scene left right leftCourse.value rightCourse.value before after
          (orderGuards guarded.1) guarded.2.1 guarded.2.2 known := by
  have limit := sides.bounded
  cases leftReusable : left.isReusable with
  | true =>
      cases rightReusable : right.isReusable with
      | true =>
          rw [rightReusable] at inTurn
          obtain ⟨rfl, link, rfl⟩ := inTurn
          rw [guardOperands_of_reusable leftReusable rightReusable]
          apply CaptureNames.Issues.pure
          intro known opened
          rw [orderGuards_optional]
          exact sides.guarded_of_reusable link leftReusable rightReusable opened
      | false =>
          rw [rightReusable] at inTurn
          obtain ⟨rfl, link, rfl⟩ := inTurn
          rw [guardOperands_of_rightCaptured leftReusable rightReusable]
          refine ((sides.right trivial).denotes.captureValue_reads high).bind ?_
          intro capture last above below captured
          apply CaptureNames.Issues.pure
          intro known opened
          rw [orderGuards_concat]
          exact sides.guarded_of_rightCaptured link leftReusable captured above
            (by omega) opened
  | false =>
      cases rightReusable : right.isReusable with
      | true =>
          rw [rightReusable] at inTurn
          obtain ⟨rfl, link, rfl⟩ := inTurn
          rw [guardOperands_of_leftCaptured leftReusable rightReusable]
          refine (sides.left.denotes.captureValue_reads high).bind ?_
          intro capture last above below captured
          apply CaptureNames.Issues.pure
          intro known opened
          rw [orderGuards_cons, orderGuards_optional]
          exact sides.guarded_of_leftCaptured link rightReusable captured above
            (by omega) opened
      | false =>
          rw [rightReusable] at inTurn
          obtain ⟨rfl, link, rfl⟩ := inTurn
          rw [guardOperands_of_bothCaptured leftReusable rightReusable]
          refine ((sides.right trivial).denotes.captureAny_reads high).bind ?_
          intro rightCapture count aboveHigh belowHigh rightCaptured
          refine (sides.left.denotes.captureValue_reads count).bind ?_
          intro leftCapture last aboveCount belowCount leftCaptured
          apply CaptureNames.Issues.pure
          intro known opened
          rw [orderGuards_cons, orderGuards_cons, orderGuards_optional]
          exact sides.guarded_of_bothCaptured link rightCaptured leftCaptured
            aboveHigh aboveCount (by omega) opened

end Scene.Sides

/-! ## The comparison itself -/

/-- Whether two values can be compared: numbers by every operator, truth values
for equality. -/
def Comparable (operator : Source.BinaryOperator) (left right : Value) : Prop :=
  left.isNumeric = true ∧ right.isNumeric = true ∨
    (operator = .equals ∨ operator = .notEquals) ∧
      left.isLogical = true ∧ right.isLogical = true

/-- Two values that can be compared are compared alike in both languages. -/
theorem exists_compared {operator : Source.BinaryOperator} {left right : Value}
    (relational : operator.isRelational = true)
    (comparable : Comparable operator left right) (leftPresent : left ≠ .null)
    (rightPresent : right ≠ .null) :
    ∃ truth, combine operator left right = .boolean truth ∧
      (convertOperator operator).result? left right =
        some (.boolean truth) := by
  rcases comparable with ⟨leftNumeric, rightNumeric⟩ |
    ⟨equality, leftLogical, rightLogical⟩
  · obtain rfl | ⟨leftNumber, rfl⟩ := Value.null_or_integer leftNumeric
    · exact absurd rfl leftPresent
    obtain rfl | ⟨rightNumber, rfl⟩ := Value.null_or_integer rightNumeric
    · exact absurd rfl rightPresent
    cases operator with
    | equals | notEquals =>
        refine ⟨_, rfl, ?_⟩
        simp [convertOperator, BinaryOperator.result?, holdsFor, bne,
          Bool.beq_eq_decide_eq]
    | lessThan | lessThanOrEqual | greaterThan | greaterThanOrEqual =>
        exact ⟨_, rfl, rfl⟩
    | _ => cases relational
  · obtain rfl | ⟨leftTruth, rfl⟩ := Value.null_or_boolean leftLogical
    · exact absurd rfl leftPresent
    obtain rfl | ⟨rightTruth, rfl⟩ := Value.null_or_boolean rightLogical
    · exact absurd rfl rightPresent
    rcases equality with rfl | rfl <;> cases leftTruth <;> cases rightTruth <;>
      exact ⟨_, rfl, rfl⟩

/-- One side of a comparison never decides it. -/
theorem decides_of_isRelational {operator : Source.BinaryOperator}
    (relational : operator.isRelational = true) (value : Value) :
    (convertOperator operator).decides value = false := by
  cases operator <;> first | rfl | cases relational

/-- A comparison with null is null. -/
theorem combine_of_missing {operator : Source.BinaryOperator}
    {left right : Value} (relational : operator.isRelational = true)
    (oneMissing : left = .null ∨ right = .null) :
    combine operator left right = .null := by
  have isComparison :
      combine operator left right = .compare (holdsFor operator) left right := by
    cases operator <;> first | rfl | cases relational
  rw [isComparison, Value.compare]
  rcases oneMissing with rfl | rfl
  · rfl
  · cases left.ordinal? <;> rfl

/-- With null an ordering does not hold, and an equality only if both sides are
null. -/
theorem result?_convertOperator_null {operator : Source.BinaryOperator}
    {left right : Value} (comparable : Comparable operator left right)
    (oneMissing : left = .null ∨ right = .null)
    (agrees : operator.isOrdering = true ∨
      operator = .equals ∧ (left ≠ .null ∨ right ≠ .null)) :
    (convertOperator operator).result? left right = some (.boolean false) := by
  rcases agrees with ordering | ⟨rfl, onePresent⟩
  · have numeric : left.isNumeric = true ∧ right.isNumeric = true := by
      rcases comparable with numeric | ⟨rfl | rfl, -⟩
      · exact numeric
      all_goals cases ordering
    obtain rfl | ⟨leftNumber, rfl⟩ := Value.null_or_integer numeric.1 <;>
      obtain rfl | ⟨rightNumber, rfl⟩ := Value.null_or_integer numeric.2
    case inr.inr => simp at oneMissing
    all_goals
      cases operator with
      | lessThan | lessThanOrEqual | greaterThan | greaterThanOrEqual => rfl
      | _ => cases ordering
  · have different : (left == right) = false := by
      rw [beq_eq_false_iff_ne]
      rintro rfl
      exact onePresent.elim (absurd (oneMissing.elim id id) ·)
        (absurd (oneMissing.elim id id) ·)
    simp [convertOperator, BinaryOperator.result?, different]

/-- Where null counts as false, both languages agree on an ordering, and on an
equality of which one side is not null. -/
theorem result?_convertOperator_collapsed {operator : Source.BinaryOperator}
    {left right : Value} (comparable : Comparable operator left right)
    (agrees : operator.isOrdering = true ∨
      operator = .equals ∧ (left ≠ .null ∨ right ≠ .null)) :
    (convertOperator operator).result? left right =
      some (.boolean (combine operator left right).isTrue) := by
  have relational : operator.isRelational = true := by
    rcases agrees with ordering | ⟨rfl, -⟩
    · cases operator <;> first | rfl | cases ordering
    · rfl
  by_cases oneMissing : left = .null ∨ right = .null
  · rw [result?_convertOperator_null comparable oneMissing agrees,
      combine_of_missing relational oneMissing, Value.isTrue_null]
  · obtain ⟨leftPresent, rightPresent⟩ := not_or.mp oneMissing
    obtain ⟨truth, isTruth, applies⟩ :=
      exists_compared relational comparable leftPresent rightPresent
    rw [applies, isTruth, Value.isTrue_boolean]

namespace Scene

variable {State : Type} {scene : Scene State} {low middle high : Nat}
variable {left right : Operand} {leftCourse rightCourse : Course State}
variable {before after : State}

namespace Sides

variable (sides : scene.Sides low middle high left right leftCourse rightCourse
  True)
variable {operator : Source.BinaryOperator}

/-- Where both operands have values, the comparison has its value. -/
theorem applies_of_present {leftValue rightValue : Value}
    (relational : operator.isRelational = true)
    (comparable : Comparable operator leftValue rightValue)
    (collapse : Bool) (leftPresent : leftValue ≠ .null)
    (rightPresent : rightValue ≠ .null) :
    (convertOperator operator).result? leftValue rightValue =
      some (outcomeOf collapse operator leftValue rightValue) := by
  obtain ⟨truth, isTruth, applies⟩ :=
    exists_compared relational comparable leftPresent rightPresent
  rw [applies, outcomeOf, isTruth, Value.isTrue_boolean, ite_self]

/-- The tests that are kept in front of a comparison decide it, unless they all
hold. -/
theorem exists_runs (collapse : Bool) {tests : List Expr}
    {leftValue rightValue : Value}
    {leftExpr rightExpr : Expr} {known : Knowledge}
    (relational : operator.isRelational = true)
    (comparable : Comparable operator leftValue rightValue)
    (guarded : Guarded scene left right leftValue rightValue before after tests
      leftExpr rightExpr known) :
    ∃ truth,
      Runs scene.environment
        (BothRead scene leftValue rightValue leftExpr rightExpr) before known
        (if lastTestIsSuperfluous collapse operator left right then
          tests.dropLast else tests) truth after ∧
      (truth = true →
        (convertOperator operator).result? leftValue rightValue =
          some (outcomeOf collapse operator leftValue rightValue)) ∧
      (truth = false → outcomeOf collapse operator leftValue rightValue =
        if collapse then .boolean false else .null) := by
  have missingDecides (oneMissing : leftValue = .null ∨ rightValue = .null) :
      outcomeOf collapse operator leftValue rightValue =
        if collapse then .boolean false else .null := by
    rw [outcomeOf, combine_of_missing relational oneMissing]
    rfl
  split
  -- Without the last test both sides may still be read; an equality is false then if
  -- just one of them is null.
  · next superfluous =>
      simp only [lastTestIsSuperfluous, Bool.and_eq_true, beq_iff_eq]
        at superfluous
      obtain ⟨⟨⟨rfl, rfl⟩, leftMayBeNull⟩, rightMayBeNull⟩ := superfluous
      obtain ⟨truth, isTruth, runs⟩ :=
        guarded.butLast leftMayBeNull rightMayBeNull
      refine ⟨truth, runs, ?_, ?_⟩
      · intro holds
        have onePresent := isTruth.imp
          (fun same => bne_iff_ne.mp (same.symm.trans holds))
          (fun same => bne_iff_ne.mp (same.symm.trans holds))
        exact result?_convertOperator_collapsed comparable
          (.inr ⟨rfl, onePresent⟩)
      · intro fails
        exact missingDecides (isTruth.imp
          (fun same => bne_eq_false_iff_eq.mp (same.symm.trans fails))
          (fun same => bne_eq_false_iff_eq.mp (same.symm.trans fails)))
  · refine ⟨_, guarded.all, ?_, ?_⟩
    · intro holds
      rw [Bool.and_eq_true, bne_iff_ne, bne_iff_ne] at holds
      exact applies_of_present relational comparable collapse holds.1 holds.2
    · intro fails
      apply missingDecides
      rwa [Bool.and_eq_false_iff, bne_eq_false_iff_eq, bne_eq_false_iff_eq]
        at fails

include sides

/-- Where null counts as false, an ordering may stand as it is, and so may an equality
of which at most one side can be null. -/
theorem unguarded_denotes (relational : operator.isRelational = true)
    (comparable : Comparable operator leftCourse.value rightCourse.value)
    (agrees : agreesWhenCollapsed operator left right = true)
    (link : rightCourse.before = leftCourse.after) :
    scene.Denotes low high
      (.binary left.expr (convertOperator operator) right.expr)
      leftCourse.before (outcomeOf true operator leftCourse.value rightCourse.value)
      rightCourse.after := by
  intro known opened
  have rightYields := sides.rightYields trivial (Nat.le_refl high) opened
  rw [link] at rightYields
  refine .binary (decides_of_isRelational relational leftCourse.value) ?_
    (sides.leftYields (Nat.le_refl high) opened) rightYields
  apply result?_convertOperator_collapsed comparable
  simp only [agreesWhenCollapsed, Bool.or_eq_true, Bool.and_eq_true,
    beq_iff_eq, Bool.not_eq_true', Bool.and_eq_false_iff] at agrees
  exact agrees.imp_right fun both =>
    ⟨both.1, both.2.imp sides.left.notNull (sides.right trivial).notNull⟩

/-- A comparison, where null may count as false. -/
theorem comparison_restates (site : Site) (collapse : Bool)
    (relational : operator.isRelational = true)
    (comparable : Comparable operator leftCourse.value rightCourse.value)
    (inTurn : InTurn leftCourse rightCourse
      (runsRightFirst collapse operator left right) before after) :
    scene.start.Issues 2 high
      (site.comparison collapse operator
        (.binary left.expr (convertOperator operator) right.expr) left right)
      fun last lowered =>
        scene.Restates low last lowered before
          (outcomeOf collapse operator leftCourse.value rightCourse.value)
          after := by
  rw [runsRightFirst, relational, Bool.true_and] at inTurn
  unfold Site.comparison
  split
  · next agrees =>
      rw [agrees] at inTurn
      obtain ⟨rfl, link, rfl⟩ := inTurn
      obtain ⟨rfl, agrees⟩ := Bool.and_eq_true_iff.mp agrees
      exact .pure (Denotes.proven
        (sides.unguarded_denotes relational comparable agrees link))
  · next guards =>
    have isGuarded := Bool.eq_false_of_not_eq_true guards
    rw [isGuarded] at inTurn
    refine (sides.guardOperands_guarded inTurn).bind ?_
    rintro ⟨guards, leftExpr, rightExpr⟩ last above below run
    simp only
    have decided (known : Knowledge) (opened : scene.IsOpen low last known) :=
      exists_runs collapse relational comparable (run known opened)
    have compared {known : Knowledge} (applies : (convertOperator operator).result?
          leftCourse.value rightCourse.value =
        some (outcomeOf collapse operator leftCourse.value rightCourse.value))
        (both : BothRead scene leftCourse.value rightCourse.value leftExpr
          rightExpr after known) :
        Yields scene.environment known after
          (.binary leftExpr (convertOperator operator) rightExpr)
          (outcomeOf collapse operator leftCourse.value rightCourse.value) after
          known :=
      .binary (decides_of_isRelational relational leftCourse.value) applies both.1
          both.2
    split
    · next notJoined =>
        apply CaptureNames.Issues.pure
        apply Denotes.plain
        intro known opened
        obtain ⟨truth, runs, applies, -⟩ := decided known opened
        obtain ⟨rfl, rfl, both⟩ := runs.of_not_joined notJoined
        exact compared (applies rfl) both
    · next joined isJoined =>
        split
        · next isCollapsed =>
            subst isCollapsed
            apply CaptureNames.Issues.pure
            apply Denotes.proven
            intro known opened
            obtain ⟨truth, runs, applies, fails⟩ := decided known opened
            obtain ⟨later, within, tests, both⟩ := runs.yields_joined isJoined
            refine ((tests.and fun holds =>
              compared (applies holds) (both holds)).forget within).of_eq ?_ ?_
            · cases truth with
              | false => exact (fails rfl).symm
              | true => rfl
            · rw [ite_self]
        · next notCollapsed =>
            apply CaptureNames.Issues.pure
            apply Denotes.plain
            intro known opened
            obtain ⟨truth, runs, applies, fails⟩ := decided known opened
            obtain ⟨later, within, tests, both⟩ := runs.yields_joined isJoined
            refine ((tests.conditional
              (fun holds => compared (applies holds) (both holds))
              (fun _ => nullableNull_yields site later after)).forget
                within).of_eq ?_ ?_
            · cases truth with
              | false => rw [fails rfl, if_neg notCollapsed]; rfl
              | true => rfl
            · rw [ite_self]

end Sides

end Scene

end BasicLowering.Lowering
