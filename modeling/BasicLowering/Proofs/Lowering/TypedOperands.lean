import BasicLowering.Proofs.Lowering.Assembly
import BasicLowering.Proofs.Lowering.TypedTemplates

/-!
# What typed templates say of their operands

A template has a type only if its operands have one, since it contains both of them.
An operand of a short-circuiting operator that is taken not to be null is used as it
stands, in a place where a `bool` is asked for.
-/

namespace BasicLowering.Lowering

open Source (BinaryOperator ScalarType)
open Target (Declarations Expr Pattern)

section

variable {start : CaptureNames} {count : Nat} {types : Declarations}

/-! ## Captures -/

/-- Whether a capture has a type only if its operand has one. -/
def Asks (operand : Expr) (capture : Capture) : Prop :=
  ∀ types, capture.test.IsTyped types → operand.IsTyped types

theorem issues_asks (operand : Expr) (pattern : String → Pattern) :
    start.Issues 1 count
      (freshName >>= fun name =>
        return ⟨.test operand (pattern name), .identifier name⟩)
      fun _ (capture : Capture) => Asks operand capture := by
  refine (freshName_issues start count).bind fun name next _ _ _ => ?_
  exact CaptureNames.Issues.pure fun types typed => typed.of_test

theorem captureAny_asks (operand : Expr) :
    start.Issues 1 count (captureAny operand) fun _ capture => Asks operand capture :=
  issues_asks operand .anything

theorem captureValue_asks (operand : Expr) :
    start.Issues 1 count (captureValue operand) fun _ capture =>
      Asks operand capture :=
  issues_asks operand fun name => .notNull name

theorem captureUnlessNull_asks (operand : Expr) :
    start.Issues 1 count (captureUnlessNull operand) fun _ capture =>
      Asks operand capture :=
  issues_asks operand fun name => .not (.notNull name)

theorem captureTested_asks {test : Expr → Expr} (operand : Operand)
    (tests : ∀ {types} {expr : Expr}, (test expr).IsTyped types →
      expr.IsTyped types) :
    start.Issues 1 count (captureTested test operand) fun _ capture =>
      Asks operand.expr capture := by
  refine captureTested_issues (fun _ types typed => tests typed) fun _ => ?_
  refine (captureAny_asks operand.expr).weaken (Nat.le_refl 1) ?_
  intro next capture _ _ asks types typed
  exact asks types typed.of_and.1.isTyped

theorem captureForFalseTest_asks (operand : Operand) :
    start.Issues 1 count (captureForFalseTest operand) fun _ capture =>
      Asks operand.expr capture :=
  captureTested_asks operand fun typed => typed.of_equals

theorem captureForMissingTest_asks (operand : Operand) :
    start.Issues 1 count (captureForMissingTest operand) fun _ capture =>
      Asks operand.expr capture :=
  captureTested_asks operand fun typed => typed.of_negate.of_member

theorem captureForMissingValue_asks (operand : Operand) :
    start.Issues 1 count (captureForMissingValue operand) fun _ capture =>
      Asks operand.expr capture := by
  unfold captureForMissingValue
  split
  · exact CaptureNames.Issues.pure fun types typed => typed.of_negate.of_member
  · exact captureUnlessNull_asks operand.expr

/-! ## Logical templates -/

/-- Whether an operand has a type, which is `bool` if it is taken not to be null. -/
def Operand.Used (types : Declarations) (operand : Operand) : Prop :=
  ∃ type, operand.expr.HasType types type ∧
    (operand.mayBeNull = false → type = .bool)

namespace Operand.Used

variable {operand : Operand}

theorem of_bool (typed : operand.expr.HasType types .bool) : operand.Used types :=
  ⟨.bool, typed, fun _ => rfl⟩

theorem of_mayBeNull (mayBeNull : operand.mayBeNull = true)
    (typed : operand.expr.IsTyped types) : operand.Used types := by
  obtain ⟨type, typed⟩ := typed
  refine ⟨type, typed, fun present => ?_⟩
  rw [mayBeNull] at present
  cases present

theorem of_collapsed (typed : operand.collapsed.HasType types .bool) :
    operand.Used types := by
  unfold Operand.collapsed at typed
  split at typed
  · next mayBeNull => exact of_mayBeNull mayBeNull typed.isTyped.of_equals
  · exact of_bool typed

end Operand.Used

/-- Whether a template has a type only if it uses both its operands rightly. -/
def UsesBoth (left right : Operand) (expr : Expr) : Prop :=
  ∀ types, expr.IsTyped types → left.Used types ∧ right.Used types

variable {left right : Operand} (mayBeNull : (left.mayBeNull || right.mayBeNull) = true)

include mayBeNull

theorem collapsedDisjunction_usesBoth :
    start.Issues 2 count (collapsedDisjunction left right) fun _ lowered =>
      UsesBoth left right lowered.expr := by
  unfold collapsedDisjunction
  split
  · next present =>
      rw [Bool.not_eq_true'] at present
      rw [present, Bool.false_or] at mayBeNull
      apply CaptureNames.Issues.pure
      intro types typed
      obtain ⟨leftTyped, rightTyped⟩ := typed.of_or
      exact ⟨.of_bool leftTyped, .of_mayBeNull mayBeNull rightTyped.isTyped.of_equals⟩
  · next leftMayBeNull =>
      rw [Bool.not_eq_true', Bool.not_eq_false] at leftMayBeNull
      apply CaptureNames.Issues.pure
      intro types typed
      obtain ⟨leftTyped, rightTyped⟩ := typed.of_or
      exact ⟨.of_mayBeNull leftMayBeNull leftTyped.isTyped.of_equals,
        .of_collapsed rightTyped⟩

omit mayBeNull in
theorem conjunctionOfBoth_usesBoth (site : Site)
    (leftMayBeNull : left.mayBeNull = true) (rightMayBeNull : right.mayBeNull = true) :
    start.Issues 2 count (site.conjunctionOfBoth left right) fun _ expr =>
      UsesBoth left right expr := by
  unfold Site.conjunctionOfBoth
  refine (captureForMissingValue_asks right).bind fun rightCapture middle _ _ => ?_
  intro rightAsks
  refine (captureForFalseTest_asks left).bind fun leftCapture next _ _ => ?_
  intro leftAsks
  apply CaptureNames.Issues.pure
  intro types typed
  obtain ⟨leftTest, -, others⟩ := typed.of_conditional
  exact ⟨.of_mayBeNull leftMayBeNull (leftAsks types leftTest.isTyped),
    .of_mayBeNull rightMayBeNull
      (rightAsks types others.of_conditional.1.isTyped)⟩

theorem collapsedConjunction_usesBoth (site : Site) :
    start.Issues 2 count (site.collapsedConjunction left right) fun _ lowered =>
      UsesBoth left right lowered.expr := by
  unfold Site.collapsedConjunction
  split
  · next present =>
      rw [Bool.not_eq_true'] at present
      rw [present, Bool.false_or] at mayBeNull
      apply CaptureNames.Issues.pure
      intro types typed
      obtain ⟨leftTyped, rightTyped⟩ := typed.of_and
      exact ⟨.of_bool leftTyped, .of_mayBeNull mayBeNull rightTyped.isTyped.of_equals⟩
  next leftMayBeNull =>
  rw [Bool.not_eq_true', Bool.not_eq_false] at leftMayBeNull
  split
  · apply CaptureNames.Issues.pure
    intro types typed
    obtain ⟨leftTyped, rightTyped⟩ := typed.of_and
    exact ⟨.of_mayBeNull leftMayBeNull leftTyped.isTyped.of_equals,
      .of_collapsed rightTyped⟩
  split
  · refine ((captureForMissingTest_asks left).bind fun capture next _ _ => ?_).weaken
      (Nat.le_succ 1) fun _ _ _ _ uses => uses
    intro asks
    apply CaptureNames.Issues.pure
    intro types typed
    obtain ⟨tested, rightTyped⟩ := typed.of_and.1.isTyped.of_and
    exact ⟨.of_mayBeNull leftMayBeNull (asks types tested.isTyped.of_or.1.isTyped),
      .of_bool rightTyped⟩
  · next rightMayBeNull =>
      rw [Bool.not_eq_true', Bool.not_eq_false] at rightMayBeNull
      refine (conjunctionOfBoth_usesBoth site leftMayBeNull rightMayBeNull).bind
        fun conjunction next _ _ => ?_
      intro uses
      exact CaptureNames.Issues.pure fun types typed => uses types typed.of_equals

theorem conjunction_usesBoth (site : Site) :
    start.Issues 2 count (site.conjunction left right) fun _ lowered =>
      UsesBoth left right lowered.expr := by
  unfold Site.conjunction
  split
  · next present =>
      rw [Bool.not_eq_true'] at present
      rw [present, Bool.false_or] at mayBeNull
      apply CaptureNames.Issues.pure
      intro types typed
      obtain ⟨leftTyped, rightTyped, -⟩ := typed.of_conditional
      exact ⟨.of_bool leftTyped, .of_mayBeNull mayBeNull rightTyped⟩
  next leftMayBeNull =>
  rw [Bool.not_eq_true', Bool.not_eq_false] at leftMayBeNull
  split
  · refine ((captureForFalseTest_asks left).bind fun capture next _ _ => ?_).weaken
      (Nat.le_succ 1) fun _ _ _ _ uses => uses
    intro asks
    apply CaptureNames.Issues.pure
    intro types typed
    obtain ⟨leftTest, -, others⟩ := typed.of_conditional
    exact ⟨.of_mayBeNull leftMayBeNull (asks types leftTest.isTyped),
      .of_bool others.of_conditional.1⟩
  · next rightMayBeNull =>
      rw [Bool.not_eq_true', Bool.not_eq_false] at rightMayBeNull
      refine (conjunctionOfBoth_usesBoth site leftMayBeNull rightMayBeNull).bind
        fun conjunction next _ _ => ?_
      intro uses
      exact CaptureNames.Issues.pure uses

theorem disjunction_usesBoth (site : Site) :
    start.Issues 2 count (site.disjunction left right) fun _ lowered =>
      UsesBoth left right lowered.expr := by
  unfold Site.disjunction
  split
  · next present =>
      rw [Bool.not_eq_true'] at present
      rw [present, Bool.false_or] at mayBeNull
      apply CaptureNames.Issues.pure
      intro types typed
      obtain ⟨leftTyped, -, rightTyped⟩ := typed.of_conditional
      exact ⟨.of_bool leftTyped, .of_mayBeNull mayBeNull rightTyped⟩
  next leftMayBeNull =>
  rw [Bool.not_eq_true', Bool.not_eq_false] at leftMayBeNull
  refine (captureAny_asks left.expr).bind fun leftCapture middle _ _ => ?_
  intro leftAsks
  split
  · apply CaptureNames.Issues.pure
    intro types typed
    obtain ⟨leftTest, -, others⟩ := typed.of_conditional
    exact ⟨.of_mayBeNull leftMayBeNull
        (leftAsks types leftTest.isTyped.of_and.1.isTyped),
      .of_bool others.of_conditional.1⟩
  · next rightMayBeNull =>
      rw [Bool.not_eq_true', Bool.not_eq_false] at rightMayBeNull
      simp only [pure_bind]
      refine (captureUnlessNull_asks right.expr).bind fun rightCapture next _ _ => ?_
      intro rightAsks
      apply CaptureNames.Issues.pure
      intro types typed
      obtain ⟨leftTest, -, others⟩ := typed.of_conditional
      exact ⟨.of_mayBeNull leftMayBeNull
          (leftAsks types leftTest.isTyped.of_and.1.isTyped),
        .of_mayBeNull rightMayBeNull
          (rightAsks types others.of_conditional.1.isTyped)⟩

end

/-! ## Comparisons -/

/-- Whether a template has a type only if both its operands have one. -/
def AsksBoth (left right : Operand) (expr : Expr) : Prop :=
  ∀ types, expr.IsTyped types → left.expr.IsTyped types ∧ right.expr.IsTyped types

section

variable {start : CaptureNames} {count : Nat} {left right : Operand}

theorem asksBoth_binary (operator : Target.BinaryOperator) :
    AsksBoth left right (.binary left.expr operator right.expr) :=
  fun _ typed => typed.of_binary

/-- What is in front of a comparison: tests that bind names, and tests that may be left
out, of which there are some if both operands may be null. -/
structure GuardsBoth (left right : Operand) (required optional : List Expr)
    (leftExpr rightExpr : Expr) : Prop where
  some_optional : left.mayBeNull = true → right.mayBeNull = true → optional ≠ []
  asks : ∀ types, (∀ test ∈ required, test.IsTyped types) →
    leftExpr.IsTyped types → rightExpr.IsTyped types →
    left.expr.IsTyped types ∧ right.expr.IsTyped types

theorem guardOperands_guardsBoth :
    start.Issues 2 count (guardOperands left right) fun _ guarded =>
      ∃ required optional, orderGuards guarded.1 = required ++ optional ∧
        GuardsBoth left right required optional guarded.2.1 guarded.2.2 := by
  cases leftReusable : left.isReusable with
  | true =>
      cases rightReusable : right.isReusable with
      | true =>
          rw [guardOperands_of_reusable leftReusable rightReusable]
          apply CaptureNames.Issues.pure
          rw [orderGuards_optional]
          refine ⟨[], _, rfl, fun leftMayBeNull _ => ?_, fun types _ => And.intro⟩
          exact List.append_ne_nil_of_left_ne_nil
            (optionalTests_ne_nil leftMayBeNull) _
      | false =>
          rw [guardOperands_of_rightCaptured leftReusable rightReusable]
          refine (captureValue_asks right.expr).bind fun capture next _ _ asks => ?_
          apply CaptureNames.Issues.pure
          rw [orderGuards_concat]
          refine ⟨[_], _, rfl, fun leftMayBeNull _ => optionalTests_ne_nil
            leftMayBeNull, fun types tests leftTyped _ => ⟨leftTyped, ?_⟩⟩
          exact asks types (List.forall_mem_singleton.mp tests)
  | false =>
      cases rightReusable : right.isReusable with
      | true =>
          rw [guardOperands_of_leftCaptured leftReusable rightReusable]
          refine (captureValue_asks left.expr).bind fun capture next _ _ asks => ?_
          apply CaptureNames.Issues.pure
          rw [orderGuards_cons, orderGuards_optional]
          refine ⟨[_], _, rfl, fun _ rightMayBeNull => optionalTests_ne_nil
            rightMayBeNull, fun types tests _ rightTyped => ⟨?_, rightTyped⟩⟩
          exact asks types (List.forall_mem_singleton.mp tests)
      | false =>
          rw [guardOperands_of_bothCaptured leftReusable rightReusable]
          refine (captureAny_asks right.expr).bind fun rightCapture middle _ _ => ?_
          intro rightAsks
          refine (captureValue_asks left.expr).bind fun leftCapture next _ _ => ?_
          intro leftAsks
          apply CaptureNames.Issues.pure
          rw [orderGuards_cons, orderGuards_cons, orderGuards_optional]
          refine ⟨[_, _], _, rfl, fun _ rightMayBeNull => optionalTests_ne_nil
            rightMayBeNull, fun types tests _ _ => ?_⟩
          obtain ⟨rightTest, tests⟩ := List.forall_mem_cons.mp tests
          exact ⟨leftAsks types (List.forall_mem_singleton.mp tests),
            rightAsks types rightTest⟩

/-- Tests that are joined have types if the whole has. -/
theorem isTyped_of_joined {types : Declarations} {tests : List Expr} {joined : Expr}
    (isJoined : joinTests? tests = some joined) (typed : joined.IsTyped types) :
    ∀ test ∈ tests, test.IsTyped types := by
  cases tests with
  | nil => exact List.forall_mem_nil _
  | cons first rest =>
      cases isJoined
      induction rest generalizing first with
      | nil => exact List.forall_mem_singleton.mpr typed
      | cons test rest ih =>
          obtain ⟨both, others⟩ := List.forall_mem_cons.mp (ih (first.and test) typed)
          obtain ⟨firstTyped, testTyped⟩ := both.of_and
          exact List.forall_mem_cons.mpr ⟨firstTyped.isTyped,
            List.forall_mem_cons.mpr ⟨testTyped.isTyped, others⟩⟩

theorem comparison_asksBoth (site : Site) (collapse : Bool)
    (operator : BinaryOperator) (target : Target.BinaryOperator) :
    start.Issues 2 count
      (site.comparison collapse operator (.binary left.expr target right.expr) left
        right)
      fun _ lowered => AsksBoth left right lowered.expr := by
  unfold Site.comparison
  split
  · exact CaptureNames.Issues.pure (asksBoth_binary target)
  · refine (guardOperands_guardsBoth.bind ?_).weaken (Nat.le_refl 2)
      fun _ _ _ _ asks => asks
    rintro ⟨guards, leftExpr, rightExpr⟩ next - - ⟨required, optional, inOrder, guarded⟩
    obtain ⟨kept, isKept⟩ : ∃ kept,
        (if lastTestIsSuperfluous collapse operator left right then
          (orderGuards guards).dropLast else orderGuards guards) =
        required ++ kept := by
      rw [inOrder]
      split
      · next superfluous =>
          simp only [lastTestIsSuperfluous, Bool.and_eq_true] at superfluous
          exact ⟨optional.dropLast, List.dropLast_append_of_ne_nil
            (guarded.some_optional superfluous.1.2 superfluous.2)⟩
      · exact ⟨optional, rfl⟩
    simp only [isKept]
    have asks {types : Declarations}
        (tests : ∀ test ∈ required ++ kept, test.IsTyped types)
        (compared : (Expr.binary leftExpr target rightExpr).IsTyped types) :=
      guarded.asks types (List.forall_mem_append.mp tests).1 compared.of_binary.1
        compared.of_binary.2
    split
    · next noTest =>
        have noTests : required ++ kept = [] := by
          cases all : required ++ kept with
          | nil => rfl
          | cons => simp [all, joinTests?] at noTest
        rw [noTests] at asks
        exact CaptureNames.Issues.pure fun types => asks (List.forall_mem_nil _)
    · next test isJoined =>
        split
        all_goals
          apply CaptureNames.Issues.pure
          intro types typed
        · obtain ⟨tested, compared⟩ := typed.of_and
          exact asks (isTyped_of_joined isJoined tested.isTyped) compared.isTyped
        · obtain ⟨tested, compared, -⟩ := typed.of_conditional
          exact asks (isTyped_of_joined isJoined tested.isTyped) compared

/-! ## Operators -/

/-- Whether an operator may leave its right operand unevaluated. -/
def shortCircuits (operator : BinaryOperator) : Bool :=
  (Analysis.leftResult? operator).isSome

/-- Whether a template for an operator has a type only if both its operands have one,
and only if it uses them rightly where the operator short-circuits. -/
structure Uses (operator : BinaryOperator) (left right : Operand) (expr : Expr) :
    Prop where
  asks : AsksBoth left right expr
  uses : shortCircuits operator = true → UsesBoth left right expr

theorem UsesBoth.uses {expr : Expr} (uses : UsesBoth left right expr)
    (operator : BinaryOperator) : Uses operator left right expr where
  uses _ := uses
  asks types typed := by
    obtain ⟨⟨leftType, leftTyped, -⟩, rightType, rightTyped, -⟩ := uses types typed
    exact ⟨⟨leftType, leftTyped⟩, ⟨rightType, rightTyped⟩⟩

theorem AsksBoth.uses {operator : BinaryOperator} {expr : Expr}
    (asks : AsksBoth left right expr) (inFull : shortCircuits operator = false) :
    Uses operator left right expr where
  asks := asks
  uses shortCircuits := by
    rw [inFull] at shortCircuits
    cases shortCircuits

theorem restate_uses (site : Site) {collapse : Bool} {operator : BinaryOperator}
    (restated : isRestated operator = true)
    (mayBeNull : (left.mayBeNull || right.mayBeNull) = true) :
    start.Issues 2 count
      (site.restate collapse operator
        (.binary left.expr (convertOperator operator) right.expr) left right)
      fun _ lowered => Uses operator left right lowered.expr := by
  cases operator with
  | andAlso =>
      unfold Site.restate
      dsimp only
      split
      · exact (collapsedConjunction_usesBoth mayBeNull site).weaken (Nat.le_refl 2)
          fun _ _ _ _ uses => uses.uses _
      · exact (conjunction_usesBoth mayBeNull site).weaken (Nat.le_refl 2)
          fun _ _ _ _ uses => uses.uses _
  | orElse =>
      unfold Site.restate
      dsimp only
      split
      · exact (collapsedDisjunction_usesBoth mayBeNull).weaken (Nat.le_refl 2)
          fun _ _ _ _ uses => uses.uses _
      · exact (disjunction_usesBoth mayBeNull site).weaken (Nat.le_refl 2)
          fun _ _ _ _ uses => uses.uses _
  | and =>
      unfold Site.restate
      dsimp only
      split
      · exact CaptureNames.Issues.pure ((asksBoth_binary _).uses rfl)
      split
      · exact CaptureNames.Issues.pure
          (AsksBoth.uses (fun types typed => typed.of_equals.of_binary) rfl)
      · exact (collapsedConjunction_usesBoth mayBeNull site).weaken (Nat.le_refl 2)
          fun _ _ _ _ uses => uses.uses _
  | or =>
      unfold Site.restate
      dsimp only
      split
      · exact CaptureNames.Issues.pure ((asksBoth_binary _).uses rfl)
      split
      · exact CaptureNames.Issues.pure
          (AsksBoth.uses (fun types typed => typed.of_equals.of_binary) rfl)
      · exact (collapsedDisjunction_usesBoth mayBeNull).weaken (Nat.le_refl 2)
          fun _ _ _ _ uses => uses.uses _
  | equals | notEquals | lessThan | lessThanOrEqual | greaterThan
  | greaterThanOrEqual =>
      exact (comparison_asksBoth site collapse _ _).weaken (Nat.le_refl 2)
        fun _ _ _ _ asks => asks.uses rfl
  | _ => cases restated

/-- An operator as it stands uses its operands. -/
theorem unchanged_uses (operator : BinaryOperator) :
    Uses operator left right
      (.binary left.expr (convertOperator operator) right.expr) where
  asks := asksBoth_binary _
  uses shortCircuits types typed := by
    have isLogical : convertOperator operator = .logicalAnd ∨
        convertOperator operator = .logicalOr := by
      cases operator with
      | andAlso => exact .inl rfl
      | orElse => exact .inr rfl
      | _ => cases shortCircuits
    obtain ⟨leftTyped, rightTyped⟩ := typed.of_logical isLogical
    exact ⟨.of_bool leftTyped, .of_bool rightTyped⟩

end

end BasicLowering.Lowering
