import BasicLowering.Lowering.Binary
import BasicLowering.Proofs.Lowering.Comparisons

/-!
# Templates of logical operators

Each template is run on operands of which the values are known. Where null
counts as false, the result is a truth value, and the same one as that of the
operator; elsewhere it is the value of the operator. The left operand runs
first, and the right one is left out exactly where the left one decides, or
where leaving it out cannot be noticed.

A left operand that may be evaluated more than once is read again by some
templates when the right one has run. The result is that of the operator if it
has kept its value by then.
-/

namespace BasicLowering.Lowering

open Semantics Target

theorem skipsRight_andAlso (left : Value) :
    skipsRight .andAlso left = (left == .boolean false) :=
  rfl

theorem skipsRight_orElse (left : Value) :
    skipsRight .orElse left = left.isTrue :=
  rfl

namespace Scene

variable {State : Type} {scene : Scene State}

/-- An operand compared with `true` where needed is a truth value. -/
theorem Reads.collapsed {low high : Nat} {operand : Operand}
    {course : Course State} (reads : scene.Reads low high operand course)
    (isLogical : course.value.isLogical = true) :
    scene.Denotes low high operand.collapsed course.before
      (.boolean course.value.isTrue) course.after := by
  intro known opened
  unfold Operand.collapsed
  split
  · exact (reads.denotes known opened).equalsTrue
  · next present =>
      have notNull := reads.notNull (Bool.eq_false_of_not_eq_true present)
      rw [← Value.eq_boolean_isTrue isLogical notNull]
      exact reads.denotes known opened

/-! ## Logical operands -/

/-- The operands of a logical operator, of which the left one runs first and may
decide. -/
structure LogicalSides (scene : Scene State)
    (operator : Source.BinaryOperator) (low middle high : Nat)
    (left right : Operand) (leftCourse rightCourse : Course State) :
    Prop extends
    Sides scene low middle high left right leftCourse rightCourse
      (skipsRight operator leftCourse.value = false) where
  leftLogical : leftCourse.value.isLogical = true
  rightLogical : skipsRight operator leftCourse.value = false →
    rightCourse.value.isLogical = true
  link : rightCourse.before = leftCourse.after

/-- Where a logical operator ends. -/
def endOf (operator : Source.BinaryOperator)
    (leftCourse rightCourse : Course State) : State :=
  if skipsRight operator leftCourse.value then leftCourse.after
  else rightCourse.after

namespace LogicalSides

variable {operator : Source.BinaryOperator} {low middle high : Nat}
variable {left right : Operand} {leftCourse rightCourse : Course State}

/-- What decides an operator less often decides it for these operands. -/
theorem of_skipsRight {other : Source.BinaryOperator}
    (sides : scene.LogicalSides operator low middle high left right leftCourse
      rightCourse)
    (never : skipsRight operator leftCourse.value = false) :
    scene.LogicalSides other low middle high left right leftCourse
      rightCourse where
  left := sides.left
  right _ := sides.right never
  above := sides.above
  below := sides.below
  bounded := sides.bounded
  leftLogical := sides.leftLogical
  rightLogical _ := sides.rightLogical never
  link := sides.link

section

variable (sides : scene.LogicalSides operator low middle high left right
  leftCourse rightCourse)

include sides

/-- The right operand goes on from where the left one ends. -/
theorem rightRuns {next : Nat} {known : Knowledge}
    (needed : skipsRight operator leftCourse.value = false)
    (enough : high ≤ next) (opened : scene.IsOpen low next known) :
    Yields scene.environment known leftCourse.after right.expr
      rightCourse.value rightCourse.after known := by
  rw [← sides.link]
  exact sides.rightYields needed enough opened

/-- The right operand as a truth value, where it is not null. -/
theorem rightRunsTrue {next : Nat} {known : Knowledge}
    (needed : skipsRight operator leftCourse.value = false)
    (present : right.mayBeNull = false)
    (enough : high ≤ next) (opened : scene.IsOpen low next known) :
    Yields scene.environment known leftCourse.after right.expr
      (.boolean rightCourse.value.isTrue) rightCourse.after known := by
  rw [← Value.eq_boolean_isTrue (sides.rightLogical needed)
    ((sides.right needed).notNull present)]
  exact sides.rightRuns needed enough opened

/-- The right operand where null counts as false. -/
theorem rightRunsCollapsed {known : Knowledge}
    (needed : skipsRight operator leftCourse.value = false)
    (opened : scene.IsOpen low high known) :
    Yields scene.environment known leftCourse.after right.collapsed
      (.boolean rightCourse.value.isTrue) rightCourse.after known := by
  rw [← sides.link]
  exact (sides.right needed).collapsed (sides.rightLogical needed) known
    (opened.narrow sides.above (Nat.le_refl high))

/-- The right operand, where it has been captured and has a value. -/
theorem rightTruth {capture : Capture} {known : Knowledge}
    (needed : skipsRight operator leftCourse.value = false)
    (again : ∀ state value,
      value = rightCourse.value ∧ value ≠ .null ∧
        scene.Rereads middle high right rightCourse.value state value →
      ∀ more, known.Within more → scene.IsOpen middle high more →
      Yields scene.environment more state capture.value value state more)
    (opened : scene.IsOpen low high known)
    (present : (rightCourse.value == .null) = false) :
    Yields scene.environment known rightCourse.after capture.value
      (.boolean rightCourse.value.isTrue) rightCourse.after known := by
  have notNull := beq_eq_false_iff_ne.mp present
  rw [← Value.eq_boolean_isTrue (sides.rightLogical needed) notNull]
  exact again _ _ ⟨rfl, notNull, (sides.right needed).rereads⟩ known
    (.refl known)
    (opened.narrow sides.above (Nat.le_refl high))

end

/-! ## Null counts as false -/

/-- Disjunction where null counts as false. -/
theorem collapsedDisjunction_restates
    (sides : scene.LogicalSides .orElse low middle high left right leftCourse
      rightCourse) :
    scene.start.Issues 2 high (collapsedDisjunction left right)
      fun next lowered =>
        scene.Restates low next lowered leftCourse.before
          (.boolean (leftCourse.value.disj rightCourse.value).isTrue)
          (endOf .orElse leftCourse rightCourse) := by
  unfold collapsedDisjunction
  rw [Value.isTrue_disj]
  split
  · next present =>
      have notNull := sides.left.notNull (by simpa using present)
      apply CaptureNames.Issues.pure
      apply Denotes.proven
      intro known opened
      have leftYields := sides.leftYields (Nat.le_refl high) opened
      rw [Value.eq_boolean_isTrue sides.leftLogical notNull] at leftYields
      exact leftYields.or fun notTrue =>
        (sides.rightRuns notTrue (Nat.le_refl high) opened).equalsTrue
  · apply CaptureNames.Issues.pure
    apply Denotes.proven
    intro known opened
    have leftYields := sides.leftYields (Nat.le_refl high) opened
    exact leftYields.equalsTrue.or fun notTrue =>
      sides.rightRunsCollapsed notTrue opened

section

variable (sides : scene.LogicalSides .andAlso low middle high left right
  leftCourse rightCourse)

include sides

/-- What a conjunction comes to where the left operand is read again once the
right one has run. -/
def rereadConjunction (left right again : Value) : Value :=
  if left == .boolean false then .boolean false
  else if right == .null then .null
  else if right.isTrue then again else .boolean false

/-- Conjunction with three values of operands that may both be null. The left
operand is evaluated first although its name is issued last. -/
theorem conjunctionOfBoth_denotes (site : Site) {again : Value}
    (rereads : (leftCourse.value == .boolean false) = false →
      scene.Rereads low middle left leftCourse.value rightCourse.after again) :
    scene.start.Issues 2 high (site.conjunctionOfBoth left right)
      fun next expr =>
        scene.Denotes low next expr leftCourse.before
          (rereadConjunction leftCourse.value rightCourse.value again)
          (endOf .andAlso leftCourse rightCourse) := by
  have above := sides.above
  have below := sides.below
  have room := sides.bounded
  unfold Site.conjunctionOfBoth
  refine (captureForMissingValue_reads sides.right high).bind ?_
  intro rightCapture middleCount aboveHigh belowHigh rightReads
  refine (sides.left.captureForFalseTest_reads (below.trans aboveHigh)
    (by omega)).bind ?_
  intro leftCapture last aboveMiddle belowMiddle leftReads
  apply CaptureNames.Issues.pure
  intro known opened
  obtain ⟨between, leftAdds, stillOpen, leftTest, leftAgain⟩ :=
    sides.leftCaptured leftReads aboveHigh aboveMiddle (Nat.le_refl last)
      (by omega) opened
  have rightFree : scene.IsOpen high middleCount between :=
    (opened.narrow (by omega) aboveMiddle).adds leftAdds
      (.inl (Nat.le_refl middleCount)) (by omega) (by omega)
  have unlessFalse (needed : (leftCourse.value == .boolean false) = false) :
      Yields scene.environment between leftCourse.after
        (.conditional rightCapture.test site.nullableNull
          (.conditional rightCapture.value leftCapture.value
            site.nullableFalse))
        (if rightCourse.value == .null then .null
          else if rightCourse.value.isTrue then again else .boolean false)
        rightCourse.after known := by
    obtain ⟨later, rightAdds, rightTest, rightAgain⟩ := rightReads needed
      between (stillOpen.narrow above (Nat.le_refl high)) rightFree
    rw [sides.link] at rightTest
    have finallyOpen : scene.IsOpen low high later :=
      stillOpen.adds rightAdds (.inl (Nat.le_refl high)) (by omega) (by omega)
    have leftRead := leftAgain _ _ (rereads needed) later rightAdds.within
      finallyOpen
    have unlessMissing (present : (rightCourse.value == .null) = false) :=
      (sides.rightTruth needed rightAgain finallyOpen present).conditional
        (fun _ => leftRead) (fun _ => nullableFalse_yields site later _)
    refine ((rightTest.conditional (fun _ => nullableNull_yields site later _)
      unlessMissing).forget
        (leftAdds.within.trans rightAdds.within)).of_eq rfl ?_
    rw [ite_self, ite_self]
  exact leftTest.conditional
    (fun _ => (nullableFalse_yields site between _).forget leftAdds.within)
    unlessFalse

/-- A left operand that has kept its value makes no difference. -/
theorem rereadConjunction_self :
    rereadConjunction leftCourse.value rightCourse.value leftCourse.value =
      leftCourse.value.conj rightCourse.value := by
  cases decided : leftCourse.value == .boolean false with
  | true =>
      rw [rereadConjunction, beq_iff_eq.mp decided]
      rfl
  | false =>
      rw [Value.conj_eq_ite sides.leftLogical (sides.rightLogical decided)]
      rfl

/-- Conjunction where null counts as false and the right operand is not null:
it runs unless the left one is false, which is asked for a value at the end. -/
theorem conjunctionWithPresent_denotes {again : Value}
    (present : right.mayBeNull = false)
    (rereads : (leftCourse.value == .boolean false) = false →
      scene.Rereads low middle left leftCourse.value rightCourse.after again) :
    scene.start.Issues 1 high (captureForMissingTest left) fun next capture =>
      scene.Denotes low next
        (((capture.test.or capture.value.getValue).and right.expr).and
          capture.value.hasValue)
        leftCourse.before
        (.boolean (leftCourse.value != .boolean false &&
          rightCourse.value.isTrue && again != .null))
        (endOf .andAlso leftCourse rightCourse) := by
  have room := sides.bounded
  refine (sides.left.captureForMissingTest_reads sides.below (by omega)).weaken
    (Nat.le_refl 1) ?_
  intro next capture above below captured known opened
  obtain ⟨later, adds, stillOpen, test, readAgain⟩ :=
    sides.leftCaptured captured (Nat.le_refl high) above (Nat.le_refl next)
      (by omega) opened
  have leftRead := readAgain _ _ sides.left.rereads later (.refl later) stillOpen
  have leftValueRead (hasValue : (leftCourse.value == .null) = false) :
      Yields scene.environment later leftCourse.after capture.value.getValue
        (.boolean leftCourse.value.isTrue) leftCourse.after later := by
    have notNull := beq_eq_false_iff_ne.mp hasValue
    rw [← Value.eq_boolean_isTrue sides.leftLogical notNull]
    exact leftRead.getValue notNull
  have notFalse : Yields scene.environment known leftCourse.before
      (capture.test.or capture.value.getValue)
      (.boolean (leftCourse.value != .boolean false)) leftCourse.after later := by
    refine (test.or leftValueRead).of_eq ?_ (ite_self _)
    obtain isNull | ⟨truth, isTruth⟩ :=
      Value.null_or_boolean sides.leftLogical
    · rw [isNull]
      rfl
    · rw [isTruth, bne, Value.boolean_beq_false, Value.isTrue_boolean,
        Bool.not_not]
      rfl
  have undecided (holds : (leftCourse.value != .boolean false) = true) :
      (leftCourse.value == .boolean false) = false :=
    (Bool.not_eq_true' _).mp holds
  have bothRun := notFalse.and fun holds =>
    sides.rightRunsTrue (undecided holds) present (Nat.le_refl high) stillOpen
  have ends : (if (leftCourse.value != .boolean false) = true then
      rightCourse.after else leftCourse.after) =
      endOf .andAlso leftCourse rightCourse := by
    rw [endOf, skipsRight_andAlso, bne]
    cases leftCourse.value == .boolean false <;> rfl
  have allRun := bothRun.and fun holds => by
    have holds := (Bool.and_eq_true_iff.mp holds).1
    rw [if_pos holds]
    exact (readAgain _ _ (rereads (undecided holds)) later (.refl later)
      stillOpen).hasValue
  refine (allRun.forget adds.within).of_eq rfl ?_
  rw [← ends]
  cases leftCourse.value != .boolean false <;>
    cases rightCourse.value.isTrue <;> rfl

/-- Conjunction where null counts as false. -/
theorem collapsedConjunction_restates (site : Site)
    (silent : site.isPure right = true →
      (leftCourse.value == .boolean false) = false →
      rightCourse.after = leftCourse.after)
    (again : Value)
    (rereads : left.mayBeNull = true → site.isPure right = false →
      (leftCourse.value == .boolean false) = false →
      scene.Rereads low middle left leftCourse.value rightCourse.after again) :
    ∃ truth, (again = leftCourse.value →
        truth = (leftCourse.value.conj rightCourse.value).isTrue) ∧
      scene.start.Issues 2 high (site.collapsedConjunction left right)
        fun next lowered =>
          scene.Restates low next lowered leftCourse.before (.boolean truth)
            (endOf .andAlso leftCourse rightCourse) := by
  unfold Site.collapsedConjunction
  cases mayBeNull : left.mayBeNull with
  | false =>
      have notNull := sides.left.notNull mayBeNull
      refine ⟨_, fun _ => rfl, CaptureNames.Issues.pure ?_⟩
      apply Denotes.proven
      intro known opened
      have leftYields := sides.leftYields (Nat.le_refl high) opened
      rw [Value.eq_boolean_isTrue sides.leftLogical notNull] at leftYields
      refine (leftYields.and fun isTrue =>
        (sides.rightRuns ?_ (Nat.le_refl high) opened).equalsTrue).of_eq ?_ ?_
      · rw [Value.eq_boolean_isTrue sides.leftLogical notNull, isTrue]
        rfl
      · rw [Value.isTrue_conj]
      · rw [endOf, skipsRight_andAlso,
          Value.eq_boolean_isTrue sides.leftLogical notNull]
        cases leftCourse.value.isTrue <;> rfl
  | true =>
    cases isPure : site.isPure right with
    | true =>
        -- Here the right side runs only if the left one is true, not if it is null: that
        -- does not show, because it is pure.
        refine ⟨_, fun _ => rfl, CaptureNames.Issues.pure ?_⟩
        apply Denotes.proven
        intro known opened
        have leftYields := sides.leftYields (Nat.le_refl high) opened
        refine (leftYields.equalsTrue.and fun isTrue =>
          sides.rightRunsCollapsed ?_ opened).of_eq ?_ ?_
        · rw [beq_iff_eq.mp isTrue]
          rfl
        · rw [Value.isTrue_conj]
        · rw [endOf, skipsRight_andAlso]
          cases decided : leftCourse.value == .boolean false with
          | true =>
              rw [beq_iff_eq.mp decided]
              rfl
          | false =>
              rw [silent isPure decided, ite_self]
              rfl
    | false =>
      have rereads := rereads mayBeNull isPure
      cases rightMayBeNull : right.mayBeNull with
      | true =>
          refine ⟨(rereadConjunction leftCourse.value rightCourse.value
            again).isTrue, ?_, ?_⟩
          · rintro rfl
            rw [sides.rereadConjunction_self]
          · refine (sides.conjunctionOfBoth_denotes site rereads).bind ?_
            intro conjunction next above below denotes
            apply CaptureNames.Issues.pure
            apply Denotes.proven
            exact fun known opened => (denotes known opened).equalsTrue
      | false =>
          refine ⟨leftCourse.value != .boolean false &&
            rightCourse.value.isTrue && again != .null, ?_, ?_⟩
          · rintro rfl
            rw [Value.isTrue_conj]
            obtain isNull | ⟨truth, isTruth⟩ :=
              Value.null_or_boolean sides.leftLogical
            · rw [isNull, bne_self_eq_false, Bool.and_false]
              rfl
            · rw [isTruth, bne, bne, Value.boolean_beq_false,
                Value.boolean_beq_null, Value.isTrue_boolean, Bool.not_not,
                Bool.not_false, Bool.and_true]
          · refine ((sides.conjunctionWithPresent_denotes rightMayBeNull
              rereads).bind ?_).weaken (Nat.le_succ 1) fun _ _ _ _ good => good
            intro capture next above below denotes
            apply CaptureNames.Issues.pure
            exact denotes.proven

/-! ## Three values -/

/-- Conjunction with three values. -/
theorem conjunction_restates (site : Site) (again : Value)
    (rereads : left.mayBeNull = true →
      (leftCourse.value == .boolean false) = false →
      scene.Rereads low middle left leftCourse.value rightCourse.after again) :
    ∃ value, (again = leftCourse.value →
        value = leftCourse.value.conj rightCourse.value) ∧
      scene.start.Issues 2 high (site.conjunction left right)
        fun next lowered =>
          scene.Restates low next lowered leftCourse.before value
            (endOf .andAlso leftCourse rightCourse) := by
  unfold Site.conjunction
  cases mayBeNull : left.mayBeNull with
  | false =>
      have notNull := sides.left.notNull mayBeNull
      have isTruth := Value.eq_boolean_isTrue sides.leftLogical notNull
      refine ⟨_, fun _ => rfl, CaptureNames.Issues.pure ?_⟩
      apply Denotes.plain
      intro known opened
      have leftYields := sides.leftYields (Nat.le_refl high) opened
      rw [isTruth] at leftYields
      have needed (isTrue : leftCourse.value.isTrue = true) :
          skipsRight .andAlso leftCourse.value = false := by
        rw [isTruth, isTrue]
        rfl
      refine (leftYields.conditional
        (fun isTrue => sides.rightRuns (needed isTrue) (Nat.le_refl high) opened)
        fun _ => nullableFalse_yields site known _).of_eq ?_ ?_
      · cases isTrue : leftCourse.value.isTrue with
        | true =>
            rw [isTruth, isTrue,
              Value.boolean_conj (sides.rightLogical (needed isTrue))]
        | false => rw [isTruth, isTrue]; rfl
      · rw [endOf, skipsRight_andAlso, isTruth]
        cases leftCourse.value.isTrue <;> rfl
  | true =>
    have rereads := rereads mayBeNull
    refine ⟨rereadConjunction leftCourse.value rightCourse.value again, ?_, ?_⟩
    · rintro rfl
      rw [sides.rereadConjunction_self]
    cases rightMayBeNull : right.mayBeNull with
    | true =>
        refine (sides.conjunctionOfBoth_denotes site rereads).bind ?_
        intro conjunction next above below denotes
        apply CaptureNames.Issues.pure
        exact denotes.plain
    | false =>
        refine ((sides.left.captureForFalseTest_reads sides.below
          (Nat.lt_of_succ_lt sides.bounded)).bind ?_).weaken (Nat.le_succ 1)
          fun _ _ _ _ good => good
        intro capture next above below captured
        apply CaptureNames.Issues.pure
        apply Denotes.plain
        intro known opened
        obtain ⟨later, adds, stillOpen, test, readAgain⟩ :=
          sides.leftCaptured captured (Nat.le_refl high) above (Nat.le_refl next)
            (by omega) opened
        have unlessFalse (needed : (leftCourse.value == .boolean false) = false) :=
          (sides.rightRunsTrue needed rightMayBeNull (Nat.le_refl high)
            stillOpen).conditional
              (fun _ => readAgain _ _ (rereads needed) later (.refl later)
                stillOpen)
              (fun _ => nullableFalse_yields site later _)
        refine ((test.conditional (fun _ => nullableFalse_yields site later _)
          unlessFalse).forget adds.within).of_eq ?_ ?_
        · rw [rereadConjunction]
          cases decided : leftCourse.value == .boolean false with
          | true => rfl
          | false =>
              have notNull := (sides.right decided).notNull rightMayBeNull
              rw [beq_eq_false_iff_ne.mpr notNull]
              rfl
        · rw [ite_self]
          rfl

end

section

variable (sides : scene.LogicalSides .orElse low middle high left right
  leftCourse rightCourse)

include sides

/-- A disjunction goes on with another expression where the captured left
operand is not true. -/
theorem disjunction_of_captured {site : Site} {count last : Nat}
    {leftCapture : Capture} {whenNotTrue : Expr}
    (captured : scene.CaptureReads low middle high count leftCapture
      leftCourse.before true leftCourse.after
      fun _ again => again = leftCourse.value)
    (enough : high ≤ count) (ordered : count ≤ last) (room : last ≤ high + 2)
    (continues : leftCourse.value.isTrue = false →
      ∀ known, scene.IsOpen low high known → scene.IsOpen count last known →
      (∀ state more, known.Within more → scene.IsOpen low high more →
        Yields scene.environment more state leftCapture.value leftCourse.value
          state more) →
      Yields scene.environment known leftCourse.after whenNotTrue
        (if rightCourse.value == .null then .null
          else if rightCourse.value.isTrue then .boolean true
          else leftCourse.value)
        rightCourse.after known) :
    scene.Restates low last
      (.plain (.conditional
        (leftCapture.test.and leftCapture.value.equalsTrue) site.nullableTrue
        whenNotTrue))
      leftCourse.before (leftCourse.value.disj rightCourse.value)
      (endOf .orElse leftCourse rightCourse) := by
  have limit := sides.bounded
  have above := sides.above
  have below := sides.below
  apply Denotes.plain
  intro known opened
  obtain ⟨later, adds, stillOpen, test, again⟩ :=
    sides.leftCaptured captured (Nat.le_refl high) enough ordered (by omega)
      opened
  have rightFree : scene.IsOpen count last later :=
    (opened.narrow (by omega) (Nat.le_refl last)).adds adds
      (.inr (Nat.le_refl count)) (by omega) (by omega)
  have leftIsTrue : Yields scene.environment known leftCourse.before
      (leftCapture.test.and leftCapture.value.equalsTrue)
      (.boolean leftCourse.value.isTrue) leftCourse.after later :=
    .binary rfl rfl test
      (again _ _ rfl later (.refl later) stillOpen).equalsTrue
  refine ((leftIsTrue.conditional (fun _ => nullableTrue_yields site later _)
    fun notTrue => continues notTrue later stillOpen rightFree fun state =>
      again state _ rfl).forget adds.within).of_eq ?_ rfl
  cases isTrue : leftCourse.value.isTrue with
  | true =>
      rw [beq_iff_eq.mp isTrue]
      rfl
  | false =>
      rw [Value.disj_eq_ite sides.leftLogical (sides.rightLogical isTrue), isTrue]

/-- Disjunction with three values. -/
theorem disjunction_restates (site : Site) :
    scene.start.Issues 2 high (site.disjunction left right)
      fun next lowered =>
        scene.Restates low next lowered leftCourse.before
          (leftCourse.value.disj rightCourse.value)
          (endOf .orElse leftCourse rightCourse) := by
  have limit := sides.bounded
  unfold Site.disjunction
  split
  · next present =>
      have notNull := sides.left.notNull (by simpa using present)
      have isTruth := Value.eq_boolean_isTrue sides.leftLogical notNull
      apply CaptureNames.Issues.pure
      apply Denotes.plain
      intro known opened
      have leftYields := sides.leftYields (Nat.le_refl high) opened
      rw [isTruth] at leftYields
      refine (leftYields.conditional
        (fun _ => nullableTrue_yields site known _)
        fun notTrue => sides.rightRuns notTrue (Nat.le_refl high) opened).of_eq
          ?_ rfl
      cases isTrue : leftCourse.value.isTrue with
      | true => rw [isTruth, isTrue]; rfl
      | false =>
          rw [isTruth, isTrue, Value.boolean_disj (sides.rightLogical isTrue)]
  refine (sides.left.denotes.captureAny_reads high).bind ?_
  intro leftCapture count aboveHigh belowHigh leftReads
  simp only [pure_bind]
  cases rightMayBeNull : right.mayBeNull with
  | false =>
      apply CaptureNames.Issues.pure
      apply sides.disjunction_of_captured leftReads aboveHigh
        (Nat.le_refl count) (by omega)
      intro notTrue known opened _ leftAgain
      have notNull := (sides.right notTrue).notNull rightMayBeNull
      have rightYields := sides.rightRunsTrue notTrue rightMayBeNull
        (Nat.le_refl high) opened
      refine (rightYields.conditional
        (fun _ => nullableTrue_yields site known _)
        fun _ => leftAgain _ known (.refl known) opened).of_eq ?_ (ite_self _)
      rw [beq_eq_false_iff_ne.mpr notNull]
      rfl
  | true =>
      refine (captureUnlessNull_reads (fun notTrue =>
        (sides.right notTrue).denotes) count).bind ?_
      intro rightCapture last aboveCount belowCount rightReads
      apply CaptureNames.Issues.pure
      apply sides.disjunction_of_captured leftReads aboveHigh aboveCount
        (by omega)
      intro notTrue known opened free leftAgain
      obtain ⟨later, adds, test, rightAgain⟩ := rightReads notTrue known
        (opened.narrow sides.above (Nat.le_refl high)) free
      rw [sides.link] at test
      have stillOpen : scene.IsOpen low high later :=
        opened.adds adds (.inl aboveHigh) (by omega) (by omega)
      have unlessMissing (present : (rightCourse.value == .null) = false) :=
        (sides.rightTruth notTrue (fun state value isReadable =>
          rightAgain state value ⟨isReadable.1, isReadable.2.1⟩) stillOpen
          present).conditional
            (fun _ => nullableTrue_yields site later _)
            (fun _ => leftAgain _ later adds.within stillOpen)
      refine ((test.conditional (fun _ => nullableNull_yields site later _)
        unlessMissing).forget adds.within).of_eq rfl ?_
      rw [ite_self, ite_self]

end

/-! ## Eager operators -/

/-- No left operand decides an eager operator. -/
theorem skipsRight_of_isEager (eager : operator.isEager = true)
    (left : Value) : skipsRight operator left = false := by
  cases operator <;> first | rfl | cases eager

section

variable (sides : scene.LogicalSides operator low middle high left right
  leftCourse rightCourse)
variable (eager : operator.isEager = true)

include sides eager

/-- The eager operators of the target language have three values. -/
theorem eager_denotes :
    scene.Denotes low high
      (.binary left.expr (convertOperator operator) right.expr)
      leftCourse.before (combine operator leftCourse.value rightCourse.value)
      (endOf operator leftCourse rightCourse) := by
  intro known opened
  have needed := skipsRight_of_isEager eager leftCourse.value
  have leftYields := sides.leftYields (Nat.le_refl high) opened
  have rightYields := sides.rightRuns needed (Nat.le_refl high) opened
  have bothLogical :
      (leftCourse.value.isLogical && rightCourse.value.isLogical) = true :=
    Bool.and_eq_true_iff.mpr ⟨sides.leftLogical, sides.rightLogical needed⟩
  rw [endOf, needed]
  cases operator with
  | and | or => exact .binary rfl (if_pos bothLogical) leftYields rightYields
  | _ => cases eager

/-- An eager operator is restated as its short-circuiting form where null counts
as false and the right operand may be left out. -/
theorem eager_restates (site : Site) (collapse : Bool)
    (silent : site.isPure right = true →
      rightCourse.after = leftCourse.after) :
    scene.start.Issues 2 high
      (site.restate collapse operator
        (.binary left.expr (convertOperator operator) right.expr) left right)
      fun last lowered =>
        scene.Restates low last lowered leftCourse.before
          (outcomeOf collapse operator leftCourse.value rightCourse.value)
          (endOf operator leftCourse rightCourse) := by
  have needed := skipsRight_of_isEager eager leftCourse.value
  cases collapse with
  | false =>
      have plain := (sides.eager_denotes eager).plain
      cases operator with
      | and | or => exact CaptureNames.Issues.pure plain
      | _ => cases eager
  | true =>
    cases isPure : site.isPure right with
    | false =>
        have collapsed := Denotes.proven fun known opened =>
          (sides.eager_denotes eager known opened).equalsTrue
        cases operator with
        | and | or =>
            simp only [Site.restate, isPure]
            exact CaptureNames.Issues.pure collapsed
        | _ => cases eager
    | true =>
        have sameEnd (other : Source.BinaryOperator) :
            endOf other leftCourse rightCourse =
              endOf operator leftCourse rightCourse := by
          rw [endOf, endOf, silent isPure, ite_self, ite_self]
        cases operator with
        | and =>
            simp only [Site.restate, isPure]
            rw [← sameEnd .andAlso]
            obtain ⟨truth, isTruth, restates⟩ :=
              (sides.of_skipsRight needed).collapsedConjunction_restates
                site (fun _ _ => silent isPure) leftCourse.value
                fun _ notPure => nomatch isPure.symm.trans notPure
            rw [isTruth rfl] at restates
            exact restates
        | or =>
            simp only [Site.restate, isPure]
            rw [← sameEnd .orElse]
            exact (sides.of_skipsRight needed).collapsedDisjunction_restates
        | _ => cases eager

end

/-- The plain operator on two truth values. -/
theorem plain_denotes {leftTruth rightTruth : Bool}
    (sides : scene.LogicalSides operator low middle high left right leftCourse
      rightCourse)
    (logical : (operator.isConjunction || operator.isDisjunction) = true)
    (isLeft : leftCourse.value = .boolean leftTruth)
    (isRight : rightCourse.value = .boolean rightTruth) :
    scene.Denotes low high
      (.binary left.expr (convertOperator operator) right.expr)
      leftCourse.before (combine operator leftCourse.value rightCourse.value)
      (endOf operator leftCourse rightCourse) := by
  intro known opened
  have leftRuns := sides.leftYields (Nat.le_refl high) opened
  have rightRuns (needed : skipsRight operator leftCourse.value = false) :=
    sides.rightRuns needed (Nat.le_refl high) opened
  have eager (isEager : operator.isEager = true) :=
    sides.eager_denotes isEager known opened
  unfold endOf at eager ⊢
  rw [isLeft] at leftRuns rightRuns eager ⊢
  rw [isRight] at rightRuns eager ⊢
  cases operator with
  | and | or => exact eager rfl
  | andAlso =>
      cases leftTruth with
      | false => exact .decided rfl leftRuns
      | true =>
          exact .binary rfl (by cases rightTruth <;> rfl) leftRuns
            (rightRuns rfl)
  | orElse =>
      cases leftTruth with
      | false =>
          exact .binary rfl (by cases rightTruth <;> rfl) leftRuns
            (rightRuns rfl)
      | true => exact .decided rfl leftRuns
  | _ => cases logical

end LogicalSides

end Scene

/-! ## Every operator -/

theorem skipsRight_of_isRelational {operator : Source.BinaryOperator}
    (relational : operator.isRelational = true) (left : Value) :
    skipsRight operator left = false := by
  cases operator <;> first | rfl | cases relational

theorem isRelational_of_runsRightFirst {collapse : Bool}
    {operator : Source.BinaryOperator} {left right : Operand}
    (rightFirst : runsRightFirst collapse operator left right = true) :
    operator.isRelational = true := by
  simp only [runsRightFirst, Bool.and_eq_true] at rightFirst
  exact rightFirst.1.1

/-- Whether the values of operands fit a restated operator: they can be
compared, or are true, false or null. The right operand does not matter where it
is left out. -/
def Fit (operator : Source.BinaryOperator) (left right : Value) : Prop :=
  if operator.isRelational then Comparable operator left right
  else
    left.isLogical = true ∧
      (skipsRight operator left = false → right.isLogical = true)

/-- Operands that fit an operator of the source language fit it when it is
restated. -/
theorem fit_of_fitOperator {operator : Source.BinaryOperator} {left right : Value}
    (fit : FitOperator operator left right) : Fit operator left right := by
  unfold Fit
  unfold FitOperator at fit
  split at fit
  · next relational =>
      rw [if_pos relational]
      exact .inl fit
  · next notRelational =>
      rw [if_neg notRelational]
      exact ⟨fit.1, fun _ => fit.2⟩

/-- The plain operator on two values that are not null. -/
theorem Scene.Sides.unchanged_denotes {State : Type} {scene : Scene State}
    {operator : Source.BinaryOperator} {low middle high : Nat}
    {left right : Operand} {leftCourse rightCourse : Course State}
    (sides : scene.Sides low middle high left right leftCourse rightCourse
      (skipsRight operator leftCourse.value = false))
    (restated : isRestated operator = true)
    (fit : FitOperator operator leftCourse.value rightCourse.value)
    (link : rightCourse.before = leftCourse.after)
    (leftPresent : leftCourse.value ≠ .null)
    (rightPresent : rightCourse.value ≠ .null) :
    scene.Denotes low high
      (.binary left.expr (convertOperator operator) right.expr)
      leftCourse.before (combine operator leftCourse.value rightCourse.value)
      (endOf operator leftCourse rightCourse) := by
  unfold FitOperator at fit
  split at fit
  · next relational =>
      have needed := skipsRight_of_isRelational relational leftCourse.value
      intro known opened
      have rightYields := sides.rightYields needed (Nat.le_refl high) opened
      rw [link] at rightYields
      rw [endOf, needed]
      exact .binary (decides_of_isRelational relational leftCourse.value)
        (applies_of_present relational (.inl fit) false leftPresent rightPresent)
        (sides.leftYields (Nat.le_refl high) opened) rightYields
  · next notRelational =>
      have logical : (operator.isConjunction || operator.isDisjunction) = true := by
        rwa [isRestated, Bool.eq_false_of_not_eq_true notRelational, Bool.false_or]
          at restated
      have logicalSides : scene.LogicalSides operator low middle high left right
          leftCourse rightCourse := ⟨sides, fit.1, fun _ => fit.2, link⟩
      exact logicalSides.plain_denotes logical
        (Value.eq_boolean_isTrue fit.1 leftPresent)
        (Value.eq_boolean_isTrue fit.2 rightPresent)

/-- Whether a restated operator evaluates its left operand once more when the
right one has run. -/
def evaluatesLeftAgain (site : Site) (collapse : Bool)
    (operator : Source.BinaryOperator) (left right : Operand) : Bool :=
  operator == .andAlso && left.isReusable && left.mayBeNull &&
    !(collapse && site.isPure right)

/-- The left operand has its value again where it is not evaluated once more. -/
theorem exists_reread {State : Type} {scene : Scene State} {low middle : Nat}
    {left right : Operand} {value : Value} {after : State} (site : Site)
    (collapse : Bool) (again : Value)
    (rereads : evaluatesLeftAgain site collapse .andAlso left right = true →
      skipsRight .andAlso value = false →
      scene.Rereads low middle left value after again) :
    ∃ chosen,
      ((evaluatesLeftAgain site collapse .andAlso left right = true →
        again = value) → chosen = value) ∧
      (left.mayBeNull = true → (collapse && site.isPure right) = false →
        skipsRight .andAlso value = false →
        scene.Rereads low middle left value after chosen) := by
  cases isRead : evaluatesLeftAgain site collapse .andAlso left right with
  | true => exact ⟨again, fun same => same rfl, fun _ _ => rereads isRead⟩
  | false =>
      refine ⟨value, fun _ => rfl,
        fun mayBeNull noticed _ => ⟨fun _ => rfl, fun reusable => ?_⟩⟩
      rw [evaluatesLeftAgain, reusable, mayBeNull, noticed] at isRead
      cases isRead

/-- A restated operator evaluates its operands in turn. Its value is that of the
operator, or its truth where null counts as false, unless the left operand is
read again and has another value by then. -/
theorem Scene.Sides.restate_restates {State : Type} {scene : Scene State}
    {operator : Source.BinaryOperator}
    {low middle high : Nat} {left right : Operand}
    {leftCourse rightCourse : Course State} {before after : State}
    (sides : scene.Sides low middle high left right leftCourse rightCourse
      (skipsRight operator leftCourse.value = false))
    (site : Site) (collapse : Bool) (restated : isRestated operator = true)
    (fit : Fit operator leftCourse.value rightCourse.value)
    (inTurn : InTurn leftCourse rightCourse
      (runsRightFirst collapse operator left right) before after)
    (silent : site.isPure right = true →
      skipsRight operator leftCourse.value = false →
      rightCourse.after = rightCourse.before)
    (again : Value)
    (rereads : evaluatesLeftAgain site collapse operator left right = true →
      skipsRight operator leftCourse.value = false →
      scene.Rereads low middle left leftCourse.value after again) :
    ∃ value,
      ((evaluatesLeftAgain site collapse operator left right = true →
          again = leftCourse.value) →
        value =
          outcomeOf collapse operator leftCourse.value rightCourse.value) ∧
      scene.start.Issues 2 high
        (site.restate collapse operator
          (.binary left.expr (convertOperator operator) right.expr) left right)
        fun last lowered =>
          scene.Restates low last lowered before value
            (if skipsRight operator leftCourse.value then leftCourse.after
              else after) := by
  cases operator with
  | andAlso =>
      obtain ⟨rfl, link, rfl⟩ := inTurn
      have logical : scene.LogicalSides .andAlso low middle high left right
          leftCourse rightCourse := ⟨sides, fit.1, fit.2, link⟩
      obtain ⟨chosen, isSame, rereads⟩ :=
        exists_reread site collapse again rereads
      cases collapse with
      | true =>
          obtain ⟨truth, isTruth, restates⟩ :=
            logical.collapsedConjunction_restates site
              (fun isPure needed => (silent isPure needed).trans link) chosen
              rereads
          refine ⟨.boolean truth, fun kept => ?_, restates⟩
          rw [isTruth (isSame kept)]
          rfl
      | false =>
          obtain ⟨value, isValue, restates⟩ :=
            logical.conjunction_restates site chosen fun mayBeNull =>
              rereads mayBeNull rfl
          exact ⟨value, fun kept => isValue (isSame kept), restates⟩
  | orElse =>
      obtain ⟨rfl, link, rfl⟩ := inTurn
      have logical : scene.LogicalSides .orElse low middle high left right
          leftCourse rightCourse := ⟨sides, fit.1, fit.2, link⟩
      refine ⟨_, fun _ => rfl, ?_⟩
      cases collapse with
      | true => exact logical.collapsedDisjunction_restates
      | false => exact logical.disjunction_restates site
  | and | or =>
      obtain ⟨rfl, link, rfl⟩ := inTurn
      have logical : scene.LogicalSides _ low middle high left right
          leftCourse rightCourse := ⟨sides, fit.1, fit.2, link⟩
      refine ⟨_, fun _ => rfl, ?_⟩
      exact logical.eager_restates rfl site collapse fun isPure =>
        (silent isPure rfl).trans link
  | equals | notEquals | lessThan | lessThanOrEqual | greaterThan
  | greaterThanOrEqual =>
      have compared : scene.Sides low middle high left right leftCourse
          rightCourse True :=
        { sides with right := fun _ => sides.right rfl }
      exact ⟨_, fun _ => rfl,
        compared.comparison_restates site collapse rfl fit inTurn⟩
  | _ => cases restated

end BasicLowering.Lowering
