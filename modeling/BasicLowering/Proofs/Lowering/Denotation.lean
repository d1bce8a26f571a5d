import BasicLowering.Proofs.Lowering.Names
import BasicLowering.Proofs.Target.Knowledge

/-!
# What converted operands denote

A converted operand is run from a state of the program. It has a value, and the
program is in another state afterwards. An operand that may be evaluated more
than once leaves the state as it is, and has its value wherever its variables
have theirs.

The names of an operand are those issued while it was converted, an interval of
the count of names, so the names that a template issues later are none of them.
-/

namespace BasicLowering.Lowering

open Semantics Target

/-- Where expressions are evaluated: what the program makes of its states, and
where the names of captures start. No variable has the name of a capture. -/
structure Scene (State : Type) where
  environment : Environment State
  start : CaptureNames
  apart : ∀ state number, environment.read state (start.name number) = none

/-- A run of an operand: where it starts, its value, and where it ends. -/
structure Course (State : Type) where
  before : State
  value : Value
  after : State

/-- The value of an operator, where null may count as false. -/
def outcomeOf (collapse : Bool) (operator : Source.BinaryOperator)
    (left right : Value) : Value :=
  if collapse then .boolean (combine operator left right).isTrue
  else combine operator left right

namespace Scene

variable {State : Type} (scene : Scene State)

/-- Whether the names of an interval are free. -/
def IsOpen (low high : Nat) (known : Knowledge) : Prop :=
  ∀ count, low < count → count ≤ high → known (scene.start.nth count) = none

/-- Whether an expression that binds names of an interval has a value and takes
the program from one state to another. -/
def Denotes (low high : Nat) (expr : Expr) (before : State) (value : Value)
    (after : State) : Prop :=
  ∀ known, scene.IsOpen low high known →
    Yields scene.environment known before expr value after known

variable {scene} {low high : Nat} {known later : Knowledge}
variable {before after : State} {expr : Expr} {value : Value}

theorem IsOpen.narrow (opened : scene.IsOpen low high known) {inner : Nat}
    {outer : Nat} (above : low ≤ inner) (below : outer ≤ high) :
    scene.IsOpen inner outer known :=
  fun count isAbove isBelow =>
    opened count (Nat.lt_of_le_of_lt above isAbove) (isBelow.trans below)

/-- Whether one state knows more than another only about the names of an
interval. -/
structure Adds (scene : Scene State) (low high : Nat)
    (known later : Knowledge) : Prop where
  within : known.Within later
  same : ∀ name, (∀ count, low < count → count ≤ high →
    name ≠ scene.start.nth count) → later name = known name

theorem Adds.refl (known : Knowledge) : scene.Adds low high known known where
  within := .refl known
  same _ _ := rfl

theorem adds_update (unknown : known (scene.start.nth (low + 1)) = none)
    (value : Value) :
    scene.Adds low (low + 1) known
      (Function.update known (scene.start.nth (low + 1)) (some value)) where
  within := Knowledge.within_update unknown value
  same _ other :=
    Function.update_of_ne
      (other (low + 1) (Nat.lt_succ_self low) (Nat.le_refl (low + 1))) _ _

/-- Knowing the names of one interval leaves those of another free. -/
theorem IsOpen.adds (opened : scene.IsOpen low high known) {first last : Nat}
    (adds : scene.Adds first last known later)
    (apart : high ≤ first ∨ last ≤ low) (bounded : high < UInt32.size)
    (lastBounded : last < UInt32.size) : scene.IsOpen low high later := by
  intro count isAbove isBelow
  rw [adds.same]
  · exact opened count isAbove isBelow
  · intro other otherAbove otherBelow
    rcases apart with before | after
    · exact CaptureNames.nth_ne (by omega) (by omega)
    · exact (CaptureNames.nth_ne (by omega) (by omega)).symm

/-! ## Operands -/

/-- What is known about a run of an operand. -/
structure Reads (scene : Scene State) (low high : Nat) (operand : Operand)
    (course : Course State) : Prop where
  denotes : scene.Denotes low high operand.expr course.before course.value
    course.after
  notNull : operand.mayBeNull = false → course.value ≠ .null
  still : operand.isReusable = true → course.after = course.before

/-- Whether a value is what an operand is when it is read again: the value it
was captured with, or the one that it has by then if it may be evaluated more
than once. -/
structure Rereads (scene : Scene State) (low high : Nat) (operand : Operand)
    (value : Value) (state : State) (again : Value) : Prop where
  captured : operand.isReusable = false → again = value
  evaluated : operand.isReusable = true →
    scene.Denotes low high operand.expr state again state

/-- What a capture does that may bind the names from `first` to `last`: its test
has a truth value, and once it has run the operand can be read in certain states
as certain values. -/
def CaptureReads (scene : Scene State) (low high first last : Nat)
    (capture : Capture) (before : State) (truth : Bool) (after : State)
    (readable : State → Value → Prop) : Prop :=
  ∀ known, scene.IsOpen low high known → scene.IsOpen first last known →
    ∃ later, scene.Adds first last known later ∧
      Yields scene.environment known before capture.test (.boolean truth) after
        later ∧
      ∀ state value, readable state value → ∀ more, later.Within more →
        scene.IsOpen low high more →
        Yields scene.environment more state capture.value value state more

variable {operand : Operand} {course : Course State}
variable {first last : Nat} {readable : State → Value → Prop}

/-- An operand that is read again at once has its value. -/
theorem Reads.rereads (reads : scene.Reads low high operand course) :
    scene.Rereads low high operand course.value course.after course.value where
  captured _ := rfl
  evaluated reusable := by
    have denotes := reads.denotes
    rwa [← reads.still reusable] at denotes

/-- A capture that binds no name. -/
theorem captureReads_of_denotes {test valueExpr : Expr} {truth : Bool}
    (tests : scene.Denotes low high test before (.boolean truth) after)
    (reads : ∀ state value, readable state value →
      scene.Denotes low high valueExpr state value state) :
    scene.CaptureReads low high first last ⟨test, valueExpr⟩ before truth after
      readable :=
  fun known opened _ => ⟨known, .refl known, tests known opened,
    fun state value isReadable more _ => reads state value isReadable more⟩

/-- A test that binds a name makes the operand readable by the name. -/
theorem captureReads_of_update {test : Expr} {truth : Bool}
    (tests : ∀ known, scene.IsOpen low high known →
      Yields scene.environment known before test (.boolean truth) after
        (Function.update known (scene.start.nth (first + 1)) (some value))) :
    scene.CaptureReads low high first (first + 1)
      ⟨test, .identifier (scene.start.nth (first + 1))⟩ before truth after
      fun _ again => again = value := by
  intro known opened free
  refine ⟨_, adds_update ?_ value, tests known opened, ?_⟩
  · exact free (first + 1) (Nat.lt_succ_self first) (Nat.le_refl (first + 1))
  · rintro state _ rfl more within _
    exact .identifier (within _ _ (Function.update_self _ _ _))
      (scene.apart state _)

/-- An operand may be read less often than it can be. -/
theorem CaptureReads.weaken {capture : Capture} {truth : Bool}
    {less : State → Value → Prop}
    (captured : scene.CaptureReads low high first last capture before truth
      after readable)
    (implies : ∀ state value, less state value → readable state value) :
    scene.CaptureReads low high first last capture before truth after less := by
  intro known opened free
  obtain ⟨later, adds, tests, reads⟩ := captured known opened free
  exact ⟨later, adds, tests,
    fun state value isLess => reads state value (implies state value isLess)⟩

/-- `operand is var name` -/
theorem Denotes.captureAny_reads
    (denotes : scene.Denotes low high expr before value after) (count : Nat) :
    scene.start.Issues 1 count (captureAny expr) fun next capture =>
      scene.CaptureReads low high count next capture before true after
        fun _ again => again = value := by
  refine (freshName_issues scene.start count).bind ?_
  rintro _ _ - - ⟨rfl, rfl⟩
  apply CaptureNames.Issues.pure
  exact captureReads_of_update fun known opened =>
    .test_anything _ (denotes known opened)

/-- A test that binds a name unless the operand is null. -/
theorem captureReads_unlessNull {test : Expr} {truth : Bool}
    (missing : value = .null →
      scene.Denotes low high test before (.boolean truth) after)
    (present : value ≠ .null → ∀ known, scene.IsOpen low high known →
      Yields scene.environment known before test (.boolean truth) after
        (Function.update known (scene.start.nth (first + 1)) (some value))) :
    scene.CaptureReads low high first (first + 1)
      ⟨test, .identifier (scene.start.nth (first + 1))⟩ before truth after
      fun _ again => again = value ∧ again ≠ .null := by
  by_cases isNull : value = .null
  · exact captureReads_of_denotes (missing isNull)
      fun _ _ readable => absurd (readable.1.trans isNull) readable.2
  · exact (captureReads_of_update (present isNull)).weaken fun _ _ => And.left

/-- `operand is { } name`, where the operand can be read unless it is null. -/
theorem Denotes.captureValue_reads
    (denotes : scene.Denotes low high expr before value after) (count : Nat) :
    scene.start.Issues 1 count (captureValue expr) fun next capture =>
      scene.CaptureReads low high count next capture before (value != .null)
        after fun _ again => again = value ∧ again ≠ .null := by
  refine (freshName_issues scene.start count).bind ?_
  rintro _ _ - - ⟨rfl, rfl⟩
  apply CaptureNames.Issues.pure
  apply captureReads_unlessNull
  · rintro rfl known opened
    exact .test_notNull_null _ (denotes known opened)
  · intro present known opened
    rw [bne_iff_ne.mpr present]
    exact .test_notNull _ present (denotes known opened)

/-- `operand is not { } name`, where the operand can be read unless it is null.
The operand may be one that is left out. -/
theorem captureUnlessNull_reads {needed : Prop}
    (denotes : needed → scene.Denotes low high expr before value after)
    (count : Nat) :
    scene.start.Issues 1 count (captureUnlessNull expr) fun next capture =>
      needed → scene.CaptureReads low high count next capture before
        (value == .null) after fun _ again => again = value ∧ again ≠ .null := by
  refine (freshName_issues scene.start count).bind ?_
  rintro _ _ - - ⟨rfl, rfl⟩
  apply CaptureNames.Issues.pure
  intro isNeeded
  apply captureReads_unlessNull
  · rintro rfl known opened
    exact .test_missing_null _ (denotes isNeeded known opened)
  · intro present known opened
    rw [beq_eq_false_iff_ne.mpr present]
    exact .test_missing _ present (denotes isNeeded known opened)

/-- A further test of a captured operand, made once it can be read. -/
theorem CaptureReads.andThen {capture : Capture} {furtherTest : Expr}
    {truth : Bool}
    (captured : scene.CaptureReads low high first last capture before true after
      readable)
    (isReadable : readable after value)
    (isBefore : high ≤ first) (ordered : first ≤ last)
    (bounded : last < UInt32.size)
    (further : ∀ more,
      Yields scene.environment more after capture.value value after more →
      Yields scene.environment more after furtherTest (.boolean truth) after
        more) :
    scene.CaptureReads low high first last ⟨capture.test.and furtherTest,
      capture.value⟩ before truth after readable := by
  intro known opened free
  obtain ⟨later, adds, tests, reads⟩ := captured known opened free
  refine ⟨later, adds, tests.and fun _ => ?_, reads⟩
  apply further
  apply reads after value isReadable later (.refl later)
  exact opened.adds adds (.inl isBefore) (by omega) bounded

/-- Once an operand is captured, it can be read again in every wider interval
that ends before the name of the capture. -/
theorem CaptureReads.run {outerLow outerHigh limit : Nat} {capture : Capture}
    {truth : Bool}
    (captured : scene.CaptureReads low high first last capture before truth
      after readable)
    (opened : scene.IsOpen outerLow limit known) (above : outerLow ≤ low)
    (inner : low ≤ high) (below : high ≤ outerHigh)
    (isBefore : outerHigh ≤ first) (ordered : first ≤ last)
    (enough : last ≤ limit) (room : last ≤ outerHigh + 2)
    (bounded : outerHigh + 2 < UInt32.size) :
    ∃ later, scene.Adds first last known later ∧
      scene.IsOpen outerLow outerHigh later ∧
      Yields scene.environment known before capture.test (.boolean truth) after
        later ∧
      ∀ state value, readable state value → ∀ more, later.Within more →
        scene.IsOpen outerLow outerHigh more →
        Yields scene.environment more state capture.value value state more := by
  obtain ⟨later, adds, test, again⟩ :=
    captured known (opened.narrow above (by omega))
      (opened.narrow (by omega) enough)
  refine ⟨later, adds, ?_, test, ?_⟩
  · exact (opened.narrow (Nat.le_refl outerLow) (by omega)).adds adds
      (.inl isBefore) (by omega) (by omega)
  · intro state value isReadable more within stillOpen
    exact again state value isReadable more within (stillOpen.narrow above below)

theorem captureForMissingValue_reads {needed : Prop}
    (reads : needed → scene.Reads low high operand course) (count : Nat) :
    scene.start.Issues 1 count (captureForMissingValue operand)
      fun next capture => needed →
        scene.CaptureReads low high count next capture course.before
          (course.value == .null) course.after fun state again =>
            again = course.value ∧ again ≠ .null ∧
              scene.Rereads low high operand course.value state again := by
  unfold captureForMissingValue
  split
  · next reusable =>
      apply CaptureNames.Issues.pure
      intro isNeeded
      apply captureReads_of_denotes
      · exact fun more opened =>
          ((reads isNeeded).denotes more opened).hasNoValue
      · exact fun state again isReadable more opened =>
          (isReadable.2.2.evaluated reusable more opened).getValue
            isReadable.2.1
  · exact (captureUnlessNull_reads (fun isNeeded => (reads isNeeded).denotes)
      count).weaken (Nat.le_refl 1) fun _ _ _ _ captured isNeeded =>
        (captured isNeeded).weaken fun _ _ readable =>
          ⟨readable.1, readable.2.1⟩

section

variable (reads : scene.Reads low high operand course) {count : Nat}
variable (isBefore : high ≤ count) (bounded : count + 1 < UInt32.size)

include reads isBefore bounded

/-- The operand is tested, and can be read again later. -/
theorem Reads.captureTested_reads {test : Expr → Expr} {truth : Bool}
    (tests : ∀ {expr known before after later},
      Yields scene.environment known before expr course.value after later →
      Yields scene.environment known before (test expr) (.boolean truth) after
        later) :
    scene.start.Issues 1 count (captureTested test operand) fun next capture =>
      scene.CaptureReads low high count next capture course.before truth
        course.after (scene.Rereads low high operand course.value) := by
  refine captureTested_issues (fun reusable => ?_) fun notReusable => ?_
  · apply captureReads_of_denotes
    · exact fun more opened => tests (reads.denotes more opened)
    · exact fun state again rereads => rereads.evaluated reusable
  · refine (reads.denotes.captureAny_reads count).weaken (Nat.le_refl 1) ?_
    intro next captured above below capturedReads
    exact (capturedReads.andThen rfl isBefore above (by omega)
      fun more yields => tests yields).weaken
        fun _ _ rereads => rereads.captured notReusable

theorem Reads.captureForFalseTest_reads :
    scene.start.Issues 1 count (captureForFalseTest operand) fun next capture =>
      scene.CaptureReads low high count next capture course.before
        (course.value == .boolean false) course.after
        (scene.Rereads low high operand course.value) :=
  reads.captureTested_reads isBefore bounded fun yields => yields.equalsFalse

theorem Reads.captureForMissingTest_reads :
    scene.start.Issues 1 count (captureForMissingTest operand)
      fun next capture =>
        scene.CaptureReads low high count next capture course.before
          (course.value == .null) course.after
          (scene.Rereads low high operand course.value) :=
  reads.captureTested_reads isBefore bounded fun yields => yields.hasNoValue

end

/-! ## Results -/

/-- What is known about a converted expression that binds names of an
interval. -/
structure Restates (scene : Scene State) (low high : Nat) (lowered : Lowered)
    (before : State) (value : Value) (after : State) : Prop where
  denotes : scene.Denotes low high lowered.expr before value after
  notNull : lowered.notNull = true → value ≠ .null

theorem Denotes.plain
    (denotes : scene.Denotes low high expr before value after) :
    scene.Restates low high (.plain expr) before value after where
  denotes := denotes
  notNull := nofun

theorem Denotes.proven {truth : Bool}
    (denotes : scene.Denotes low high expr before (.boolean truth) after) :
    scene.Restates low high (.proven expr) before (.boolean truth) after where
  denotes := denotes
  notNull := nofun

/-- A constant that is written with a cast has the same value. -/
theorem nullableConstant_yields {environment : Environment State} (site : Site)
    (isLogical : value.isLogical = true)
    (yields : Yields environment known before expr value before known) :
    Yields environment known before (site.nullableConstant expr) value
      before known := by
  unfold Site.nullableConstant
  split
  · exact yields.cast isLogical
  · exact yields

theorem nullableNull_yields {environment : Environment State} (site : Site)
    (known : Knowledge) (state : State) :
    Yields environment known state site.nullableNull .null state known :=
  nullableConstant_yields site rfl .null

theorem nullableTrue_yields {environment : Environment State} (site : Site)
    (known : Knowledge) (state : State) :
    Yields environment known state site.nullableTrue (.boolean true) state
      known :=
  nullableConstant_yields site rfl (.boolean true)

theorem nullableFalse_yields {environment : Environment State} (site : Site)
    (known : Knowledge) (state : State) :
    Yields environment known state site.nullableFalse (.boolean false)
      state known :=
  nullableConstant_yields site rfl (.boolean false)

/-! ## Two operands -/

/-- The operands of an operator, of which the right one may be left out. The
names of the left one are issued before those of the right one, and there is
room for two more. -/
structure Sides (scene : Scene State) (low middle high : Nat)
    (left right : Operand) (leftCourse rightCourse : Course State)
    (needed : Prop) : Prop where
  left : scene.Reads low middle left leftCourse
  right : needed → scene.Reads middle high right rightCourse
  above : low ≤ middle
  below : middle ≤ high
  bounded : high + 2 < UInt32.size

namespace Sides

variable {middle : Nat} {left right : Operand}
variable {leftCourse rightCourse : Course State} {needed : Prop}
variable (sides : scene.Sides low middle high left right leftCourse rightCourse
  needed)

include sides

theorem leftYields {next : Nat} {known : Knowledge} (enough : high ≤ next)
    (opened : scene.IsOpen low next known) :
    Yields scene.environment known leftCourse.before left.expr leftCourse.value
      leftCourse.after known :=
  sides.left.denotes known
    (opened.narrow (Nat.le_refl low) (sides.below.trans enough))

theorem rightYields {next : Nat} {known : Knowledge} (isNeeded : needed)
    (enough : high ≤ next) (opened : scene.IsOpen low next known) :
    Yields scene.environment known rightCourse.before right.expr
      rightCourse.value rightCourse.after known :=
  (sides.right isNeeded).denotes known (opened.narrow sides.above enough)

/-- Once the left operand is captured, it can be read again as long as the
names of both operands are free. -/
theorem leftCaptured {first last limit : Nat} {capture : Capture} {truth : Bool}
    {readable : State → Value → Prop}
    (captured : scene.CaptureReads low middle first last capture
      leftCourse.before truth leftCourse.after readable)
    (isBefore : high ≤ first) (ordered : first ≤ last) (enough : last ≤ limit)
    (bounded : last ≤ high + 2) {known : Knowledge}
    (opened : scene.IsOpen low limit known) :
    ∃ later, scene.Adds first last known later ∧
      scene.IsOpen low high later ∧
      Yields scene.environment known leftCourse.before capture.test
        (.boolean truth) leftCourse.after later ∧
      ∀ state value, readable state value → ∀ more, later.Within more →
        scene.IsOpen low high more →
        Yields scene.environment more state capture.value value state more :=
  captured.run opened (Nat.le_refl low) sides.above sides.below isBefore ordered
    enough bounded sides.bounded

/-- The same for the right operand. -/
theorem rightCaptured {first last limit : Nat} {capture : Capture}
    {truth : Bool} {readable : State → Value → Prop}
    (captured : scene.CaptureReads middle high first last capture
      rightCourse.before truth rightCourse.after readable)
    (isBefore : high ≤ first) (ordered : first ≤ last) (enough : last ≤ limit)
    (bounded : last ≤ high + 2) {known : Knowledge}
    (opened : scene.IsOpen low limit known) :
    ∃ later, scene.Adds first last known later ∧
      scene.IsOpen low high later ∧
      Yields scene.environment known rightCourse.before capture.test
        (.boolean truth) rightCourse.after later ∧
      ∀ state value, readable state value → ∀ more, later.Within more →
        scene.IsOpen low high more →
        Yields scene.environment more state capture.value value state more :=
  captured.run opened sides.above sides.below (Nat.le_refl high) isBefore
    ordered enough bounded sides.bounded

end Sides

end Scene

end BasicLowering.Lowering
