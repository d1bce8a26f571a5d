import BasicLowering.Proofs.Lowering.Comparisons
import BasicLowering.Proofs.Lowering.Visits
import BasicLowering.Proofs.Target.Scope

/-!
# What templates are assembled from

A template holds each place of its operands, binds each name that it issues once,
and reads these names. What it holds beyond that are copies of operands that may be
evaluated more than once. If its operands read captures in their scope only, so does
the template.
-/

namespace BasicLowering.Lowering

open Target (Expr Occurrence Scoped Closed)

/-! ## Places that are kept -/

/-- Whether a list holds all parts, as often as they occur, and beyond them only
what is extra. -/
def Covers (isExtra : Occurrence → Prop) (parts whole : List Occurrence) : Prop :=
  ∀ place, parts.count place ≤ whole.count place ∧
    (¬ isExtra place → whole.count place = parts.count place)

/-- Whether a place need not be one of the parts of a template: a read of one of its
names, or a place of an operand that may be evaluated more than once. -/
def IsExtra (operands : List Operand) (names : List String)
    (place : Occurrence) : Prop :=
  (∃ name ∈ names, place = .reads name) ∨
    ∃ operand ∈ operands, operand.isReusable = true ∧
      place ∈ operand.expr.occurrences

/-- The parts of a template: the places of its operands, and the patterns that bind
its names. -/
def partsOf (operands : List Operand) (names : List String) :
    List Occurrence :=
  operands.flatMap (·.expr.occurrences) ++ names.map .binds

section

variable {isExtra : Occurrence → Prop} {parts whole : List Occurrence}
variable {operands : List Operand} {operand : Operand} {names more : List String}
variable {place : Occurrence}

theorem Covers.refl : Covers isExtra parts parts :=
  fun _ => ⟨Nat.le_refl _, fun _ => rfl⟩

theorem Covers.mem_iff (covers : Covers isExtra parts whole)
    (known : isExtra place → place ∈ parts) : place ∈ whole ↔ place ∈ parts := by
  obtain ⟨atLeast, same⟩ := covers place
  simp only [← List.count_pos_iff]
  constructor
  · intro occurs
    by_cases extra : isExtra place
    · exact List.count_pos_iff.mpr (known extra)
    · exact same extra ▸ occurs
  · exact fun occurs => Nat.lt_of_lt_of_le occurs atLeast

/-- What is extra for some operands and names is extra for more of them. -/
theorem IsExtra.mono {others : List Operand}
    (extra : IsExtra operands names place) (fewer : operands ⊆ others)
    (fewerNames : names ⊆ more) : IsExtra others more place :=
  extra.imp (fun ⟨name, member, same⟩ => ⟨name, fewerNames member, same⟩)
    fun ⟨operand, member, copied⟩ => ⟨operand, fewer member, copied⟩

theorem isExtra_reads {name : String} (member : name ∈ names) :
    IsExtra operands names (.reads name) :=
  .inl ⟨name, member, rfl⟩

theorem isExtra_copy (member : operand ∈ operands)
    (reusable : operand.isReusable = true)
    (occurs : place ∈ operand.expr.occurrences) :
    IsExtra operands names place :=
  .inr ⟨operand, member, reusable, occurs⟩

theorem count_eq_zero_of_extra (allExtra : ∀ place ∈ whole, isExtra place)
    (notExtra : ¬ isExtra place) : whole.count place = 0 :=
  List.count_eq_zero.mpr fun member => notExtra (allExtra place member)

end

/-- Whether a template is assembled from its operands and some names. -/
structure Assembled (operands : List Operand) (names : List String)
    (expr : Expr) : Prop where
  covers : Covers (IsExtra operands names) (partsOf operands names)
    expr.occurrences
  closed : ∀ isCapture, (∀ operand ∈ operands, Closed isCapture operand.expr) →
    Closed isCapture expr

section

variable {operands : List Operand} {names : List String} {expr : Expr}
variable {name : String}

/-- A template binds what its operands bind, and its names. -/
theorem Assembled.binds_iff (assembled : Assembled operands names expr) :
    .binds name ∈ expr.occurrences ↔
      .binds name ∈ operands.flatMap (·.expr.occurrences) ∨ name ∈ names := by
  have isPart : IsExtra operands names (.binds name) →
      .binds name ∈ partsOf operands names := by
    rintro (⟨_, -, ⟨⟩⟩ | ⟨operand, isOperand, -, occurs⟩)
    exact List.mem_append_left _ (List.mem_flatMap.mpr ⟨_, isOperand, occurs⟩)
  simp [assembled.covers.mem_iff isPart, partsOf]

/-- A template reads what its operands read. -/
theorem Assembled.reads (assembled : Assembled operands names expr)
    (member : .reads name ∈ operands.flatMap (·.expr.occurrences)) :
    .reads name ∈ expr.occurrences := by
  have occurs := List.count_pos_iff.mpr
    (List.mem_append_left (names.map Occurrence.binds) member)
  exact List.count_pos_iff.mp
    (Nat.lt_of_lt_of_le occurs (assembled.covers (.reads name)).1)

/-- What a template reads, its operands read, or it is one of its names. -/
theorem Assembled.of_reads (assembled : Assembled operands names expr)
    (member : .reads name ∈ expr.occurrences) :
    .reads name ∈ operands.flatMap (·.expr.occurrences) ∨ name ∈ names := by
  by_cases extra : IsExtra operands names (.reads name)
  · obtain ⟨_, isName, ⟨⟩⟩ | ⟨operand, isOperand, -, occurs⟩ := extra
    · exact .inr isName
    · exact .inl (List.mem_flatMap.mpr ⟨operand, isOperand, occurs⟩)
  · have isPart := (assembled.covers.mem_iff (absurd · extra)).mp member
    simp only [partsOf, List.mem_append, List.mem_map] at isPart
    obtain occurs | ⟨_, _, ⟨⟩⟩ := isPart
    exact .inl occurs

end

/-! ## Captures -/

/-- Whether the test of a capture holds the places of an operand and binds the
names, some when it is true and some when it is false, and the value that is used
from then on needs these names only. -/
structure Provides (operand : Operand) (names : List String) (capture : Capture)
    (whenTrue whenFalse : List String) : Prop where
  test : Covers (IsExtra [operand] names) (partsOf [operand] names)
    capture.test.occurrences
  value : ∀ place ∈ capture.value.occurrences, IsExtra [operand] names place
  scope : ∀ isCapture known, Closed isCapture operand.expr →
    Scoped isCapture known capture.test whenTrue whenFalse ∧
      ∀ more, names ⊆ more → Scoped isCapture more capture.value [] []

section

variable {start : CaptureNames} {operand : Operand} {expr : Expr} {count : Nat}

/-- A test that binds a name, which is used from then on. The names that are
bound where the test is true, and where it is false, are given by all of them. -/
theorem issues_provides {pattern : String → Target.Pattern}
    (whenTrue whenFalse : List String → List String)
    (binds : ∀ name, (pattern name).bound = [name])
    (scope : ∀ {isCapture known name}, Closed isCapture operand.expr →
      Scoped isCapture known (.test operand.expr (pattern name))
        (whenTrue [name]) (whenFalse [name])) :
    start.Issues 1 count
      (freshName >>= fun name =>
        return ⟨.test operand.expr (pattern name), .identifier name⟩)
      fun next (capture : Capture) =>
        Provides operand (start.between count next) capture
          (whenTrue (start.between count next))
          (whenFalse (start.between count next)) := by
  refine (freshName_issues start count).bind ?_
  rintro name _ - - ⟨rfl, rfl⟩
  apply CaptureNames.Issues.pure
  rw [CaptureNames.between_next]
  refine ⟨?_, fun place member => ?_, fun isCapture known closed =>
    ⟨scope closed, fun _ isKnown =>
      Target.scoped_identifier fun _ => isKnown List.mem_cons_self⟩⟩
  · simpa [partsOf, Expr.occurrences, binds] using Covers.refl
  · simp only [Expr.occurrences, List.mem_singleton] at member
    exact member ▸ isExtra_reads List.mem_cons_self

theorem captureAny_provides :
    start.Issues 1 count (captureAny operand.expr) fun next capture =>
      Provides operand (start.between count next) capture
        (start.between count next) (start.between count next) :=
  issues_provides id id (fun _ => rfl) fun closed => closed.anywhere.testAnything

theorem captureValue_provides :
    start.Issues 1 count (captureValue operand.expr) fun next capture =>
      Provides operand (start.between count next) capture
        (start.between count next) [] :=
  issues_provides id (fun _ => []) (fun _ => rfl) fun closed =>
    closed.anywhere.testNotNull

theorem captureUnlessNull_provides :
    start.Issues 1 count (captureUnlessNull operand.expr) fun next capture =>
      Provides operand (start.between count next) capture []
        (start.between count next) :=
  issues_provides (fun _ => []) id (fun _ => rfl) fun closed =>
    closed.anywhere.testNull

/-- A test of an operand that may be evaluated more than once. -/
theorem provides_of_reusable {test value : Expr}
    (reusable : operand.isReusable = true)
    (sameTest : test.occurrences = operand.expr.occurrences)
    (sameValue : value.occurrences = operand.expr.occurrences)
    (scope : ∀ isCapture known, Closed isCapture operand.expr →
      Scoped isCapture known test [] [] ∧
        ∀ more, Scoped isCapture more value [] []) :
    Provides operand [] ⟨test, value⟩ [] [] where
  test := by
    simpa [partsOf, sameTest] using Covers.refl
  value := fun place member =>
    isExtra_copy List.mem_cons_self reusable (sameValue ▸ member)
  scope isCapture known closed :=
    ⟨(scope isCapture known closed).1, fun more _ =>
      (scope isCapture known closed).2 more⟩

/-- A further test of what has been captured whatever its value. -/
theorem Provides.andThen {names : List String} {capture : Capture}
    {furtherTest : Expr}
    (provides : Provides operand names capture names names)
    (same : furtherTest.occurrences = capture.value.occurrences)
    (scope : ∀ isCapture known, Scoped isCapture known capture.value [] [] →
      Scoped isCapture known furtherTest [] []) :
    Provides operand names ⟨capture.test.and furtherTest, capture.value⟩ names
      names where
  test := by
    intro place
    have covers := provides.test place
    have extras : ¬ IsExtra [operand] names place →
        capture.value.occurrences.count place = 0 :=
      count_eq_zero_of_extra provides.value
    simp only [Expr.occurrences_and, same, List.count_append]
    exact ⟨by omega, fun notExtra => by
      have := covers.2 notExtra
      have := extras notExtra
      omega⟩
  value := provides.value
  scope isCapture known closed := by
    obtain ⟨test, value⟩ := provides.scope isCapture known closed
    have further := scope isCapture (known ++ names)
      (value _ (List.subset_append_right known names))
    have both := test.and further (List.Subset.refl names)
      (List.subset_append_left names [])
    rw [List.append_nil] at both
    exact ⟨both, value⟩

theorem captureTested_provides {test : Expr → Expr}
    (same : ∀ expr : Expr, (test expr).occurrences = expr.occurrences)
    (scope : ∀ {isCapture known} {expr : Expr},
      Scoped isCapture known expr [] [] →
      Scoped isCapture known (test expr) [] []) :
    start.Issues 1 count (captureTested test operand) fun next capture =>
      Provides operand (start.between count next) capture
        (start.between count next) (start.between count next) := by
  refine captureTested_issues (fun reusable => ?_) fun _ => ?_
  · rw [CaptureNames.between_self]
    exact provides_of_reusable reusable (same operand.expr) rfl
      fun _ _ closed => ⟨scope closed.anywhere, fun _ => closed.anywhere⟩
  · refine captureAny_provides.weaken (Nat.le_refl 1) ?_
    intro next capture _ _ provides
    exact provides.andThen (same capture.value) fun _ _ inner => scope inner

theorem captureForFalseTest_provides :
    start.Issues 1 count (captureForFalseTest operand) fun next capture =>
      Provides operand (start.between count next) capture
        (start.between count next) (start.between count next) :=
  captureTested_provides Expr.occurrences_equalsFalse fun scope => scope.equalsFalse

theorem captureForMissingTest_provides :
    start.Issues 1 count (captureForMissingTest operand) fun next capture =>
      Provides operand (start.between count next) capture
        (start.between count next) (start.between count next) :=
  captureTested_provides Expr.occurrences_hasNoValue fun scope => scope.hasNoValue

theorem captureForMissingValue_provides :
    start.Issues 1 count (captureForMissingValue operand) fun next capture =>
      Provides operand (start.between count next) capture []
        (start.between count next) := by
  unfold captureForMissingValue
  split
  · next reusable =>
      apply CaptureNames.Issues.pure
      rw [CaptureNames.between_self]
      exact provides_of_reusable reusable (by simp) (by simp) fun _ _ closed =>
        ⟨closed.anywhere.hasNoValue, fun _ => closed.anywhere.getValue⟩
  · exact captureUnlessNull_provides

end

/-! ## Logical operators -/

/-- Further places may be added that are extra. -/
theorem Covers.withExtra {isExtra : Occurrence → Prop}
    {parts whole extra all : List Occurrence}
    (covers : Covers isExtra parts whole)
    (allExtra : ∀ place ∈ extra, isExtra place)
    (same : all.Perm (whole ++ extra)) : Covers isExtra parts all := by
  intro place
  obtain ⟨atLeast, exactly⟩ := covers place
  rw [same.count_eq, List.count_append]
  refine ⟨by omega, fun notExtra => ?_⟩
  rw [exactly notExtra, count_eq_zero_of_extra allExtra notExtra,
    Nat.add_zero]

section

variable {left right : Operand} {leftCapture rightCapture : Capture}
variable {leftNames rightNames names leftTrue leftFalse : List String}
variable {rightTrue rightFalse : List String}

/-- A captured operand next to another one as it is. -/
theorem Provides.covers_beside {operand other : Operand} {capture : Capture}
    {whenTrue whenFalse : List String}
    (provides : Provides operand names capture whenTrue whenFalse) :
    Covers (IsExtra [operand, other] names) (partsOf [operand, other] names)
      (capture.test.occurrences ++ other.expr.occurrences) := by
  intro place
  obtain ⟨atLeast, exactly⟩ := provides.test place
  simp only [partsOf, List.flatMap_cons, List.flatMap_nil, List.append_nil,
    List.count_append] at *
  refine ⟨by omega, fun notExtra => ?_⟩
  have := exactly fun extra => notExtra
    (extra.mono (by simp) (List.Subset.refl names))
  omega

/-- Two captured operands. -/
theorem Provides.covers_both
    (first : Provides left leftNames leftCapture leftTrue leftFalse)
    (second : Provides right rightNames rightCapture rightTrue rightFalse)
    (together : names.Perm (leftNames ++ rightNames)) :
    Covers (IsExtra [left, right] names) (partsOf [left, right] names)
      (leftCapture.test.occurrences ++ rightCapture.test.occurrences) := by
  intro place
  obtain ⟨leftLeast, leftExactly⟩ := first.test place
  obtain ⟨rightLeast, rightExactly⟩ := second.test place
  have bound := (together.map Occurrence.binds).count_eq place
  simp only [partsOf, List.flatMap_cons, List.flatMap_nil, List.append_nil,
    List.count_append, List.map_append] at *
  refine ⟨by omega, fun notExtra => ?_⟩
  have := leftExactly fun extra => notExtra
    (extra.mono (by simp) fun _ member =>
      together.mem_iff.mpr (List.mem_append_left _ member))
  have := rightExactly fun extra => notExtra
    (extra.mono (by simp) fun _ member =>
      together.mem_iff.mpr (List.mem_append_right _ member))
  omega

end

/-- Wherever the value of a captured operand is used, it is extra. -/
theorem Provides.isExtra {operand : Operand} {operands : List Operand}
    {names all whenTrue whenFalse : List String} {capture : Capture}
    {place : Occurrence}
    (provides : Provides operand names capture whenTrue whenFalse)
    (isOperand : operand ∈ operands) (fewer : names ⊆ all)
    (member : place ∈ capture.value.occurrences) :
    IsExtra operands all place :=
  (provides.value place member).mono (by simpa using isOperand) fewer

theorem Assembled.equalsTrue {operands : List Operand} {names : List String}
    {expr : Expr} (assembled : Assembled operands names expr) :
    Assembled operands names expr.equalsTrue where
  covers := by
    simpa using assembled.covers
  closed isCapture closed := (assembled.closed isCapture closed).equalsTrue

/-- Two operands put together by an operator. -/
theorem assembled_of_same {left right : Operand} {expr : Expr}
    (same : expr.occurrences = left.expr.occurrences ++ right.expr.occurrences)
    (closed : ∀ isCapture, Closed isCapture left.expr →
      Closed isCapture right.expr → Closed isCapture expr) :
    Assembled [left, right] [] expr where
  covers := by
    simpa [partsOf, same] using Covers.refl
  closed isCapture closedOperands := by
    simp only [List.forall_mem_cons] at closedOperands
    exact closed isCapture closedOperands.1 closedOperands.2.1

section

variable {start : CaptureNames} {left right : Operand} {count : Nat}
variable (site : Site)

@[simp] theorem occurrences_nullableConstant (value : Expr) :
    (site.nullableConstant value).occurrences = value.occurrences := by
  unfold Site.nullableConstant
  split
  · simp only [Expr.occurrences]
  · rfl

theorem scoped_nullableConstant {isCapture : String → Prop}
    {known : List String} {value : Expr}
    (scope : Scoped isCapture known value [] []) :
    Scoped isCapture known (site.nullableConstant value) [] [] := by
  unfold Site.nullableConstant
  split
  · exact scope.cast
  · exact scope

@[simp] theorem occurrences_collapsed (operand : Operand) :
    operand.collapsed.occurrences = operand.expr.occurrences := by
  unfold Operand.collapsed
  split <;> simp

theorem scoped_collapsed {isCapture : String → Prop} {known : List String}
    {operand : Operand} (scope : Scoped isCapture known operand.expr [] []) :
    Scoped isCapture known operand.collapsed [] [] := by
  unfold Operand.collapsed
  split
  · exact scope.equalsTrue
  · exact scope

theorem collapsedDisjunction_assembled :
    start.Issues 2 count (collapsedDisjunction left right)
      fun next lowered =>
        Assembled [left, right] (start.between count next) lowered.expr := by
  unfold collapsedDisjunction
  split
  all_goals
    apply CaptureNames.Issues.pure
    rw [CaptureNames.between_self]
    refine assembled_of_same (by simp [Lowered.proven]) ?_
    intro isCapture closedLeft closedRight
  · exact closedLeft.binary closedRight.equalsTrue
  · exact closedLeft.equalsTrue.binary (scoped_collapsed closedRight)

/-- The name of the left operand is known when it is used: its test has come to
false by then. -/
theorem conjunctionOfBoth_assembled :
    start.Issues 2 count (site.conjunctionOfBoth left right) fun next expr =>
      Assembled [left, right] (start.between count next) expr := by
  refine captureForMissingValue_provides.bind ?_
  rintro rightCapture middle above - rightProvides
  refine captureForFalseTest_provides.bind ?_
  rintro leftCapture next aboveMiddle - leftProvides
  apply CaptureNames.Issues.pure
  rw [← start.between_append above aboveMiddle]
  constructor
  · refine (leftProvides.covers_both rightProvides
      List.perm_append_comm).withExtra (List.forall_mem_append.mpr
        ⟨fun place => rightProvides.isExtra (by simp) (by simp),
          fun place => leftProvides.isExtra (by simp) (by simp)⟩) ?_
    refine List.perm_iff_count.mpr fun place => ?_
    simp only [Expr.occurrences, Site.nullableFalse, Site.nullableNull,
      occurrences_nullableConstant, List.count_append, List.count_nil]
    omega
  · intro isCapture closed
    simp only [List.forall_mem_cons] at closed
    obtain ⟨leftTest, leftValue⟩ := leftProvides.scope isCapture [] closed.1
    obtain ⟨rightTest, rightValue⟩ := rightProvides.scope isCapture
      ([] ++ start.between middle next) closed.2.1
    refine leftTest.conditional
      (scoped_nullableConstant site Target.scoped_boolean)
      (rightTest.conditional (scoped_nullableConstant site Target.scoped_null)
        ?_)
    exact (rightValue _ (by simp)).conditional (leftValue _ (by simp))
      (scoped_nullableConstant site Target.scoped_boolean)

theorem collapsedConjunction_assembled :
    start.Issues 2 count (site.collapsedConjunction left right)
      fun next lowered =>
        Assembled [left, right] (start.between count next) lowered.expr := by
  unfold Site.collapsedConjunction
  split
  · apply CaptureNames.Issues.pure
    rw [CaptureNames.between_self]
    exact assembled_of_same (by simp [Lowered.proven])
      fun _ closedLeft closedRight => closedLeft.binary closedRight.equalsTrue
  split
  · apply CaptureNames.Issues.pure
    rw [CaptureNames.between_self]
    exact assembled_of_same (by simp [Lowered.proven])
      fun _ closedLeft closedRight =>
        closedLeft.equalsTrue.binary (scoped_collapsed closedRight)
  split
  · refine (captureForMissingTest_provides.bind ?_).weaken
      (Nat.le_succ (0 + 1)) fun _ _ _ _ is => is
    rintro capture next - - provides
    apply CaptureNames.Issues.pure
    constructor
    · refine provides.covers_beside.withExtra (List.forall_mem_append.mpr
        ⟨fun place => provides.isExtra (by simp) (by simp),
          fun place => provides.isExtra (by simp) (by simp)⟩) ?_
      refine List.perm_iff_count.mpr fun place => ?_
      simp only [Lowered.proven, Expr.occurrences_and, Expr.occurrences_or,
        Expr.occurrences_getValue, Expr.occurrences_hasValue, List.count_append]
      omega
    · intro isCapture closed
      simp only [List.forall_mem_cons] at closed
      obtain ⟨test, value⟩ := provides.scope isCapture [] closed.1
      have asked := test.or (value _ (by simp)).getValue
        (List.Subset.refl (start.between count next)) (by simp)
      have taken := asked.and closed.2.1.anywhere (List.nil_subset _)
        (List.nil_subset _)
      exact (taken.and (value _ (by simp)).hasValue (List.nil_subset _)
        (List.nil_subset _)).untested
  · refine ((conjunctionOfBoth_assembled site).bind ?_).weaken (Nat.le_refl 2)
      fun _ _ _ _ is => is
    rintro conjunction next - - assembled
    apply CaptureNames.Issues.pure
    exact assembled.equalsTrue

theorem conjunction_assembled :
    start.Issues 2 count (site.conjunction left right) fun next lowered =>
      Assembled [left, right] (start.between count next) lowered.expr := by
  unfold Site.conjunction
  split
  · apply CaptureNames.Issues.pure
    rw [CaptureNames.between_self]
    exact assembled_of_same
      (by simp [Lowered.plain, Expr.occurrences, Site.nullableFalse])
      fun _ closedLeft closedRight => closedLeft.anywhere.conditional
        closedRight.anywhere
        (scoped_nullableConstant site Target.scoped_boolean)
  split
  · refine (captureForFalseTest_provides.bind ?_).weaken
      (Nat.le_succ (0 + 1)) fun _ _ _ _ is => is
    rintro capture next - - provides
    apply CaptureNames.Issues.pure
    constructor
    · refine provides.covers_beside.withExtra
        (fun place => provides.isExtra (by simp) (by simp)) ?_
      refine List.perm_iff_count.mpr fun place => ?_
      simp only [Lowered.plain, Expr.occurrences, Site.nullableFalse,
        occurrences_nullableConstant, List.count_append, List.count_nil]
      omega
    · intro isCapture closed
      simp only [List.forall_mem_cons] at closed
      obtain ⟨test, value⟩ := provides.scope isCapture [] closed.1
      refine test.conditional
        (scoped_nullableConstant site Target.scoped_boolean)
        (closed.2.1.anywhere.conditional (value _ (by simp))
          (scoped_nullableConstant site Target.scoped_boolean))
  · refine ((conjunctionOfBoth_assembled site).bind ?_).weaken (Nat.le_refl 2)
      fun _ _ _ _ is => is
    rintro conjunction next - - assembled
    exact CaptureNames.Issues.pure assembled

theorem disjunction_assembled :
    start.Issues 2 count (site.disjunction left right) fun next lowered =>
      Assembled [left, right] (start.between count next) lowered.expr := by
  unfold Site.disjunction
  split
  · apply CaptureNames.Issues.pure
    rw [CaptureNames.between_self]
    exact assembled_of_same
      (by simp [Lowered.plain, Expr.occurrences, Site.nullableTrue])
      fun _ closedLeft closedRight => closedLeft.anywhere.conditional
        (scoped_nullableConstant site Target.scoped_boolean)
        closedRight.anywhere
  refine captureAny_provides.bind ?_
  rintro leftCapture middle above - leftProvides
  split
  · rw [pure_bind]
    apply CaptureNames.Issues.pure
    constructor
    · refine leftProvides.covers_beside.withExtra (List.forall_mem_append.mpr
        ⟨fun place => leftProvides.isExtra (by simp) (by simp),
          fun place => leftProvides.isExtra (by simp) (by simp)⟩) ?_
      refine List.perm_iff_count.mpr fun place => ?_
      simp only [Lowered.plain, Expr.occurrences, Expr.occurrences_and,
        Expr.occurrences_equalsTrue, Site.nullableTrue,
        occurrences_nullableConstant, List.count_append, List.count_nil]
      omega
    · intro isCapture closed
      simp only [List.forall_mem_cons] at closed
      obtain ⟨test, value⟩ := leftProvides.scope isCapture [] closed.1
      have tested := test.and (value _ (by simp)).equalsTrue
        (List.Subset.refl (start.between count middle)) (by simp)
      exact tested.conditional
        (scoped_nullableConstant site Target.scoped_boolean)
        (closed.2.1.anywhere.conditional
          (scoped_nullableConstant site Target.scoped_boolean)
          (value _ (by simp)))
  · simp only [pure_bind]
    refine captureUnlessNull_provides.bind ?_
    rintro rightCapture next aboveMiddle - rightProvides
    apply CaptureNames.Issues.pure
    rw [← start.between_append above aboveMiddle]
    constructor
    · refine (leftProvides.covers_both rightProvides
        (List.Perm.refl _)).withExtra (List.forall_mem_append.mpr
        ⟨fun place => rightProvides.isExtra (by simp) (by simp),
          List.forall_mem_append.mpr
            ⟨fun place => leftProvides.isExtra (by simp) (by simp),
              fun place => leftProvides.isExtra (by simp) (by simp)⟩⟩) ?_
      refine List.perm_iff_count.mpr fun place => ?_
      simp only [Lowered.plain, Expr.occurrences, Expr.occurrences_and,
        Expr.occurrences_equalsTrue, Site.nullableTrue, Site.nullableNull,
        occurrences_nullableConstant, List.count_append, List.count_nil]
      omega
    · intro isCapture closed
      simp only [List.forall_mem_cons] at closed
      obtain ⟨test, value⟩ := leftProvides.scope isCapture [] closed.1
      have tested := test.and (value _ (by simp)).equalsTrue
        (List.Subset.refl (start.between count middle)) (by simp)
      obtain ⟨rightTest, rightValue⟩ := rightProvides.scope isCapture
        ([] ++ start.between count middle) closed.2.1
      exact tested.conditional
        (scoped_nullableConstant site Target.scoped_boolean)
        (rightTest.conditional
          (scoped_nullableConstant site Target.scoped_null)
          ((rightValue _ (by simp)).conditional
            (scoped_nullableConstant site Target.scoped_boolean)
            (value _ (by simp))))

end

/-! ## Comparisons -/

/-- Whether tests run one after another, each with what the earlier ones have
bound, until all of the given names are known. -/
inductive ScopedTests (isCapture : String → Prop) (names : List String) :
    List String → List Expr → Prop where
  | done {known : List String} (all : names ⊆ known) :
      ScopedTests isCapture names known []
  | next {known whenTrue : List String} {test : Expr} {rest : List Expr}
      (scope : Scoped isCapture known test whenTrue [])
      (others : ScopedTests isCapture names (known ++ whenTrue) rest) :
      ScopedTests isCapture names known (test :: rest)

section

variable {isCapture : String → Prop} {names known bound : List String}
variable {first joined : Expr} {tests rest : List Expr}

theorem ScopedTests.scoped_foldl (before : Scoped isCapture known first bound [])
    (tests : ScopedTests isCapture names (known ++ bound) rest) :
    ∃ all, names ⊆ known ++ all ∧
      Scoped isCapture known (rest.foldl Expr.and first) all [] := by
  induction rest generalizing first bound with
  | nil =>
      cases tests with
      | done all => exact ⟨bound, all, before⟩
  | cons test rest ih =>
      cases tests with
      | next scope others =>
          rw [List.append_assoc] at others
          exact ih (before.and scope (List.nil_subset _) (List.nil_subset _))
            others

/-- Once the joined tests are true, all names are known. -/
theorem ScopedTests.scoped_joined (inRow : ScopedTests isCapture names known tests)
    (isJoined : joinTests? tests = some joined) :
    ∃ all, names ⊆ known ++ all ∧ Scoped isCapture known joined all [] := by
  cases inRow with
  | done => cases isJoined
  | next scope others =>
      cases isJoined
      exact others.scoped_foldl scope

theorem occurrences_joined (isJoined : joinTests? tests = some joined) :
    joined.occurrences = tests.flatMap (·.occurrences) := by
  cases tests with
  | nil => cases isJoined
  | cons first rest =>
      cases isJoined
      rw [List.flatMap_cons]
      induction rest generalizing first with
      | nil => simp
      | cons test rest ih => simp [ih]

end

/-- Further tests may follow that need the names. -/
theorem ScopedTests.append {isCapture : String → Prop}
    {names known : List String} {tests more : List Expr}
    (inRow : ScopedTests isCapture names known tests)
    (scopes : ∀ test ∈ more, ∀ known, names ⊆ known →
      Scoped isCapture known test [] []) :
    ScopedTests isCapture names known (tests ++ more) := by
  induction inRow with
  | @done known all =>
      induction more with
      | nil => exact .done all
      | cons test more ih =>
          rw [List.forall_mem_cons] at scopes
          refine .next (scopes.1 known all) ?_
          rw [List.append_nil]
          exact ih scopes.2
  | next scope _ ih => exact .next scope ih

/-- What stands in front of a comparison: tests that bind the names, and tests that
may be left out, of which there are some if both operands may be null. -/
structure Guarding (left right : Operand) (names : List String)
    (required optional : List Expr) (leftExpr rightExpr : Expr) : Prop where
  some_optional : left.mayBeNull = true → right.mayBeNull = true →
    optional ≠ []
  covers : Covers (IsExtra [left, right] names) (partsOf [left, right] names)
    (required.flatMap (·.occurrences) ++
      (leftExpr.occurrences ++ rightExpr.occurrences))
  extra : ∀ test ∈ optional, ∀ place ∈ test.occurrences,
    IsExtra [left, right] names place
  scope : ∀ isCapture, Closed isCapture left.expr →
    Closed isCapture right.expr →
      ScopedTests isCapture names [] required ∧
        ∀ known, names ⊆ known →
          Scoped isCapture known leftExpr [] [] ∧
            Scoped isCapture known rightExpr [] [] ∧
            ∀ test ∈ optional, Scoped isCapture known test [] []

/-- The operands of a comparison may be named the other way round. -/
theorem Guarding.symm {left right : Operand} {names : List String}
    {required optional : List Expr} {leftExpr rightExpr : Expr}
    (guarding :
      Guarding left right names required optional leftExpr rightExpr) :
    Guarding right left names required optional rightExpr leftExpr where
  some_optional rightMayBeNull leftMayBeNull :=
    guarding.some_optional leftMayBeNull rightMayBeNull
  covers := by
    intro place
    obtain ⟨atLeast, exactly⟩ := guarding.covers place
    simp only [partsOf, List.flatMap_cons, List.flatMap_nil, List.append_nil,
      List.count_append] at *
    refine ⟨by omega, fun notExtra => ?_⟩
    have := exactly fun extra => notExtra
      (extra.mono (by simp) (List.Subset.refl names))
    omega
  extra test member place occurs :=
    (guarding.extra test member place occurs).mono (by simp)
      (List.Subset.refl names)
  scope isCapture closedRight closedLeft := by
    obtain ⟨inRow, given⟩ := guarding.scope isCapture closedLeft closedRight
    exact ⟨inRow, fun known all =>
      ⟨(given known all).2.1, (given known all).1, (given known all).2.2⟩⟩

section

variable {start : CaptureNames} {left right : Operand} {count : Nat}

theorem forall_mem_optionalTests {property : Expr → Prop} {operand : Operand}
    (holds : property operand.expr.hasValue) :
    ∀ test ∈ optionalTests operand, property test := by
  unfold optionalTests
  split
  · exact List.forall_mem_singleton.mpr holds
  · nofun

theorem optionalTests_ne_nil {operand : Operand}
    (mayBeNull : operand.mayBeNull = true) : optionalTests operand ≠ [] := by
  simp [optionalTests, mayBeNull]

/-- Two operands that may be evaluated more than once. -/
theorem guarding_of_reusable (leftReusable : left.isReusable = true)
    (rightReusable : right.isReusable = true) :
    Guarding left right [] [] (optionalTests left ++ optionalTests right)
      left.expr right.expr where
  some_optional mayBeNull _ :=
    List.append_ne_nil_of_left_ne_nil (optionalTests_ne_nil mayBeNull) _
  covers := by
    simpa [partsOf] using Covers.refl
  extra := List.forall_mem_append.mpr
    ⟨forall_mem_optionalTests fun place member =>
        isExtra_copy (by simp) leftReusable (by simpa using member),
      forall_mem_optionalTests fun place member =>
        isExtra_copy (by simp) rightReusable (by simpa using member)⟩
  scope isCapture closedLeft closedRight :=
    ⟨.done (List.nil_subset []), fun known _ =>
      ⟨closedLeft.anywhere, closedRight.anywhere, List.forall_mem_append.mpr
        ⟨forall_mem_optionalTests closedLeft.anywhere.hasValue,
          forall_mem_optionalTests closedRight.anywhere.hasValue⟩⟩⟩

/-- One operand is captured, and the other one is used as it is. -/
theorem guarding_of_captured {captured other : Operand} {names : List String}
    {capture : Capture} (otherReusable : other.isReusable = true)
    (provides : Provides captured names capture names []) :
    Guarding captured other names [capture.test] (optionalTests other)
      capture.value other.expr where
  some_optional _ := optionalTests_ne_nil
  covers := by
    refine provides.covers_beside.withExtra
      (fun place => provides.isExtra (by simp) (by simp)) ?_
    refine List.perm_iff_count.mpr fun place => ?_
    simp only [List.flatMap_cons, List.flatMap_nil, List.append_nil,
      List.count_append]
    omega
  extra := forall_mem_optionalTests fun place member =>
    isExtra_copy (by simp) otherReusable (by simpa using member)
  scope isCapture closedCaptured closedOther := by
    obtain ⟨test, value⟩ := provides.scope isCapture [] closedCaptured
    exact ⟨.next test (.done (List.Subset.refl names)), fun known all =>
      ⟨value known all, closedOther.anywhere,
        forall_mem_optionalTests closedOther.anywhere.hasValue⟩⟩

/-- Two operands that are both captured, the right one first and whatever its
value. -/
theorem guarding_of_bothCaptured {leftNames rightNames : List String}
    {leftCapture rightCapture : Capture}
    (rightProvides : Provides right rightNames rightCapture rightNames
      rightNames)
    (leftProvides : Provides left leftNames leftCapture leftNames []) :
    Guarding left right (rightNames ++ leftNames)
      [rightCapture.test, leftCapture.test]
      (optionalTests { right with expr := rightCapture.value })
      leftCapture.value rightCapture.value where
  some_optional _ mayBeNull := optionalTests_ne_nil mayBeNull
  covers := by
    refine (leftProvides.covers_both rightProvides
      List.perm_append_comm).withExtra (List.forall_mem_append.mpr
        ⟨fun place => leftProvides.isExtra (by simp) (by simp),
          fun place => rightProvides.isExtra (by simp) (by simp)⟩) ?_
    refine List.perm_iff_count.mpr fun place => ?_
    simp only [List.flatMap_cons, List.flatMap_nil, List.append_nil,
      List.count_append]
    omega
  extra := forall_mem_optionalTests fun place member =>
    rightProvides.isExtra (by simp) (by simp) (by simpa using member)
  scope isCapture closedLeft closedRight := by
    obtain ⟨rightTest, rightValue⟩ :=
      rightProvides.scope isCapture [] closedRight
    obtain ⟨leftTest, leftValue⟩ :=
      leftProvides.scope isCapture ([] ++ rightNames) closedLeft
    refine ⟨.next (rightTest.weaken (List.Subset.refl _) (List.Subset.refl _)
      (List.nil_subset _)) (.next leftTest (.done (by simp))),
      fun known all => ?_⟩
    obtain ⟨allRight, allLeft⟩ := List.append_subset.mp all
    exact ⟨leftValue known allLeft, rightValue known allRight,
      forall_mem_optionalTests (rightValue known allRight).hasValue⟩

/-- The tests in front of a comparison. -/
theorem guardOperands_guarding :
    start.Issues 2 count (guardOperands left right) fun next guarded =>
      ∃ required optional, orderGuards guarded.1 = required ++ optional ∧
        Guarding left right (start.between count next) required optional
          guarded.2.1 guarded.2.2 := by
  cases leftReusable : left.isReusable with
  | true =>
      cases rightReusable : right.isReusable with
      | true =>
          rw [guardOperands_of_reusable leftReusable rightReusable]
          apply CaptureNames.Issues.pure
          rw [CaptureNames.between_self, orderGuards_optional]
          exact ⟨[], _, rfl, guarding_of_reusable leftReusable rightReusable⟩
      | false =>
          rw [guardOperands_of_rightCaptured leftReusable rightReusable]
          refine captureValue_provides.bind ?_
          rintro capture next - - provides
          apply CaptureNames.Issues.pure
          rw [orderGuards_concat]
          exact ⟨[_], _, rfl, (guarding_of_captured leftReusable provides).symm⟩
  | false =>
      cases rightReusable : right.isReusable with
      | true =>
          rw [guardOperands_of_leftCaptured leftReusable rightReusable]
          refine captureValue_provides.bind ?_
          rintro capture next - - provides
          apply CaptureNames.Issues.pure
          rw [orderGuards_cons, orderGuards_optional]
          exact ⟨[_], _, rfl, guarding_of_captured rightReusable provides⟩
      | false =>
          rw [guardOperands_of_bothCaptured leftReusable rightReusable]
          refine captureAny_provides.bind ?_
          rintro rightCapture middle above - rightProvides
          refine captureValue_provides.bind ?_
          rintro leftCapture next aboveMiddle - leftProvides
          apply CaptureNames.Issues.pure
          rw [orderGuards_cons, orderGuards_cons, orderGuards_optional,
            ← start.between_append above aboveMiddle]
          exact ⟨[_, _], _, rfl,
            guarding_of_bothCaptured rightProvides leftProvides⟩

variable {names : List String} {required optional kept : List Expr}
variable {leftExpr rightExpr expr : Expr}

/-- A comparison behind its tests, of which any that are optional may be left
out. -/
theorem Guarding.assembled
    (guarding : Guarding left right names required optional leftExpr rightExpr)
    (keeps : kept ⊆ optional)
    (same : expr.occurrences.Perm
      ((required ++ kept).flatMap (·.occurrences) ++
        (leftExpr.occurrences ++ rightExpr.occurrences)))
    (closed : ∀ isCapture,
      ScopedTests isCapture names [] (required ++ kept) →
      (∀ known, names ⊆ known →
        Scoped isCapture known leftExpr [] [] ∧
          Scoped isCapture known rightExpr [] []) →
      Closed isCapture expr) :
    Assembled [left, right] names expr where
  covers := by
    have extra : ∀ place ∈ kept.flatMap (·.occurrences),
        IsExtra [left, right] names place := by
      intro place member
      obtain ⟨test, isKept, occurs⟩ := List.mem_flatMap.mp member
      exact guarding.extra test (keeps isKept) place occurs
    refine guarding.covers.withExtra extra (same.trans ?_)
    refine List.perm_iff_count.mpr fun place => ?_
    simp only [List.flatMap_append, List.count_append]
    omega
  closed isCapture closedOperands := by
    simp only [List.forall_mem_cons] at closedOperands
    obtain ⟨inRow, given⟩ :=
      guarding.scope isCapture closedOperands.1 closedOperands.2.1
    refine closed isCapture (inRow.append ?_) fun known all =>
      ⟨(given known all).1, (given known all).2.1⟩
    exact fun test isKept known all =>
      (given known all).2.2 test (keeps isKept)

end

theorem comparison_assembled {start : CaptureNames} {left right : Operand}
    {count : Nat} (site : Site) (collapse : Bool)
    (operator : Source.BinaryOperator) (target : Target.BinaryOperator) :
    start.Issues 2 count
      (site.comparison collapse operator
        (.binary left.expr target right.expr) left right) fun next lowered =>
        Assembled [left, right] (start.between count next) lowered.expr := by
  unfold Site.comparison
  split
  · apply CaptureNames.Issues.pure
    rw [CaptureNames.between_self]
    exact assembled_of_same (by simp [Lowered.proven, Expr.occurrences])
      fun _ closedLeft closedRight => closedLeft.binary closedRight
  · refine (guardOperands_guarding.bind ?_).weaken (Nat.le_refl 2)
      fun _ _ _ _ is => is
    rintro ⟨guards, leftExpr, rightExpr⟩ next - -
      ⟨required, optional, inOrder, guarding⟩
    obtain ⟨kept, keeps, isKept⟩ : ∃ kept, kept ⊆ optional ∧
        (if lastTestIsSuperfluous collapse operator left right then
          (orderGuards guards).dropLast else orderGuards guards) =
        required ++ kept := by
      rw [inOrder]
      split
      · next superfluous =>
          simp only [lastTestIsSuperfluous, Bool.and_eq_true] at superfluous
          have some := guarding.some_optional superfluous.1.2 superfluous.2
          exact ⟨optional.dropLast, List.dropLast_subset optional,
            List.dropLast_append_of_ne_nil some⟩
      · exact ⟨optional, List.Subset.refl optional, rfl⟩
    simp only [isKept]
    split
    · next noTest =>
        have noTests : required ++ kept = [] := by
          cases all : required ++ kept with
          | nil => rfl
          | cons => simp [all, joinTests?] at noTest
        apply CaptureNames.Issues.pure
        refine guarding.assembled keeps
          (by simp [noTests, Lowered.plain, Expr.occurrences]) ?_
        intro isCapture inRow given
        rw [noTests] at inRow
        cases inRow with
        | done all => exact (given [] all).1.binary (given [] all).2
    · next test isJoined =>
        have occurs := occurrences_joined isJoined
        split
        all_goals
          apply CaptureNames.Issues.pure
          refine guarding.assembled keeps (by simp [Lowered.proven,
            Lowered.plain, Expr.occurrences, Site.nullableNull, occurs]) ?_
          intro isCapture inRow given
          obtain ⟨all, known, tests⟩ := inRow.scoped_joined isJoined
          have compared : Scoped isCapture ([] ++ all)
              (.binary leftExpr target rightExpr) [] [] :=
            (given _ known).1.binary (given _ known).2
        · exact (tests.and compared (List.nil_subset _)
            (List.nil_subset _)).untested
        · exact tests.conditional compared
            (scoped_nullableConstant site Target.scoped_null)

/-! ## Binary expressions -/

section

variable {start : CaptureNames} {count : Nat}

/-- A result that issues no names. -/
theorem assembled_at_once {left right : Operand} {lowered : Lowered}
    (assembled : Assembled [left, right] [] lowered.expr) :
    start.Issues 2 count (return lowered) fun next lowered =>
      Assembled [left, right] (start.between count next) lowered.expr := by
  apply CaptureNames.Issues.pure
  rw [CaptureNames.between_self]
  exact assembled

/-- The operands as they are, under any operator. -/
theorem assembled_binary (left right : Operand)
    (target : Target.BinaryOperator) :
    Assembled [left, right] [] (.binary left.expr target right.expr) :=
  assembled_of_same (by simp only [Expr.occurrences])
    fun _ closedLeft closedRight => closedLeft.binary closedRight

theorem restate_assembled (site : Site) {left right : Operand} (collapse : Bool)
    (operator : Source.BinaryOperator) (target : Target.BinaryOperator) :
    start.Issues 2 count
      (site.restate collapse operator (.binary left.expr target right.expr) left
        right) fun next lowered =>
        Assembled [left, right] (start.between count next) lowered.expr := by
  have unchanged := assembled_binary left right target
  unfold Site.restate
  split
  · split
    · exact collapsedConjunction_assembled site
    · exact conjunction_assembled site
  · split
    · exact collapsedDisjunction_assembled
    · exact disjunction_assembled site
  iterate 2
    split
    · exact assembled_at_once unchanged
    split
    · exact assembled_at_once unchanged.equalsTrue
    split
    · exact collapsedConjunction_assembled site
    · exact collapsedDisjunction_assembled
  · exact comparison_assembled site collapse operator target

/-- Whether an expression is put together from two converted ones. The copies are
of operands that the arena has for reusable. -/
def PutTogether (setting : Setting) (arena : Source.Arena) (here : Source.Step)
    (leftExpr rightExpr : Expr) (names : List String) (expr : Expr) : Prop :=
  ∃ left right : Operand, left.expr = leftExpr ∧ right.expr = rightExpr ∧
    (∀ leftSlot operator rightSlot,
      arena.binary? here.effective = some (leftSlot, operator, rightSlot) →
        (left.isReusable = true →
          Analysis.isSafelyReusable setting.model arena leftSlot = true) ∧
        (right.isReusable = true →
          Analysis.isSafelyReusable setting.model arena rightSlot = true)) ∧
    Assembled [left, right] names expr

theorem putTogether_unchanged (setting : Setting) (arena : Source.Arena)
    (here : Source.Step) (leftExpr rightExpr : Expr)
    (target : Target.BinaryOperator) :
    PutTogether setting arena here leftExpr rightExpr []
      (.binary leftExpr target rightExpr) :=
  ⟨⟨none, leftExpr, false, false⟩, ⟨none, rightExpr, false, false⟩, rfl, rfl,
    fun _ _ _ _ => ⟨nofun, nofun⟩, assembled_binary _ _ target⟩

theorem issues_putTogether (setting : Setting) (arena : Source.Arena)
    (path : Source.Path) (here : Source.Step) (left : Source.Slot)
    (operator : Source.BinaryOperator) (right : Source.Slot)
    (loweredLeft loweredRight : Lowered) :
    start.Issues 2 count
      (putTogether setting arena path here left operator right loweredLeft
        loweredRight) fun next lowered =>
        PutTogether setting arena here loweredLeft.expr loweredRight.expr
          (start.between count next) lowered.expr := by
  have unchanged (notNull : Bool) :
      start.Issues 2 count
        (return ⟨.binary loweredLeft.expr (convertOperator operator)
          loweredRight.expr, notNull⟩ : Naming Lowered) fun next lowered =>
          PutTogether setting arena here loweredLeft.expr loweredRight.expr
            (start.between count next) lowered.expr := by
    apply CaptureNames.Issues.pure
    rw [CaptureNames.between_self]
    exact putTogether_unchanged setting arena here _ _ _
  unfold putTogether
  split
  · unfold Site.lowerBinary
    dsimp only
    split
    · exact unchanged false
    · next leftSlot _ rightSlot found =>
        split
        · split
          · refine (restate_assembled _ _ _ _).weaken (Nat.le_refl 2) ?_
            intro next lowered _ _ assembled
            refine ⟨_, _, rfl, rfl, ?_, assembled⟩
            intro otherLeft _ otherRight sameFound
            cases found.symm.trans sameFound
            exact ⟨id, id⟩
          · exact unchanged true
        · exact unchanged false
  · exact unchanged false

/-- The names issued when two operands are put together are the next ones, and the
count tells how many they are. -/
theorem putTogether_upcoming {setting : Setting} {arena : Source.Arena}
    {path : Source.Path} {here : Source.Step} {left : Source.Slot}
    {operator : Source.BinaryOperator} {right : Source.Slot}
    {loweredLeft loweredRight lowered : Lowered} {captures : CaptureNames}
    (together : putTogether setting arena path here left operator right
      loweredLeft loweredRight start = (lowered, captures)) :
    captures =
        start.advance (captures.issued - start.issued).toNat ∧
      PutTogether setting arena here loweredLeft.expr loweredRight.expr
        (start.upcoming (captures.issued - start.issued).toNat) lowered.expr := by
  obtain ⟨result, next, ran, -, few, isTogether⟩ := issues_putTogether setting
    arena path here left operator right loweredLeft loweredRight
  rw [CaptureNames.advance_zero, together] at ran
  obtain ⟨rfl, rfl⟩ := Prod.mk.inj ran
  have counted : ((start.advance next).issued - start.issued).toNat = next := by
    have small : next % 2 ^ 32 = next := Nat.mod_eq_of_lt (by omega)
    simpa [CaptureNames.advance, UInt32.add_comm start.issued,
      UInt32.add_sub_cancel] using small
  rw [counted]
  exact ⟨rfl, isTogether⟩

end

end BasicLowering.Lowering
