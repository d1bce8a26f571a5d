import BasicLowering.Proofs.Lowering.Comparisons
import BasicLowering.Proofs.Target.StaticTypes

/-!
# Static types of templates

Each template has a type where its operands have one. A name that a template issues
has the same type wherever it is read, which is chosen when the name is issued
(`Assigned`). An operand that is taken not to be null must not have a nullable type:
the logical templates use it as a `bool`.
-/

namespace BasicLowering.Lowering

open Source (BinaryOperator Scalar ScalarType)
open Target (Declarations Expr Pattern)

/-! ## Types of the names that are issued -/

/-- Whether the names that are issued after the first `low` ones up to the one that is
counted `high` can be given types such that something holds of all declarations that
agree. -/
def Assigned (declared : Declarations) (start : CaptureNames) (low high : Nat)
    (holds : Declarations → Prop) : Prop :=
  ∃ captured : Nat → ScalarType, ∀ types, declared.Within types →
    (∀ number, low < number → number ≤ high →
      types.ofVariable (start.nth number) = some (captured number)) →
    holds types

section

variable {declared : Declarations} {start : CaptureNames}
variable {low middle high count : Nat} {holds others given : Declarations → Prop}

namespace Assigned

theorem of_declared (always : ∀ types, declared.Within types → holds types) :
    Assigned declared start low high holds :=
  ⟨fun _ => .bool, fun types within _ => always types within⟩

theorem imp (assigned : Assigned declared start low high holds)
    (implies : ∀ types, holds types → others types) :
    Assigned declared start low high others := by
  obtain ⟨captured, all⟩ := assigned
  exact ⟨captured, fun types within agree => implies types (all types within agree)⟩

/-- What is known of names in a row is known of all of them together. -/
theorem and (first : Assigned declared start low middle holds)
    (second : Assigned declared start middle high others) (above : low ≤ middle)
    (below : middle ≤ high) :
    Assigned declared start low high fun types => holds types ∧ others types := by
  obtain ⟨early, allEarly⟩ := first
  obtain ⟨late, allLate⟩ := second
  refine ⟨fun number => if number ≤ middle then early number else late number,
    fun types within agree => ⟨?_, ?_⟩⟩
  · refine allEarly types within fun number isAbove isBelow => ?_
    simpa only [if_pos isBelow] using agree number isAbove (isBelow.trans below)
  · refine allLate types within fun number isAbove isBelow => ?_
    simpa only [if_neg (Nat.not_le.mpr isAbove)] using
      agree number (Nat.lt_of_le_of_lt above isAbove) isBelow

/-- The next name may be given any type. -/
theorem next (assigned : Assigned declared start low count holds)
    (above : low ≤ count) (type : ScalarType) :
    Assigned declared start low (count + 1) fun types =>
      holds types ∧ types.ofVariable (start.nth (count + 1)) = some type :=
  assigned.and
    ⟨fun _ => type, fun _ _ agree =>
      agree (count + 1) (Nat.lt_succ_self count) (Nat.le_refl _)⟩
    above (Nat.le_succ count)

/-- Names that are not declared yet can be declared with their types. Fewer names than
a 32-bit word can count are all different. -/
theorem exists_within (assigned : Assigned declared start 0 high holds)
    (few : high < UInt32.size)
    (apart : ∀ number, declared.ofVariable (start.name number) = none) :
    ∃ types, declared.Within types ∧ holds types := by
  classical
  obtain ⟨captured, all⟩ := assigned
  let isCapture (name : String) (number : Nat) : Prop :=
    0 < number ∧ number ≤ high ∧ name = start.nth number
  let types : Declarations :=
    { declared with
      ofVariable := fun name =>
        if known : ∃ number, isCapture name number then some (captured known.choose)
        else declared.ofVariable name }
  have within : declared.Within types := by
    refine ⟨fun name type isDeclared => ?_, rfl⟩
    have noCapture : ¬ ∃ number, isCapture name number := by
      rintro ⟨number, -, -, rfl⟩
      cases isDeclared.symm.trans (apart _)
    exact (dif_neg noCapture).trans isDeclared
  refine ⟨types, within, all types within fun number above below => ?_⟩
  have known : ∃ other, isCapture (start.nth number) other :=
    ⟨number, above, below, rfl⟩
  have same : known.choose = number := by
    obtain ⟨-, isBelow, isName⟩ := known.choose_spec
    rcases Nat.lt_trichotomy number known.choose with less | same | more
    · exact absurd isName (CaptureNames.nth_ne less (isBelow.trans_lt few))
    · exact same.symm
    · exact absurd isName.symm (CaptureNames.nth_ne more (below.trans_lt few))
  exact (dif_pos known).trans (congrArg (some <| captured ·) same)

end Assigned

/-! ## Captures -/

/-- Whether a capture has a test, and a value of a type. -/
structure Capture.Typed (types : Declarations) (type : ScalarType)
    (capture : Capture) : Prop where
  test : capture.test.HasType types .bool
  value : capture.value.HasType types type

section

variable (assigned : Assigned declared start low count given) (above : low ≤ count)
variable {operand : Expr} {type : ScalarType}
variable (typed : ∀ types, given types → operand.HasType types type)

include assigned above typed

/-- A pattern gives a type to the name that it binds. -/
theorem issues_capture {pattern : String → Pattern} (captured : ScalarType)
    (fits : ∀ types name, types.ofVariable name = some captured →
      (pattern name).Fits types type) :
    start.Issues 1 count
      (freshName >>= fun name =>
        return ⟨.test operand (pattern name), .identifier name⟩)
      fun next (capture : Capture) =>
        Assigned declared start low next fun types =>
          given types ∧ capture.Typed types captured := by
  refine (freshName_issues start count).bind ?_
  rintro name next - - ⟨rfl, rfl⟩
  apply CaptureNames.Issues.pure
  refine (assigned.next above captured).imp ?_
  rintro types ⟨isGiven, isName⟩
  exact ⟨isGiven, (typed types isGiven).test (fits types _ isName), isName⟩

theorem captureAny_typed :
    start.Issues 1 count (captureAny operand) fun next capture =>
      Assigned declared start low next fun types =>
        given types ∧ capture.Typed types type :=
  issues_capture assigned above typed type fun _ _ isName => isName

theorem captureValue_typed :
    start.Issues 1 count (captureValue operand) fun next capture =>
      Assigned declared start low next fun types =>
        given types ∧ capture.Typed types type.underlying :=
  issues_capture assigned above typed type.underlying fun _ _ isName => isName

theorem captureUnlessNull_typed :
    start.Issues 1 count (captureUnlessNull operand) fun next capture =>
      Assigned declared start low next fun types =>
        given types ∧ capture.Typed types type.underlying :=
  issues_capture assigned above typed type.underlying fun _ _ isName => isName

end

/-! ## Logical operands -/

/-- The type `bool?`. -/
abbrev nullableBool : ScalarType := ⟨.boolean, true⟩

/-- Whether a Boolean operand has a nullable type exactly if it may be null. -/
def Operand.Fits (types : Declarations) (operand : Operand) : Prop :=
  operand.expr.HasType types ⟨.boolean, operand.mayBeNull⟩

namespace Operand.Fits

variable {types : Declarations} {operand : Operand} (fits : operand.Fits types)

include fits

theorem plain (present : operand.mayBeNull = false) :
    operand.expr.HasType types .bool := by
  rwa [Operand.Fits, present] at fits

theorem nullable (mayBeNull : operand.mayBeNull = true) :
    operand.expr.HasType types nullableBool := by
  rwa [Operand.Fits, mayBeNull] at fits

theorem collapsed : operand.collapsed.HasType types .bool := by
  unfold Operand.collapsed
  split
  · exact fits.equalsTrue rfl
  · next present => exact fits.plain (Bool.eq_false_of_not_eq_true present)

end Operand.Fits

section

variable (assigned : Assigned declared start low count given) (above : low ≤ count)
variable {operand : Operand}
variable (typed : ∀ types, given types → operand.expr.HasType types nullableBool)

include assigned above typed

theorem captureTested_typed {test : Expr → Expr}
    (tests : ∀ {types} {expr : Expr}, expr.HasType types nullableBool →
      (test expr).HasType types .bool) :
    start.Issues 1 count (captureTested test operand) fun next capture =>
      Assigned declared start low next fun types =>
        given types ∧ capture.Typed types nullableBool := by
  refine captureTested_issues (fun _ => ?_) fun _ => ?_
  · exact assigned.imp fun types isGiven =>
      ⟨isGiven, tests (typed types isGiven), typed types isGiven⟩
  · refine (captureAny_typed assigned above typed).weaken (Nat.le_refl 1) ?_
    intro next capture _ _ captured
    refine captured.imp ?_
    rintro types ⟨isGiven, test, value⟩
    exact ⟨isGiven, test.and (tests value), value⟩

theorem captureForFalseTest_typed :
    start.Issues 1 count (captureForFalseTest operand) fun next capture =>
      Assigned declared start low next fun types =>
        given types ∧ capture.Typed types nullableBool :=
  captureTested_typed assigned above typed fun isTyped => isTyped.equalsFalse rfl

theorem captureForMissingTest_typed :
    start.Issues 1 count (captureForMissingTest operand) fun next capture =>
      Assigned declared start low next fun types =>
        given types ∧ capture.Typed types nullableBool :=
  captureTested_typed assigned above typed fun isTyped => isTyped.hasNoValue rfl

theorem captureForMissingValue_typed :
    start.Issues 1 count (captureForMissingValue operand) fun next capture =>
      Assigned declared start low next fun types =>
        given types ∧ capture.Typed types .bool := by
  unfold captureForMissingValue
  split
  · apply CaptureNames.Issues.pure
    exact assigned.imp fun types isGiven =>
      ⟨isGiven, (typed types isGiven).hasNoValue rfl,
        (typed types isGiven).getValue rfl⟩
  · exact captureUnlessNull_typed assigned above typed

end

/-! ## Logical templates -/

/-- Whether the result of a template has a nullable type exactly if it may be null. -/
def Lowered.Fits (types : Declarations) (lowered : Lowered) : Prop :=
  lowered.expr.HasType types ⟨.boolean, !lowered.notNull⟩

section

variable {site : Site} (casts : site.options.explicitNullableCasts = true)

include casts

theorem nullableNull_typed (types : Declarations) :
    site.nullableNull.HasType types nullableBool := by
  rw [Site.nullableNull, Site.nullableConstant, if_pos casts]
  rfl

theorem nullableTrue_typed (types : Declarations) :
    site.nullableTrue.HasType types nullableBool := by
  rw [Site.nullableTrue, Site.nullableConstant, if_pos casts]
  rfl

theorem nullableFalse_typed (types : Declarations) :
    site.nullableFalse.HasType types nullableBool := by
  rw [Site.nullableFalse, Site.nullableConstant, if_pos casts]
  rfl

end

section

variable {site : Site} {left right : Operand}
variable (assigned : Assigned declared start low count fun types =>
  left.Fits types ∧ right.Fits types)

include assigned

theorem collapsedDisjunction_typed :
    start.Issues 2 count (collapsedDisjunction left right) fun next lowered =>
      Assigned declared start low next lowered.Fits := by
  unfold collapsedDisjunction
  split
  · next present =>
      rw [Bool.not_eq_true'] at present
      apply CaptureNames.Issues.pure
      refine assigned.imp ?_
      rintro types ⟨leftFits, rightFits⟩
      exact (leftFits.plain present).or (rightFits.equalsTrue rfl)
  · apply CaptureNames.Issues.pure
    refine assigned.imp ?_
    rintro types ⟨leftFits, rightFits⟩
    exact (leftFits.equalsTrue rfl).or rightFits.collapsed

variable (above : low ≤ count) (casts : site.options.explicitNullableCasts = true)

include above casts

theorem conjunctionOfBoth_typed (leftMayBeNull : left.mayBeNull = true)
    (rightMayBeNull : right.mayBeNull = true) :
    start.Issues 2 count (site.conjunctionOfBoth left right) fun next expr =>
      Assigned declared start low next fun types =>
        expr.HasType types nullableBool := by
  unfold Site.conjunctionOfBoth
  refine (captureForMissingValue_typed assigned above fun types fits =>
    fits.2.nullable rightMayBeNull).bind fun rightCapture middle aboveCount _ => ?_
  intro rightTyped
  refine (captureForFalseTest_typed rightTyped (above.trans aboveCount)
    fun types fits => fits.1.1.nullable leftMayBeNull).bind
      fun leftCapture next _ _ => ?_
  intro bothTyped
  apply CaptureNames.Issues.pure
  refine bothTyped.imp ?_
  rintro types ⟨⟨-, rightTest, rightValue⟩, leftTest, leftValue⟩
  exact leftTest.conditional (nullableFalse_typed casts types)
    (rightTest.conditional (nullableNull_typed casts types)
      (rightValue.conditional leftValue (nullableFalse_typed casts types) rfl) rfl) rfl

theorem collapsedConjunction_typed :
    start.Issues 2 count (site.collapsedConjunction left right) fun next lowered =>
      Assigned declared start low next lowered.Fits := by
  unfold Site.collapsedConjunction
  split
  · next present =>
      rw [Bool.not_eq_true'] at present
      apply CaptureNames.Issues.pure
      refine assigned.imp ?_
      rintro types ⟨leftFits, rightFits⟩
      exact (leftFits.plain present).and (rightFits.equalsTrue rfl)
  next leftMayBeNull =>
  rw [Bool.not_eq_true', Bool.not_eq_false] at leftMayBeNull
  split
  · apply CaptureNames.Issues.pure
    refine assigned.imp ?_
    rintro types ⟨leftFits, rightFits⟩
    exact (leftFits.equalsTrue rfl).and rightFits.collapsed
  split
  · next present =>
      rw [Bool.not_eq_true'] at present
      refine ((captureForMissingTest_typed assigned above fun types fits =>
        fits.1.nullable leftMayBeNull).bind fun capture next _ _ => ?_).weaken
          (Nat.le_succ 1) fun _ _ _ _ typed => typed
      intro leftTyped
      apply CaptureNames.Issues.pure
      refine leftTyped.imp ?_
      rintro types ⟨⟨-, rightFits⟩, test, value⟩
      exact ((test.or (value.getValue rfl)).and (rightFits.plain present)).and
        (value.hasValue rfl)
  · next rightMayBeNull =>
      rw [Bool.not_eq_true', Bool.not_eq_false] at rightMayBeNull
      refine (conjunctionOfBoth_typed assigned above casts leftMayBeNull
        rightMayBeNull).bind fun conjunction next _ _ => ?_
      intro typed
      apply CaptureNames.Issues.pure
      exact typed.imp fun types isTyped => isTyped.equalsTrue rfl

theorem conjunction_typed (mayBeNull : (left.mayBeNull || right.mayBeNull) = true) :
    start.Issues 2 count (site.conjunction left right) fun next lowered =>
      Assigned declared start low next lowered.Fits := by
  unfold Site.conjunction
  split
  · next present =>
      rw [Bool.not_eq_true'] at present
      rw [present, Bool.false_or] at mayBeNull
      apply CaptureNames.Issues.pure
      refine assigned.imp ?_
      rintro types ⟨leftFits, rightFits⟩
      exact (leftFits.plain present).conditional (rightFits.nullable mayBeNull)
        (nullableFalse_typed casts types) rfl
  next leftMayBeNull =>
  rw [Bool.not_eq_true', Bool.not_eq_false] at leftMayBeNull
  split
  · next present =>
      rw [Bool.not_eq_true'] at present
      refine ((captureForFalseTest_typed assigned above fun types fits =>
        fits.1.nullable leftMayBeNull).bind fun capture next _ _ => ?_).weaken
          (Nat.le_succ 1) fun _ _ _ _ typed => typed
      intro leftTyped
      apply CaptureNames.Issues.pure
      refine leftTyped.imp ?_
      rintro types ⟨⟨-, rightFits⟩, test, value⟩
      exact test.conditional (nullableFalse_typed casts types)
        ((rightFits.plain present).conditional value
          (nullableFalse_typed casts types) rfl) rfl
  · next rightMayBeNull =>
      rw [Bool.not_eq_true', Bool.not_eq_false] at rightMayBeNull
      refine (conjunctionOfBoth_typed assigned above casts leftMayBeNull
        rightMayBeNull).bind fun conjunction next _ _ => ?_
      intro typed
      exact CaptureNames.Issues.pure typed

theorem disjunction_typed (mayBeNull : (left.mayBeNull || right.mayBeNull) = true) :
    start.Issues 2 count (site.disjunction left right) fun next lowered =>
      Assigned declared start low next lowered.Fits := by
  unfold Site.disjunction
  split
  · next present =>
      rw [Bool.not_eq_true'] at present
      rw [present, Bool.false_or] at mayBeNull
      apply CaptureNames.Issues.pure
      refine assigned.imp ?_
      rintro types ⟨leftFits, rightFits⟩
      exact (leftFits.plain present).conditional (nullableTrue_typed casts types)
        (rightFits.nullable mayBeNull) rfl
  next leftMayBeNull =>
  rw [Bool.not_eq_true', Bool.not_eq_false] at leftMayBeNull
  refine (captureAny_typed assigned above fun types fits =>
    fits.1.nullable leftMayBeNull).bind fun leftCapture middle aboveCount _ => ?_
  intro leftTyped
  split
  · next present =>
      rw [Bool.not_eq_true'] at present
      apply CaptureNames.Issues.pure
      refine leftTyped.imp ?_
      rintro types ⟨⟨-, rightFits⟩, test, value⟩
      exact (test.and (value.equalsTrue rfl)).conditional
        (nullableTrue_typed casts types)
        ((rightFits.plain present).conditional (nullableTrue_typed casts types) value
          rfl) rfl
  · next rightMayBeNull =>
      rw [Bool.not_eq_true', Bool.not_eq_false] at rightMayBeNull
      simp only [pure_bind]
      refine (captureUnlessNull_typed leftTyped (above.trans aboveCount)
        fun types fits => fits.1.2.nullable rightMayBeNull).bind
          fun rightCapture next _ _ => ?_
      intro bothTyped
      apply CaptureNames.Issues.pure
      refine bothTyped.imp ?_
      rintro types ⟨⟨-, test, value⟩, rightTest, rightValue⟩
      exact (test.and (value.equalsTrue rfl)).conditional
        (nullableTrue_typed casts types)
        (rightTest.conditional (nullableNull_typed casts types)
          (rightValue.conditional (nullableTrue_typed casts types) value rfl) rfl) rfl

end

/-! ## Comparisons -/

/-- Whether an expression has a type over the given one. -/
def HasBase (types : Declarations) (base : Scalar) (expr : Expr) : Prop :=
  ∃ type, type.base = base ∧ expr.HasType types type

/-- A comparison of operands that its operator takes is a `bool`. -/
theorem HasBase.compared {types : Declarations} {base : Scalar} {left right : Expr}
    {operator : BinaryOperator} (relational : operator.isRelational = true)
    (takes : Source.takes operator base = true)
    (leftTyped : HasBase types base left) (rightTyped : HasBase types base right) :
    (Expr.binary left (convertOperator operator) right).HasType types .bool := by
  obtain ⟨leftType, leftBase, leftTyped⟩ := leftTyped
  obtain ⟨rightType, rightBase, rightTyped⟩ := rightTyped
  refine leftTyped.binary rightTyped ?_
  cases operator with
  | equals | notEquals => exact if_pos (leftBase.trans rightBase.symm)
  | lessThan | lessThanOrEqual | greaterThan | greaterThanOrEqual =>
      cases base with
      | boolean => cases takes
      | integer => exact if_pos ⟨leftBase, rightBase⟩
  | _ => cases relational

section

variable {left right : Operand} {leftType rightType : ScalarType}

/-- The tests of an operand in front of a comparison. There is one if the operand may
be null. -/
theorem guardOperand_typed {operand : Operand} {type : ScalarType}
    (assigned : Assigned declared start low count given) (above : low ≤ count)
    (typed : ∀ types, given types → operand.expr.HasType types type)
    (nullable : operand.mayBeNull = true → type.nullable = true) :
    start.Issues (if operand.isReusable then 0 else 1) count (guardOperand operand)
      fun next guarded =>
        operand.mayBeNull.toNat ≤ guarded.1.length ∧
          Assigned declared start low next fun types =>
            given types ∧ (∀ guard ∈ guarded.1, guard.test.HasType types .bool) ∧
              HasBase types type.base guarded.2 := by
  unfold guardOperand
  split
  · split
    · next mayBeNull =>
        apply CaptureNames.Issues.pure
        refine ⟨Bool.toNat_le _, assigned.imp fun types isGiven => ⟨isGiven, ?_⟩⟩
        refine ⟨?_, type, rfl, typed types isGiven⟩
        exact List.forall_mem_singleton.mpr
          ((typed types isGiven).hasValue (nullable mayBeNull))
    · next present =>
        apply CaptureNames.Issues.pure
        rw [Bool.eq_false_of_not_eq_true present]
        exact ⟨Nat.zero_le _, assigned.imp fun types isGiven =>
          ⟨isGiven, List.forall_mem_nil _, type, rfl, typed types isGiven⟩⟩
  · refine (captureValue_typed assigned above typed).bind fun capture next _ _ => ?_
    intro captured
    apply CaptureNames.Issues.pure
    refine ⟨Bool.toNat_le _, captured.imp ?_⟩
    rintro types ⟨isGiven, test, value⟩
    exact ⟨isGiven, List.forall_mem_singleton.mpr test, type.underlying, rfl, value⟩

variable (leftNullable : left.mayBeNull = true → leftType.nullable = true)
variable (rightNullable : right.mayBeNull = true → rightType.nullable = true)

include leftNullable rightNullable

/-- The tests of both operands, behind others. -/
theorem guardBoth_typed {first : List Guard} (above : low ≤ count)
    (assigned : Assigned declared start low count fun types =>
      (∀ guard ∈ first, guard.test.HasType types .bool) ∧
        left.expr.HasType types leftType ∧ right.expr.HasType types rightType) :
    start.Issues ((if right.isReusable then 0 else 1) +
        if left.isReusable then 0 else 1) count
      (do
        let (leftGuards, leftExpr) ← guardOperand left
        let (rightGuards, rightExpr) ← guardOperand right
        return (first ++ leftGuards ++ rightGuards, leftExpr, rightExpr))
      fun next guarded =>
        first.length + left.mayBeNull.toNat + right.mayBeNull.toNat ≤
            guarded.1.length ∧
          Assigned declared start low next fun types =>
            (∀ guard ∈ guarded.1, guard.test.HasType types .bool) ∧
              HasBase types leftType.base guarded.2.1 ∧
              HasBase types rightType.base guarded.2.2 := by
  refine (guardOperand_typed assigned above (fun types isGiven => isGiven.2.1)
    leftNullable).bind ?_
  rintro ⟨leftGuards, leftExpr⟩ middle aboveCount - ⟨leftMany, leftTyped⟩
  refine ((guardOperand_typed leftTyped (above.trans aboveCount)
    (fun types isGiven => isGiven.1.2.2) rightNullable).bind ?_).weaken
      (Nat.le_of_eq (Nat.zero_add _)) fun _ _ _ _ good => good
  rintro ⟨rightGuards, rightExpr⟩ next - - ⟨rightMany, bothTyped⟩
  apply CaptureNames.Issues.pure
  refine ⟨?_, bothTyped.imp ?_⟩
  · simp only [List.length_append]
    exact Nat.add_le_add (Nat.add_le_add_left leftMany _) rightMany
  · rintro types ⟨⟨⟨firstTests, -⟩, leftTests, leftBase⟩, rightTests, rightBase⟩
    exact ⟨List.forall_mem_append.mpr
      ⟨List.forall_mem_append.mpr ⟨firstTests, leftTests⟩, rightTests⟩, leftBase,
      rightBase⟩

/-- The tests in front of a comparison, of which there are as many as operands that may
be null. -/
theorem guardOperands_typed (above : low ≤ count)
    (assigned : Assigned declared start low count fun types =>
      left.expr.HasType types leftType ∧ right.expr.HasType types rightType) :
    start.Issues 2 count (guardOperands left right) fun next guarded =>
      left.mayBeNull.toNat + right.mayBeNull.toNat ≤ guarded.1.length ∧
        Assigned declared start low next fun types =>
          (∀ guard ∈ guarded.1, guard.test.HasType types .bool) ∧
            HasBase types leftType.base guarded.2.1 ∧
            HasBase types rightType.base guarded.2.2 := by
  unfold guardOperands
  split
  · next notReusable =>
      rw [Bool.and_eq_true, Bool.not_eq_true'] at notReusable
      simp only [pure_bind]
      refine ((captureAny_typed assigned above fun types fits => fits.2).bind
        fun capture middle aboveCount _ => ?_).weaken (Nat.le_refl 2)
          fun _ _ _ _ good => good
      intro captured
      let again : Operand := { right with expr := capture.value, isReusable := true }
      have againNullable : again.mayBeNull = true → rightType.nullable = true :=
        rightNullable
      have typed : Assigned declared start low middle fun types =>
          (∀ guard ∈ [(⟨true, capture.test⟩ : Guard)],
            guard.test.HasType types .bool) ∧
            left.expr.HasType types leftType ∧
            again.expr.HasType types rightType := by
        refine captured.imp ?_
        rintro types ⟨⟨leftTyped, -⟩, test, value⟩
        exact ⟨List.forall_mem_singleton.mpr test, leftTyped, value⟩
      refine (guardBoth_typed leftNullable againNullable (above.trans aboveCount)
        typed).weaken ?_ ?_
      · rw [notReusable.1]
        exact Nat.le_refl 1
      · rintro next guarded - - ⟨many, good⟩
        refine ⟨?_, good⟩
        rw [List.length_singleton, Nat.add_assoc] at many
        exact (Nat.le_add_left _ 1).trans many
  · next reusable =>
      simp only [pure_bind]
      have typed : Assigned declared start low count fun types =>
          (∀ guard ∈ ([] : List Guard), guard.test.HasType types .bool) ∧
            left.expr.HasType types leftType ∧
            right.expr.HasType types rightType :=
        assigned.imp fun types fits => ⟨List.forall_mem_nil _, fits⟩
      refine (guardBoth_typed leftNullable rightNullable above typed).weaken ?_ ?_
      · split <;> split <;> decide
      · rintro next guarded - - ⟨many, good⟩
        rw [List.length_nil, Nat.zero_add] at many
        exact ⟨many, good⟩

end

/-- Tests that are joined are a test. -/
theorem joinTests?_typed {types : Declarations} {tests : List Expr} {joined : Expr}
    (typed : ∀ test ∈ tests, test.HasType types .bool)
    (isJoined : joinTests? tests = some joined) : joined.HasType types .bool := by
  cases tests with
  | nil => cases isJoined
  | cons first rest =>
      cases isJoined
      obtain ⟨firstTyped, restTyped⟩ := List.forall_mem_cons.mp typed
      clear typed
      induction rest generalizing first with
      | nil => exact firstTyped
      | cons test rest ih =>
          obtain ⟨testTyped, others⟩ := List.forall_mem_cons.mp restTyped
          exact ih _ (firstTyped.and testTyped) others

/-- A comparison of which an operand may be null. -/
theorem comparison_typed (site : Site)
    (casts : site.options.explicitNullableCasts = true) {collapse : Bool}
    {operator : BinaryOperator} {left right : Operand}
    {leftType rightType : ScalarType} (relational : operator.isRelational = true)
    (takes : Source.takes operator leftType.base = true)
    (sameBase : leftType.base = rightType.base)
    (mayBeNull : (left.mayBeNull || right.mayBeNull) = true)
    (leftNullable : left.mayBeNull = true → leftType.nullable = true)
    (rightNullable : right.mayBeNull = true → rightType.nullable = true)
    (above : low ≤ count)
    (assigned : Assigned declared start low count fun types =>
      left.expr.HasType types leftType ∧ right.expr.HasType types rightType) :
    start.Issues 2 count
      (site.comparison collapse operator
        (.binary left.expr (convertOperator operator) right.expr) left right)
      fun next lowered => Assigned declared start low next lowered.Fits := by
  unfold Site.comparison
  split
  · apply CaptureNames.Issues.pure
    refine assigned.imp ?_
    rintro types ⟨leftTyped, rightTyped⟩
    exact HasBase.compared relational takes ⟨leftType, rfl, leftTyped⟩
      ⟨rightType, sameBase.symm, rightTyped⟩
  · refine ((guardOperands_typed leftNullable rightNullable above assigned).bind
      ?_).weaken (Nat.le_refl 2) fun _ _ _ _ good => good
    rintro ⟨guards, leftExpr, rightExpr⟩ next - - ⟨many, typed⟩
    dsimp only
    obtain ⟨first, rest, isKept, keeps⟩ := exists_keptTests collapse operator
      mayBeNull many
    rw [isKept, joinTests?]
    dsimp only
    split
    all_goals
      apply CaptureNames.Issues.pure
      refine typed.imp ?_
      rintro types ⟨tests, leftBase, rightBase⟩
      rw [← sameBase] at rightBase
      have compared := HasBase.compared relational takes leftBase rightBase
      have joined := joinTests?_typed (fun test isKept => by
        obtain ⟨guard, isGuard, rfl⟩ := mem_orderGuards (keeps isKept)
        exact tests guard isGuard) rfl
    · exact joined.and compared
    · exact joined.conditional compared (nullableNull_typed casts types) rfl

/-! ## Operators -/

/-- Whether the types of the operands of an operator are such that it can be restated:
an operand that may be null has a nullable type, and that of a logical operator only
then. -/
structure Operand.Suits (operator : BinaryOperator) (operand : Operand)
    (type : ScalarType) : Prop where
  nullable : operand.mayBeNull = true → type.nullable = true
  logical : operator.isRelational = false → type = ⟨.boolean, operand.mayBeNull⟩

/-- An operator of which an operand may be null is restated with a type. -/
theorem restate_typed (site : Site)
    (casts : site.options.explicitNullableCasts = true) {collapse : Bool}
    {operator : BinaryOperator} {left right : Operand}
    {leftType rightType : ScalarType} (restated : isRestated operator = true)
    (takes : Source.takes operator leftType.base = true)
    (sameBase : leftType.base = rightType.base)
    (leftSuits : left.Suits operator leftType)
    (rightSuits : right.Suits operator rightType)
    (mayBeNull : (left.mayBeNull || right.mayBeNull) = true) (above : low ≤ count)
    (assigned : Assigned declared start low count fun types =>
      left.expr.HasType types leftType ∧ right.expr.HasType types rightType) :
    start.Issues 2 count
      (site.restate collapse operator
        (.binary left.expr (convertOperator operator) right.expr) left right)
      fun next lowered => Assigned declared start low next lowered.Fits := by
  have fit (logical : operator.isRelational = false) :
      Assigned declared start low count fun types =>
        left.Fits types ∧ right.Fits types := by
    rwa [leftSuits.logical logical, rightSuits.logical logical] at assigned
  have eager {operator : Target.BinaryOperator}
      (isEager : operator = .bitAnd ∨ operator = .bitOr)
      (logical : Assigned declared start low count fun types =>
        left.Fits types ∧ right.Fits types) :
      Assigned declared start low count fun types =>
        (Expr.binary left.expr operator right.expr).HasType types nullableBool := by
    refine logical.imp ?_
    rintro types ⟨leftFits, rightFits⟩
    refine leftFits.binary rightFits ?_
    rcases isEager with rfl | rfl <;>
      simp [Target.BinaryOperator.type?, mayBeNull]
  cases operator with
  | andAlso =>
      unfold Site.restate
      dsimp only
      split
      · exact collapsedConjunction_typed (fit rfl) above casts
      · exact conjunction_typed (fit rfl) above casts mayBeNull
  | orElse =>
      unfold Site.restate
      dsimp only
      split
      · exact collapsedDisjunction_typed (fit rfl)
      · exact disjunction_typed (fit rfl) above casts mayBeNull
  | and =>
      have unchanged := eager (.inl rfl) (fit rfl)
      unfold Site.restate
      dsimp only
      split
      · exact CaptureNames.Issues.pure unchanged
      split
      · exact CaptureNames.Issues.pure
          (unchanged.imp fun types typed => typed.equalsTrue rfl)
      · exact collapsedConjunction_typed (fit rfl) above casts
  | or =>
      have unchanged := eager (.inr rfl) (fit rfl)
      unfold Site.restate
      dsimp only
      split
      · exact CaptureNames.Issues.pure unchanged
      split
      · exact CaptureNames.Issues.pure
          (unchanged.imp fun types typed => typed.equalsTrue rfl)
      · exact collapsedDisjunction_typed (fit rfl)
  | equals | notEquals | lessThan | lessThanOrEqual | greaterThan
  | greaterThanOrEqual =>
      exact comparison_typed site casts rfl takes sameBase mayBeNull
        leftSuits.nullable rightSuits.nullable above assigned
  | _ => cases restated

/-- An operator of which no operand may be null is a `bool` as it stands. -/
theorem unchanged_typed {operator : BinaryOperator} {left right : Operand}
    {leftType rightType : ScalarType} (restated : isRestated operator = true)
    (takes : Source.takes operator leftType.base = true)
    (sameBase : leftType.base = rightType.base)
    (leftSuits : left.Suits operator leftType)
    (rightSuits : right.Suits operator rightType)
    (leftPresent : left.mayBeNull = false) (rightPresent : right.mayBeNull = false)
    {types : Declarations} (leftTyped : left.expr.HasType types leftType)
    (rightTyped : right.expr.HasType types rightType) :
    (Expr.binary left.expr (convertOperator operator) right.expr).HasType types
      .bool := by
  cases relational : operator.isRelational with
  | true =>
      exact HasBase.compared relational takes ⟨leftType, rfl, leftTyped⟩
        ⟨rightType, sameBase.symm, rightTyped⟩
  | false =>
      rw [leftSuits.logical relational, leftPresent] at leftTyped
      rw [rightSuits.logical relational, rightPresent] at rightTyped
      refine leftTyped.binary rightTyped ?_
      cases operator with
      | andAlso | orElse | and | or => rfl
      | equals | notEquals | lessThan | lessThanOrEqual | greaterThan
      | greaterThanOrEqual => cases relational
      | _ => cases restated

end

end BasicLowering.Lowering
