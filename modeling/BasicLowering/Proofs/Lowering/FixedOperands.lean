import BasicLowering.Proofs.Lowering.Assembly
import BasicLowering.Proofs.Lowering.Rewording
import BasicLowering.Proofs.Lowering.Order

/-!
# Restated operators on operands of fixed values

The operands of an operator may be any expressions, with captures of their own.
All that is asked of them is that they have a fixed value and make the same calls
whenever they are evaluated. What the restated operator comes to, and which calls
it makes in which order, is then a matter of the two values and the two lists of
calls alone.
-/

namespace BasicLowering.Lowering

open Source Binding Analysis Semantics
open Target (Expr Environment Knowledge Acts StandsIn Closed)

/-! ## Restating on stand-ins -/

/-- Stand-ins are evaluated where nothing is a variable. -/
def standInScene {State : Type} (start : CaptureNames)
    (does : String → Behavior State) : Scene State where
  environment := Target.standInProgram does
  start := start
  apart _ _ := rfl

/-- What is known of an operand, said of its stand-in. -/
def Operand.standIn (operand : Operand) (name : String) : Operand :=
  { operand with expr := .standIn name }

/-- One thing for the stand-in of the left operand and one for that of the right
one. -/
def sideOf {Thing : Type} (left right : Thing) (name : String) : Thing :=
  if name = "left" then left else right

@[simp] theorem sideOf_left {Thing : Type} (left right : Thing) :
    sideOf left right "left" = left :=
  if_pos rfl

@[simp] theorem sideOf_right {Thing : Type} (left right : Thing) :
    sideOf left right "right" = right :=
  if_neg (by decide)

section

variable {State : Type} {environment : Environment State} {outer : Knowledge}
variable {names : CaptureNames} {left right : Operand}
variable {leftDoes rightDoes : Behavior State}

/-- Two operands of which both are apart from the next names of a session. -/
theorem standsIn_sideOf
    (leftActs : Acts environment outer left.expr leftDoes)
    (rightActs : Acts environment outer right.expr rightDoes)
    (unknown : ∀ name ∈ names.upcoming 2, outer name = none)
    (unread : ∀ name ∈ names.upcoming 2, ∀ state,
      environment.read state name = none)
    (leftApart : ∀ name ∈ names.upcoming 2, .binds name ∉ left.expr.occurrences)
    (rightApart : ∀ name ∈ names.upcoming 2,
      .binds name ∉ right.expr.occurrences) :
    StandsIn environment (names.upcoming 2) outer
      (sideOf left.expr right.expr) (sideOf leftDoes rightDoes) where
  acts operand := by
    unfold sideOf
    split
    · exact leftActs
    · exact rightActs
  unknown := unknown
  unread := unread
  apart name isName operand := by
    unfold sideOf
    split
    · exact leftApart name isName
    · exact rightApart name isName

/-- An operator restated on its operands, in terms of their stand-ins. -/
theorem restate_eq_fill (site : Site) (collapse : Bool)
    (operator : BinaryOperator) (target : Target.BinaryOperator) :
    site.restate collapse operator (.binary left.expr target right.expr) left
        right =
      Lowered.fill (sideOf left.expr right.expr) <$>
        site.restate collapse operator
          (.binary (.standIn "left") target (.standIn "right"))
          (left.standIn "left") (right.standIn "right") := by
  have filled := restate_fill (sideOf left.expr right.expr) site collapse operator
    target (left.standIn "left") (right.standIn "right")
  simpa [Operand.standIn, Operand.fill, Expr.fill, Expr.standIn] using filled

/-- What an expression does with stand-ins, it does with the operands. -/
theorem run_of_denotes {expr : Expr} {last : Nat} {before after : State}
    {value : Value} {bindings : Knowledge}
    (standsIn : StandsIn environment (names.upcoming 2) outer
      (sideOf left.expr right.expr) (sideOf leftDoes rightDoes))
    (denotes : (standInScene names (sideOf leftDoes rightDoes)).Denotes 0 last
      expr before value after)
    (bound : ∀ name, .binds name ∈ expr.occurrences → name ∈ names.upcoming 2)
    (within : outer.Within bindings) :
    ∃ bound, (expr.fill (sideOf left.expr right.expr)).run environment
      ⟨bindings, before⟩ = some (value, ⟨bound, after⟩) := by
  obtain ⟨shownBound, -, shownRan⟩ := denotes (fun _ => none)
    (fun _ _ _ => rfl) (fun _ => none) (.refl _)
  have shows : Target.Shows (names.upcoming 2) outer
      ⟨fun _ => none, before⟩ ⟨bindings, before⟩ :=
    { state := rfl, bindings := nofun, outer := within }
  obtain ⟨⟨actualBound, _⟩, actualRan, showsAfter⟩ :=
    standsIn.follows_run bound shows _ _ shownRan
  obtain rfl : after = _ := showsAfter.state
  exact ⟨actualBound, actualRan⟩

/-- What a restated operator does with stand-ins, it does with the operands. -/
theorem run_restate (site : Site) (collapse : Bool) (operator : BinaryOperator)
    (target : Target.BinaryOperator)
    (standsIn : StandsIn environment (names.upcoming 2) outer
      (sideOf left.expr right.expr) (sideOf leftDoes rightDoes))
    {before after : State} {value : Value}
    (restates : names.Issues 2 0
      (site.restate collapse operator
        (.binary (.standIn "left") target (.standIn "right"))
        (left.standIn "left") (right.standIn "right"))
      fun last lowered =>
        (standInScene names (sideOf leftDoes rightDoes)).Restates 0 last lowered
          before value after)
    {bindings : Knowledge} (within : outer.Within bindings) :
    ∃ bound, (site.restate collapse operator
        (.binary left.expr target right.expr) left right names).1.expr.run
          environment ⟨bindings, before⟩ = some (value, ⟨bound, after⟩) := by
  obtain ⟨lowered, last, ran, -, -, restated⟩ := restates
  have issues : names.Issues 2 0 _ fun next (lowered : Lowered) =>
      Assembled [left.standIn "left", right.standIn "right"]
        (names.between 0 next) lowered.expr :=
    restate_assembled site collapse operator target
  obtain ⟨_, count, sameRan, -, few, assembled⟩ := issues
  obtain ⟨rfl, -⟩ := Prod.mk.inj (ran.symm.trans sameRan)
  have bound (name : String) (binds : .binds name ∈ lowered.expr.occurrences) :
      name ∈ names.upcoming 2 := by
    obtain ofOperand | isName := assembled.binds_iff.mp binds
    · simp [Operand.standIn, Expr.standIn, Expr.occurrences,
        Expr.occurrencesAmong] at ofOperand
    · obtain ⟨number, above, below, rfl⟩ := CaptureNames.upcoming_mem_iff.mp isName
      exact CaptureNames.upcoming_mem_iff.mpr
        ⟨number, above, by omega, rfl⟩
  rw [restate_eq_fill]
  change ∃ bound, (Lowered.fill _
    (site.restate collapse operator _ _ _ names).1).expr.run environment _ = _
  rw [CaptureNames.advance_zero] at ran
  rw [ran]
  exact run_of_denotes standsIn restated.denotes bound within

end

/-! ## Results that are not null -/

theorem collapsedConjunction_notNull (site : Site) (left right : Operand)
    (names : CaptureNames) :
    (site.collapsedConjunction left right names).1.notNull = true := by
  unfold Site.collapsedConjunction
  split
  · rfl
  split
  · rfl
  split <;> rfl

theorem collapsedDisjunction_notNull (left right : Operand)
    (names : CaptureNames) :
    (collapsedDisjunction left right names).1.notNull = true := by
  unfold collapsedDisjunction
  split <;> rfl

/-- Each operand that may be null is guarded. -/
theorem le_length_guardOperands (left right : Operand) (names : CaptureNames) :
    left.mayBeNull.toNat + right.mayBeNull.toNat ≤
      (guardOperands left right names).1.1.length := by
  obtain ⟨leftSlot, leftExpr, leftNull, leftReusable⟩ := left
  obtain ⟨rightSlot, rightExpr, rightNull, rightReusable⟩ := right
  cases leftReusable <;> cases rightReusable <;> cases leftNull <;>
    cases rightNull <;> exact Nat.le_of_ble_eq_true rfl

theorem naming_bind {First Final : Type} (step : Naming First)
    (rest : First → Naming Final) (names : CaptureNames) :
    (step >>= rest) names = rest (step names).1 (step names).2 :=
  rfl

theorem naming_pure {Result : Type} (result : Result) (names : CaptureNames) :
    (pure result : Naming Result) names = (result, names) :=
  rfl

/-- Where null counts as false, a comparison is known not to be null. -/
theorem comparison_notNull (site : Site) (operator : BinaryOperator)
    (leftExpr rightExpr : Expr) (target : Target.BinaryOperator) {left right : Operand}
    (mayBeNull : (left.mayBeNull || right.mayBeNull) = true) (names : CaptureNames) :
    (site.comparison true operator (.binary leftExpr target rightExpr) left right
      names).1.notNull = true := by
  have enough := le_length_guardOperands left right names
  unfold Site.comparison
  split
  · rfl
  · simp only [naming_bind]
    generalize guardOperands left right names = guarded at enough
    obtain ⟨⟨guards, _, _⟩, later⟩ := guarded
    obtain ⟨first, rest, isKept, -⟩ := exists_keptTests true operator mayBeNull enough
    simp only [isKept, joinTests?]
    rfl

theorem restate_notNull (site : Site) {operator : BinaryOperator}
    (isRestated : isRestated operator = true)
    (leftExpr rightExpr : Expr) (target : Target.BinaryOperator) {left right : Operand}
    (mayBeNull : (left.mayBeNull || right.mayBeNull) = true) (names : CaptureNames) :
    (site.restate true operator (.binary leftExpr target rightExpr) left right
      names).1.notNull = true := by
  unfold Site.restate
  split
  · exact collapsedConjunction_notNull site left right names
  · exact collapsedDisjunction_notNull left right names
  iterate 2
    simp only [Bool.not_true, Bool.false_eq_true, if_false]
    split
    · rfl
    split
    · exact collapsedConjunction_notNull site left right names
    · exact collapsedDisjunction_notNull left right names
  · exact comparison_notNull site operator leftExpr rightExpr target mayBeNull names

/-! ## Operands of fixed values -/

/-- What an operand of a fixed value does: it adds its calls to those that have
been made so far. -/
def calling {Call : Type} (value : Value) (calls : List Call) :
    Behavior (List Call) :=
  fun made => (value, made ++ calls)

/-- An operand, its value, and the calls that it makes. -/
structure FixedOperand (Call : Type) where
  slot : Slot
  type : ExprType
  lowered : Lowered
  value : Value
  calls : List Call

/-- What an operand does. -/
def FixedOperand.does {Call : Type} (operand : FixedOperand Call) :
    Behavior (List Call) :=
  calling operand.value operand.calls

/-- Whether an operand has its value and makes its calls wherever it is evaluated,
and mentions none of the next names of a session. An operand that is taken not to
be null is not null, and one that may be evaluated again makes no calls. -/
structure Site.Fixes {Call : Type} (site : Site) (path : Path) (parent : Step)
    (names : CaptureNames) (environment : Environment (List Call))
    (outer : Knowledge) (operand : FixedOperand Call) : Prop where
  acts : Acts environment outer operand.lowered.expr operand.does
  apart : ∀ name ∈ names.upcoming 2,
    .binds name ∉ operand.lowered.expr.occurrences ∧
      .reads name ∉ operand.lowered.expr.occurrences
  notNull : site.mayBeNull path parent operand.slot operand.type
    operand.lowered = false → operand.value ≠ .null
  silent : isSafelyReusable site.model site.arena operand.slot = true →
    operand.calls = []

/-- Whether an operator stands between two operands of fixed values, both of which
are converted to nullable types. The next names of the session have no meaning
yet. -/
structure Site.Applies {Call : Type} (site : Site) (path : Path) (parent : Step)
    (names : CaptureNames) (environment : Environment (List Call))
    (outer : Knowledge) (operator : BinaryOperator)
    (left right : FixedOperand Call) : Prop where
  found : site.arena.binary? parent.effective =
    some (left.slot, operator, right.slot)
  leftNullable : convertsToNullable site.model left.type = true
  rightNullable : convertsToNullable site.model right.type = true
  left : site.Fixes path parent names environment outer left
  right : site.Fixes path parent names environment outer right
  unknown : ∀ name ∈ names.upcoming 2, outer name = none
  unread : ∀ name ∈ names.upcoming 2, ∀ made, environment.read made name = none

/-- The plain operator between two operands. -/
def plainOperator {Call : Type} (operator : BinaryOperator)
    (left right : FixedOperand Call) : Expr :=
  .binary left.lowered.expr (convertOperator operator) right.lowered.expr

/-- Whether null counts as false in the place of an expression. -/
def Site.collapses (site : Site) (path : Path) (parent : Step) : Bool :=
  canConvertToBoolean site.model site.arena path parent.referent

/-- The plain operator, restated where it has to be. -/
def Site.restated {Call : Type} (site : Site) (path : Path) (parent : Step)
    (operator : BinaryOperator) (left right : FixedOperand Call) :
    Naming Lowered :=
  site.lowerBinary path parent left.type right.type
    (plainOperator operator left right) left.lowered right.lowered

section

variable {Call : Type} {site : Site} {path : Path} {parent : Step}
variable {names : CaptureNames} {environment : Environment (List Call)}
variable {outer : Knowledge} {operator : BinaryOperator}
variable {left right : FixedOperand Call} {made : List Call}

/-- What is known about an operand of a fixed value. -/
abbrev Site.known (site : Site) (path : Path) (parent : Step)
    (operand : FixedOperand Call) : Operand :=
  site.operand path parent operand.slot operand.type operand.lowered

/-- The scene of the stand-ins. -/
abbrev fixedScene (names : CaptureNames) (left right : FixedOperand Call) :
    Scene (List Call) :=
  standInScene names (sideOf left.does right.does)

theorem Site.Applies.standsIn
    (applies : site.Applies path parent names environment outer operator left
      right) :
    StandsIn environment (names.upcoming 2) outer
      (sideOf (site.known path parent left).expr
        (site.known path parent right).expr)
      (sideOf left.does right.does) :=
  standsIn_sideOf applies.left.acts applies.right.acts applies.unknown
    applies.unread (fun name isName => (applies.left.apart name isName).1)
    fun name isName => (applies.right.apart name isName).1

theorem Site.Fixes.reads_left
    (fixes : site.Fixes path parent names environment outer left)
    (right : FixedOperand Call) (made : List Call) :
    (fixedScene names left right).Reads 0 0
      ((site.known path parent left).standIn "left") (left.does.course made) where
  denotes _ _ := .call rfl
  notNull := fixes.notNull
  still reusable := by
    simp [Behavior.course, FixedOperand.does, calling, fixes.silent reusable]

/-- An operand that may be evaluated again has its value again. -/
theorem Site.Fixes.rereads_left
    (fixes : site.Fixes path parent names environment outer left) :
    (fixedScene names left right).Rereads 0 0
      ((site.known path parent left).standIn "left") left.value made
      left.value where
  captured _ := rfl
  evaluated reusable := by
    have reads := fixes.reads_left right made
    have denotes := reads.denotes
    rwa [reads.still reusable] at denotes

theorem Site.Fixes.reads_right
    (fixes : site.Fixes path parent names environment outer right)
    (left : FixedOperand Call) (made : List Call) :
    (fixedScene names left right).Reads 0 0
      ((site.known path parent right).standIn "right")
      (right.does.course made) where
  denotes _ _ := .call rfl
  notNull := fixes.notNull
  still reusable := by
    simp [Behavior.course, FixedOperand.does, calling, fixes.silent reusable]

/-- The two sides, in the order in which they are evaluated. -/
theorem Site.Applies.sides
    (applies : site.Applies path parent names environment outer operator left
      right) (made : List Call) (rightFirst : Bool) (needed : Prop) :
    (fixedScene names left right).Sides 0 0 0
      ((site.known path parent left).standIn "left")
      ((site.known path parent right).standIn "right")
      (left.does.leftCourse rightFirst right.does made)
      (left.does.rightCourse rightFirst right.does made) needed where
  left := applies.left.reads_left right _
  right _ := applies.right.reads_right left _
  above := Nat.le_refl 0
  below := Nat.le_refl 0
  bounded := by decide

/-- The calls that have been made when a logical operator is done. -/
theorem after_logical :
    (if skipsRight operator (left.does.leftCourse false right.does made).value then
      (left.does.leftCourse false right.does made).after
    else left.does.lastState false right.does made) =
      made ++ (left.calls ++
        if skipsRight operator left.value then [] else right.calls) := by
  simp only [Behavior.lastState, Behavior.leftCourse, Behavior.rightCourse,
    Behavior.course, FixedOperand.does, calling, Bool.false_eq_true, if_false]
  split <;> simp

/-- The calls that have been made when a comparison is done. -/
theorem after_relational (rightFirst : Bool) :
    left.does.lastState rightFirst right.does made =
      made ++ if rightFirst then right.calls ++ left.calls
        else left.calls ++ right.calls := by
  cases rightFirst <;>
    simp [Behavior.lastState, Behavior.leftCourse, Behavior.rightCourse,
      Behavior.course, FixedOperand.does, calling]

/-- An operator is restated if one of its operands may be null. -/
theorem Site.restated_eq
    (found : site.arena.binary? parent.effective =
      some (left.slot, operator, right.slot))
    (leftNullable : convertsToNullable site.model left.type = true)
    (rightNullable : convertsToNullable site.model right.type = true)
    (isRestated : isRestated operator = true) :
    site.restated path parent operator left right =
      if (site.known path parent left).mayBeNull ||
          (site.known path parent right).mayBeNull then
        site.restate (site.collapses path parent) operator
          (plainOperator operator left right) (site.known path parent left)
          (site.known path parent right)
      else return .proven (plainOperator operator left right) := by
  unfold Site.restated Site.lowerBinary
  rw [found]
  simp only [isRestated, leftNullable, rightNullable, Bool.and_self, if_true]
  rfl

theorem Site.Applies.restated_eq
    (applies : site.Applies path parent names environment outer operator left
      right) (isRestated : isRestated operator = true) :
    site.restated path parent operator left right =
      if (site.known path parent left).mayBeNull ||
          (site.known path parent right).mayBeNull then
        site.restate (site.collapses path parent) operator
          (plainOperator operator left right) (site.known path parent left)
          (site.known path parent right)
      else return .proven (plainOperator operator left right) :=
  Site.restated_eq applies.found applies.leftNullable applies.rightNullable
    isRestated

/-- A call runs as its result does on stand-ins. -/
theorem Site.Applies.runs
    (applies : site.Applies path parent names environment outer operator left
      right) (isRestated : isRestated operator = true)
    {value : Value} {after : List Call}
    (restates : ((site.known path parent left).mayBeNull ||
        (site.known path parent right).mayBeNull) = true → names.Issues 2 0
      (site.restate (site.collapses path parent) operator
        (.binary (.standIn "left") (convertOperator operator)
          (.standIn "right"))
        ((site.known path parent left).standIn "left")
        ((site.known path parent right).standIn "right"))
      fun last lowered =>
        (fixedScene names left right).Restates 0 last lowered made value after)
    (plain : (site.known path parent left).mayBeNull = false →
      (site.known path parent right).mayBeNull = false →
        (fixedScene names left right).Denotes 0 0
          (.binary (.standIn "left") (convertOperator operator)
            (.standIn "right")) made value after)
    {bindings : Knowledge} (within : outer.Within bindings) :
    ∃ bound, (site.restated path parent operator left right names).1.expr.run
      environment ⟨bindings, made⟩ = some (value, ⟨bound, after⟩) := by
  rw [applies.restated_eq isRestated]
  split
  · next mayBeNull =>
      exact run_restate site _ operator _ applies.standsIn (restates mayBeNull)
        within
  · next present =>
      simp only [Bool.or_eq_true, not_or, Bool.not_eq_true] at present
      have filled := run_of_denotes applies.standsIn
        (plain present.1 present.2) (by
          simp [Expr.standIn, Expr.occurrences, Expr.occurrencesAmong]) within
      simp only [Expr.fill, Expr.standIn, sideOf_left, sideOf_right] at filled
      exact filled

theorem Site.Applies.notNull
    (applies : site.Applies path parent names environment outer operator left
      right) (isRestated : isRestated operator = true)
    (collapses : site.collapses path parent = true) :
    (site.restated path parent operator left right names).1.notNull = true := by
  rw [applies.restated_eq isRestated, collapses]
  split
  · next mayBeNull => exact restate_notNull site isRestated _ _ _ mayBeNull names
  · rfl

/-! ## Logical operators -/

theorem runsRightFirst_of_not_isRelational {leftOperand rightOperand : Operand}
    (notRelational : operator.isRelational = false) (collapse : Bool) :
    runsRightFirst collapse operator leftOperand rightOperand = false := by
  rw [runsRightFirst, notRelational, Bool.false_and, Bool.false_and]

/-- The operands of a logical operator run in order. -/
theorem Site.Applies.logicalSides
    (applies : site.Applies path parent names environment outer operator left
      right) (made : List Call)
    (leftLogical : left.value.isLogical = true)
    (rightLogical : right.value.isLogical = true) :
    (fixedScene names left right).LogicalSides operator 0 0 0
      ((site.known path parent left).standIn "left")
      ((site.known path parent right).standIn "right")
      (left.does.leftCourse false right.does made)
      (left.does.rightCourse false right.does made) where
  toSides := applies.sides made false _
  leftLogical := leftLogical
  rightLogical _ := rightLogical
  link := rfl

/-- Where both operands have values, the outcome is that of the operator. -/
theorem outcomeOf_boolean
    (logical : (operator.isConjunction || operator.isDisjunction) = true)
    (collapse leftTruth rightTruth : Bool) :
    outcomeOf collapse operator (.boolean leftTruth) (.boolean rightTruth) =
      combine operator (.boolean leftTruth) (.boolean rightTruth) := by
  cases operator with
  | andAlso | and | orElse | or =>
      cases collapse <;> cases leftTruth <;> cases rightTruth <;> rfl
  | _ => cases logical

theorem isRelational_of_logical
    (logical : (operator.isConjunction || operator.isDisjunction) = true) :
    operator.isRelational = false := by
  cases operator <;> first | rfl | cases logical

/-- A logical operator is restated by an expression that has its three-valued value,
or its truth where null counts as false. The calls of the left operand are made
once, and after them those of the right one unless the left one decides. -/
theorem lowerBinary_logical
    (applies : site.Applies path parent names environment outer operator left
      right)
    (logical : (operator.isConjunction || operator.isDisjunction) = true)
    (leftLogical : left.value.isLogical = true)
    (rightLogical : right.value.isLogical = true)
    (silent : Analysis.isPure site.model site.arena right.slot = true →
      right.calls = []) :
    (site.collapses path parent = true →
      (site.restated path parent operator left right names).1.notNull = true) ∧
    ∀ bindings made, outer.Within bindings →
      ∃ bound, (site.restated path parent operator left right names).1.expr.run
          environment ⟨bindings, made⟩ =
        some (outcomeOf (site.collapses path parent) operator left.value right.value,
          ⟨bound, made ++ (left.calls ++
            if skipsRight operator left.value then [] else right.calls)⟩) := by
  have notRelational := isRelational_of_logical logical
  have isRestated : isRestated operator = true := by
    rw [isRestated, notRelational, Bool.false_or, logical]
  refine ⟨applies.notNull isRestated, fun bindings made within => ?_⟩
  have sides := applies.logicalSides made leftLogical rightLogical
  apply applies.runs isRestated _ _ within
  · intro _
    have fit : Fit operator left.value right.value := by
      rw [Fit, notRelational]
      exact ⟨leftLogical, fun _ => rightLogical⟩
    have rightStill (isPure : site.isPure (site.known path parent right) = true) :
        (left.does.rightCourse false right.does made).after =
          (left.does.rightCourse false right.does made).before := by
      simp [Behavior.rightCourse, Behavior.course, FixedOperand.does, calling,
        silent isPure]
    obtain ⟨value, isValue, restates⟩ := sides.toSides.restate_restates site
      (site.collapses path parent) isRestated fit
      (by rw [runsRightFirst_of_not_isRelational notRelational]
          exact inTurn_courses false)
      (fun isPure _ => rightStill isPure) left.value
      fun _ _ => applies.left.rereads_left
    rw [isValue fun _ => rfl, after_logical] at restates
    exact restates
  · intro leftPresent rightPresent
    have isLeft := Value.eq_boolean_isTrue leftLogical
      (applies.left.notNull leftPresent)
    have isRight := Value.eq_boolean_isTrue rightLogical
      (applies.right.notNull rightPresent)
    have denotes := sides.plain_denotes logical isLeft isRight
    have ends : Scene.endOf operator (left.does.leftCourse false right.does made)
        (left.does.rightCourse false right.does made) = _ :=
      after_logical
    have sameOutcome :
        outcomeOf (site.collapses path parent) operator left.value right.value =
          combine operator left.value right.value := by
      rw [isLeft, isRight]
      exact outcomeOf_boolean logical _ _ _
    rw [ends] at denotes
    rw [sameOutcome]
    exact denotes

/-! ## Comparisons -/

/-- Whether a comparison evaluates its right operand first. -/
def Site.turns (site : Site) (path : Path) (parent : Step)
    (operator : BinaryOperator) (left right : FixedOperand Call) : Bool :=
  ((site.known path parent left).mayBeNull ||
      (site.known path parent right).mayBeNull) &&
    runsRightFirst (site.collapses path parent) operator
      (site.known path parent left) (site.known path parent right)

theorem restate_of_isRelational (relational : operator.isRelational = true)
    (collapse : Bool) (unchanged : Expr) (leftSide rightSide : Operand) :
    site.restate collapse operator unchanged leftSide rightSide =
      site.comparison collapse operator unchanged leftSide rightSide := by
  cases operator <;> first | rfl | cases relational

/-- The result is assembled from the operands and the names that are issued. -/
theorem Site.Applies.assembled
    (applies : site.Applies path parent names environment outer operator left
      right) (isRestated : isRestated operator = true) :
    ∃ lowered count, site.restated path parent operator left right names =
        (lowered, names.advance count) ∧ count ≤ 2 ∧
      Assembled [site.known path parent left, site.known path parent right]
        (names.upcoming count) lowered.expr := by
  rw [applies.restated_eq isRestated]
  split
  · have issues : names.Issues 2 0 _ fun next (lowered : Lowered) =>
        Assembled [site.known path parent left, site.known path parent right]
          (names.between 0 next) lowered.expr :=
      restate_assembled site (site.collapses path parent) operator
        (convertOperator operator)
    obtain ⟨lowered, count, ran, -, few, assembled⟩ := issues
    rw [CaptureNames.advance_zero] at ran
    exact ⟨lowered, count, ran, by omega, assembled⟩
  · refine ⟨.proven (plainOperator operator left right), 0, ?_, Nat.zero_le 2,
      ?_⟩
    · rw [CaptureNames.advance_zero]
      rfl
    · rw [CaptureNames.upcoming_zero]
      exact assembled_binary (site.known path parent left)
        (site.known path parent right) (convertOperator operator)

/-- A name that no operand binds is bound by a template at one place. -/
theorem Assembled.count_binds {operands : List Operand} {issued : List String}
    {expr : Expr} {name : String} (assembled : Assembled operands issued expr)
    (unbound : ∀ operand ∈ operands, .binds name ∉ operand.expr.occurrences)
    (isIssued : name ∈ issued) (nodup : issued.Nodup) :
    expr.occurrences.count (.binds name) = 1 := by
  have notExtra : ¬ IsExtra operands issued (.binds name) := by
    rintro (⟨_, -, ⟨⟩⟩ | ⟨operand, isOperand, -, occurs⟩)
    exact unbound operand isOperand occurs
  have notOfOperand : (operands.flatMap (·.expr.occurrences)).count
      (.binds name) = 0 := by
    rw [List.count_eq_zero, List.mem_flatMap]
    rintro ⟨operand, isOperand, occurs⟩
    exact unbound operand isOperand occurs
  have once : (issued.map Target.Occurrence.binds).count (.binds name) = 1 := by
    rw [← Target.count_boundAt, Target.boundAt_binds]
    exact List.count_eq_one_of_mem nodup isIssued
  rw [(assembled.covers (.binds name)).2 notExtra, partsOf, List.count_append,
    notOfOperand, once]

/-- A name is issued only to be bound, at one place, and what is read is bound
before. -/
theorem Site.Applies.issues
    (applies : site.Applies path parent names environment outer operator left
      right) (isRestated : isRestated operator = true) :
    ∃ count, (site.restated path parent operator left right names).2 =
        names.advance count ∧
      (∀ name ∈ names.upcoming count,
        (site.restated path parent operator left right names).1.expr.occurrences.count
          (.binds name) = 1) ∧
      Closed (· ∈ names.upcoming count)
        (site.restated path parent operator left right names).1.expr := by
  obtain ⟨lowered, count, ran, few, assembled⟩ := applies.assembled isRestated
  have isUpcoming {name : String} (isName : name ∈ names.upcoming count) :
      name ∈ names.upcoming 2 := by
    obtain ⟨number, above, below, rfl⟩ := CaptureNames.upcoming_mem_iff.mp isName
    exact CaptureNames.upcoming_mem_iff.mpr ⟨number, above, by omega, rfl⟩
  have apart (name : String) (isName : name ∈ names.upcoming count) :
      ∀ operand ∈ [site.known path parent left, site.known path parent right],
        .binds name ∉ operand.expr.occurrences ∧
          .reads name ∉ operand.expr.occurrences := by
    simp only [List.forall_mem_cons]
    exact ⟨applies.left.apart name (isUpcoming isName),
      applies.right.apart name (isUpcoming isName), nofun⟩
  rw [ran]
  refine ⟨count, rfl, fun name isName => ?_, assembled.closed _ ?_⟩
  · exact assembled.count_binds
      (fun operand isOperand => (apart name isName operand isOperand).1) isName
      (CaptureNames.nodup_upcoming (Nat.lt_of_le_of_lt few (by decide)))
  · intro operand isOperand
    exact Target.closed_of_reads fun name isRead isName =>
      (apart name isName operand isOperand).2 isRead

/-- A comparison is restated by an expression that is null where an operand is null, or
false where null counts as false. The calls of each operand are made once; those of the
right one come first where it alone has to be captured. Each name that the rewrite issues
is bound once, and read only where it is bound. -/
theorem lowerBinary_relational
    (applies : site.Applies path parent names environment outer operator left
      right)
    (relational : operator.isRelational = true)
    (comparable : Comparable operator left.value right.value) :
    (site.collapses path parent = true →
      (site.restated path parent operator left right names).1.notNull = true) ∧
    ((site.known path parent left).mayBeNull = false →
      (site.known path parent right).mayBeNull = false →
      site.restated path parent operator left right names =
        (.proven (plainOperator operator left right), names)) ∧
    (∀ bindings made, outer.Within bindings →
      ∃ bound, (site.restated path parent operator left right names).1.expr.run
          environment ⟨bindings, made⟩ =
        some (outcomeOf (site.collapses path parent) operator left.value right.value,
          ⟨bound, made ++
            if site.turns path parent operator left right then
              right.calls ++ left.calls
            else left.calls ++ right.calls⟩)) ∧
    ∃ count, (site.restated path parent operator left right names).2 =
        names.advance count ∧
      (∀ name ∈ names.upcoming count,
        (site.restated path parent operator left right names).1.expr.occurrences.count
          (.binds name) = 1) ∧
      Closed (· ∈ names.upcoming count)
        (site.restated path parent operator left right names).1.expr := by
  have isRestated : isRestated operator = true := by
    rw [isRestated, relational, Bool.true_or, Bool.true_or]
  refine ⟨applies.notNull isRestated, ?_, ?_, ?_⟩
  · intro leftPresent rightPresent
    rw [applies.restated_eq isRestated, leftPresent, rightPresent]
    rfl
  · intro bindings made within
    apply applies.runs isRestated _ _ within
    · intro mayBeNull
      have sides := applies.sides made
        (site.turns path parent operator left right) True
      have inTurn : InTurn
          (left.does.leftCourse (site.turns path parent operator left right)
            right.does made)
          (left.does.rightCourse (site.turns path parent operator left right)
            right.does made)
          (runsRightFirst (site.collapses path parent) operator
            (site.known path parent left) (site.known path parent right)) made
          (left.does.lastState (site.turns path parent operator left right)
            right.does made) := by
        rw [Site.turns, mayBeNull, Bool.true_and]
        exact inTurn_courses _
      have restates := sides.comparison_restates site
        (site.collapses path parent) relational comparable inTurn
      rw [restate_of_isRelational relational]
      rw [after_relational] at restates
      exact restates
    · intro leftPresent rightPresent known opened
      have inOrder : site.turns path parent operator left right = false := by
        rw [Site.turns, leftPresent, rightPresent]
        rfl
      have sides := applies.sides made false True
      rw [inOrder, ← after_relational]
      exact .binary (decides_of_isRelational relational left.value)
        (Scene.Sides.applies_of_present relational comparable _
          (applies.left.notNull leftPresent)
          (applies.right.notNull rightPresent))
        (sides.leftYields (Nat.le_refl 0) opened)
        (sides.rightYields trivial (Nat.le_refl 0) opened)
  · exact applies.issues isRestated

end

/-! ## Two calls -/

/-- A program in which `f` has a value and `g` has one. -/
def telling (leftValue rightValue : Value) : Environment (List String) where
  read _ _ := none
  perform made
    | .call (.identifier "f") [] => some (leftValue, made ++ ["f"])
    | .call (.identifier "g") [] => some (rightValue, made ++ ["g"])
    | _ => none

/-- `f()`, which may be null. -/
def callOfF (value : Value) : FixedOperand String where
  slot := some ⟨4⟩
  type := .unconverted .nullableBoolean
  lowered := .plain (.call (.identifier "f") [])
  value := value
  calls := ["f"]

/-- `g()`, which may be null. -/
def callOfG (value : Value) : FixedOperand String where
  slot := some ⟨6⟩
  type := .unconverted .nullableBoolean
  lowered := .plain (.call (.identifier "g") [])
  value := value
  calls := ["g"]

theorem apart_call : ∀ function ∈ ["f", "g"],
    ∀ name ∈ ({} : CaptureNames).upcoming 2,
      .binds name ∉ (Expr.call (.identifier function) []).occurrences ∧
        .reads name ∉ (Expr.call (.identifier function) []).occurrences := by
  decide

theorem converts_nullableBoolean :
    convertsToNullable nullableSite.model (.unconverted .nullableBoolean) =
      true := by
  decide

/-- The operators between the two calls. -/
theorem applies_calls {parent : Step} {operator : BinaryOperator}
    (leftValue rightValue : Value)
    (found : nullableSite.arena.binary? parent.effective =
      some (some ⟨4⟩, operator, some ⟨6⟩))
    (leftMayBeNull : (nullableSite.known [] parent (callOfF leftValue)).mayBeNull =
      true)
    (rightMayBeNull : (nullableSite.known [] parent (callOfG rightValue)).mayBeNull =
      true) :
    nullableSite.Applies [] parent {} (telling leftValue rightValue)
      (fun _ => none) operator (callOfF leftValue) (callOfG rightValue) where
  found := found
  leftNullable := converts_nullableBoolean
  rightNullable := converts_nullableBoolean
  left :=
    { acts :=
        { runs := fun bindings made _ => ⟨bindings, rfl⟩
          keeps := fun _ _ => rfl }
      apart := apart_call "f" (by simp)
      notNull := fun present => nomatch leftMayBeNull.symm.trans present
      silent := fun reusable => nomatch reusable }
  right :=
    { acts :=
        { runs := fun bindings made _ => ⟨bindings, rfl⟩
          keeps := fun _ _ => rfl }
      apart := apart_call "g" (by simp)
      notNull := fun present => nomatch rightMayBeNull.symm.trans present
      silent := fun reusable => nomatch reusable }
  unknown _ _ := rfl
  unread _ _ _ := rfl

/-- `f() AndAlso g()` where `f()` is null and `g()` is true: both are called. -/
theorem conjunctionOfFixedCalls_runs :
    ∃ bound, (nullableSite.restated [] (.unchanged (some ⟨8⟩)) .andAlso
        (callOfF .null) (callOfG (.boolean true)) {}).1.expr.run
          (telling .null (.boolean true)) ⟨fun _ => none, []⟩ =
      some (.null, ⟨bound, ["f", "g"]⟩) :=
  (lowerBinary_logical
    (applies_calls .null (.boolean true) rfl (by decide +kernel)
      (by decide +kernel))
    rfl rfl rfl (by decide +kernel)).2 _ [] nofun

/-- `f() = g()` where `g()` is null: `g` is called first. -/
theorem equalityOfFixedCalls_runs :
    ∃ bound, (nullableSite.restated [] (.unchanged (some ⟨9⟩)) .equals
        (callOfF (.boolean true)) (callOfG .null) {}).1.expr.run
          (telling (.boolean true) .null) ⟨fun _ => none, []⟩ =
      some (.null, ⟨bound, ["g", "f"]⟩) :=
  (lowerBinary_relational
    (applies_calls (.boolean true) .null rfl (by decide +kernel)
      (by decide +kernel))
    rfl (.inr ⟨.inl rfl, rfl, rfl⟩)).2.2.1 _ [] nofun

end BasicLowering.Lowering
