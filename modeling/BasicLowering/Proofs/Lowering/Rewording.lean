import BasicLowering.Lowering.Binary
import BasicLowering.Proofs.Lowering.Names
import BasicLowering.Proofs.Mirroring
import BasicLowering.Proofs.Target.StandIn

/-!
# Templates and what they are made of

A template looks at what is known about its operands and never at the operands
themselves, nor at the names of its captures. Changing the operands, or the names, and
restating an operator afterwards is therefore the same as restating it first. What may
be changed in this way is a `Rewording`. One of them puts operands in the places of
their stand-ins.
-/

namespace BasicLowering.Lowering

open Target (Expr)

/-- A change of expressions that goes through what templates are built of, and takes the
names of one session to those of another one. -/
structure Rewording where
  expr : Expr → Expr
  /-- Whether two sessions stand at names that go together. -/
  Level : CaptureNames → CaptureNames → Prop
  null : expr .null = .null
  boolean : ∀ value, expr (.boolean value) = .boolean value
  member : ∀ receiver name,
    expr (.member receiver name) = .member (expr receiver) name
  binary : ∀ left operator right,
    expr (.binary left operator right) = .binary (expr left) operator (expr right)
  unary : ∀ operator operand,
    expr (.unary operator operand) = .unary operator (expr operand)
  conditional : ∀ condition whenTrue whenFalse,
    expr (.conditional condition whenTrue whenFalse) =
      .conditional (expr condition) (expr whenTrue) (expr whenFalse)
  next : ∀ {names others}, Level names others →
    Level (freshName names).2 (freshName others).2
  capture : ∀ {names others}, Level names others →
    expr (.identifier (freshName names).1) = .identifier (freshName others).1
  anything : ∀ {names others} operand, Level names others →
    expr (.test operand (.anything (freshName names).1)) =
      .test (expr operand) (.anything (freshName others).1)
  notNull : ∀ {names others} operand, Level names others →
    expr (.test operand (.notNull (some (freshName names).1))) =
      .test (expr operand) (.notNull (some (freshName others).1))
  missing : ∀ {names others} operand, Level names others →
    expr (.test operand (.not (.notNull (some (freshName names).1)))) =
      .test (expr operand) (.not (.notNull (some (freshName others).1)))

namespace Rewording

variable (rewording : Rewording)

/-- Change a converted expression. -/
def lowered (lowered : Lowered) : Lowered :=
  { lowered with expr := rewording.expr lowered.expr }

/-- Change a capture. -/
def captured (capture : Capture) : Capture :=
  ⟨rewording.expr capture.test, rewording.expr capture.value⟩

/-- Change a guard. -/
def guard (guard : Guard) : Guard :=
  { guard with test := rewording.expr guard.test }

/-- Change the guards of an operand, and the expression to compare. -/
def guarded (guarded : List Guard × Expr) : List Guard × Expr :=
  (guarded.1.map rewording.guard, rewording.expr guarded.2)

/-- Whether the same is known about two operands, of which the second one has the
changed expression. -/
structure Operands (operand other : Operand) : Prop where
  expr : other.expr = rewording.expr operand.expr
  mayBeNull : other.mayBeNull = operand.mayBeNull
  isReusable : other.isReusable = operand.isReusable

/-- Whether two sites restate operators in the same way but for the change, where each has
its own right operand. -/
structure AgreesOn (first second : Site) (right other : Operand) : Prop where
  nullableNull : second.nullableNull = rewording.expr first.nullableNull
  nullableTrue : second.nullableTrue = rewording.expr first.nullableTrue
  nullableFalse : second.nullableFalse = rewording.expr first.nullableFalse
  isPure : second.isPure other = first.isPure right

/-- Whether two steps have the same result but for a change, and issue as many names. -/
abbrev Carries {Result Changed : Type} (change : Result → Changed)
    (step : Naming Result) (other : Naming Changed) : Prop :=
  Mirrors rewording.Level change step other

variable {rewording}

/-! ## Expressions -/

section

variable (left right operand : Expr)

theorem and : rewording.expr (left.and right) =
    (rewording.expr left).and (rewording.expr right) :=
  rewording.binary left _ right

theorem or : rewording.expr (left.or right) =
    (rewording.expr left).or (rewording.expr right) :=
  rewording.binary left _ right

theorem hasValue : rewording.expr operand.hasValue =
    (rewording.expr operand).hasValue :=
  rewording.member operand _

theorem getValue : rewording.expr operand.getValue =
    (rewording.expr operand).getValue :=
  rewording.member operand _

theorem hasNoValue : rewording.expr operand.hasNoValue =
    (rewording.expr operand).hasNoValue := by
  rw [Expr.hasNoValue, Expr.negate, rewording.unary, hasValue]
  rfl

theorem equalsTrue : rewording.expr operand.equalsTrue =
    (rewording.expr operand).equalsTrue := by
  rw [Expr.equalsTrue, rewording.binary, rewording.boolean]
  rfl

theorem equalsFalse : rewording.expr operand.equalsFalse =
    (rewording.expr operand).equalsFalse := by
  rw [Expr.equalsFalse, rewording.binary, rewording.boolean]
  rfl

end

/-! ## Captures -/

section

variable {operand other : Operand}

theorem carries_capture {operand : Expr} {pattern : String → Target.Pattern}
    (test : ∀ {names others}, rewording.Level names others →
      rewording.expr (.test operand (pattern (freshName names).1)) =
        .test (rewording.expr operand) (pattern (freshName others).1)) :
    rewording.Carries rewording.captured
      (freshName >>= fun name =>
        return ⟨.test operand (pattern name), .identifier name⟩)
      (freshName >>= fun name =>
        return ⟨.test (rewording.expr operand) (pattern name), .identifier name⟩) := by
  intro names others level
  refine ⟨?_, rewording.next level⟩
  exact congrArg₂ Capture.mk (test level).symm (rewording.capture level).symm

theorem carries_captureAny (operand : Expr) :
    rewording.Carries rewording.captured (captureAny operand)
      (captureAny (rewording.expr operand)) :=
  carries_capture (rewording.anything operand)

theorem carries_captureValue (operand : Expr) :
    rewording.Carries rewording.captured (captureValue operand)
      (captureValue (rewording.expr operand)) :=
  carries_capture (rewording.notNull operand)

theorem carries_captureUnlessNull (operand : Expr) :
    rewording.Carries rewording.captured (captureUnlessNull operand)
      (captureUnlessNull (rewording.expr operand)) :=
  carries_capture (rewording.missing operand)

theorem carries_captureTested {test : Expr → Expr}
    (tests : ∀ expr, rewording.expr (test expr) = test (rewording.expr expr))
    (operands : rewording.Operands operand other) :
    rewording.Carries rewording.captured (captureTested test operand)
      (captureTested test other) := by
  unfold captureTested
  rw [operands.expr]
  refine .ite operands.isReusable (fun _ => .pure _ ?_) fun _ => ?_
  · rw [captured, tests]
  · refine (carries_captureAny operand.expr).bind fun capture => .pure _ ?_
    simp only [captured, and, tests]

theorem carries_captureForFalseTest (operands : rewording.Operands operand other) :
    rewording.Carries rewording.captured (captureForFalseTest operand)
      (captureForFalseTest other) :=
  carries_captureTested equalsFalse operands

theorem carries_captureForMissingTest (operands : rewording.Operands operand other) :
    rewording.Carries rewording.captured (captureForMissingTest operand)
      (captureForMissingTest other) :=
  carries_captureTested hasNoValue operands

theorem carries_captureForMissingValue (operands : rewording.Operands operand other) :
    rewording.Carries rewording.captured (captureForMissingValue operand)
      (captureForMissingValue other) := by
  unfold captureForMissingValue
  rw [operands.expr]
  refine .ite operands.isReusable (fun _ => .pure _ ?_) fun _ => ?_
  · rw [captured, hasNoValue, getValue]
  · exact carries_captureUnlessNull operand.expr

theorem collapsed (operands : rewording.Operands operand other) :
    other.collapsed = rewording.expr operand.collapsed := by
  rw [Operand.collapsed, Operand.collapsed, operands.mayBeNull, operands.expr,
    apply_ite rewording.expr, equalsTrue]

end

/-! ## Logical operators -/

section

variable {first second : Site} {left right otherLeft otherRight : Operand}
variable (lefts : rewording.Operands left otherLeft)
variable (rights : rewording.Operands right otherRight)

omit lefts rights in
/-- Two sites that write casts alike agree where the change goes through casts. -/
theorem agreesOn_of_casts
    (cast : ∀ typeName operand,
      rewording.expr (.cast typeName operand) = .cast typeName (rewording.expr operand))
    (casts : second.options.explicitNullableCasts = first.options.explicitNullableCasts)
    (isPure : second.isPure otherRight = first.isPure right) :
    rewording.AgreesOn first second right otherRight := by
  have constant (value : Expr) (same : rewording.expr value = value) :
      second.nullableConstant value = rewording.expr (first.nullableConstant value) := by
    rw [Site.nullableConstant, Site.nullableConstant, casts, apply_ite rewording.expr, cast,
      same]
  exact ⟨constant _ rewording.null, constant _ (rewording.boolean true),
    constant _ (rewording.boolean false), isPure⟩

include lefts rights

theorem carries_collapsedDisjunction :
    rewording.Carries rewording.lowered (collapsedDisjunction left right)
      (collapsedDisjunction otherLeft otherRight) := by
  unfold collapsedDisjunction
  rw [collapsed rights, lefts.expr, rights.expr]
  refine .ite (by rw [lefts.mayBeNull]) (fun _ => .pure _ ?_) fun _ => .pure _ ?_
  · rw [lowered, Lowered.proven, Lowered.proven, or, equalsTrue]
  · rw [lowered, Lowered.proven, Lowered.proven, or, equalsTrue]

variable (sites : rewording.AgreesOn first second right otherRight)

include sites

theorem carries_conjunctionOfBoth :
    rewording.Carries rewording.expr (first.conjunctionOfBoth left right)
      (second.conjunctionOfBoth otherLeft otherRight) := by
  unfold Site.conjunctionOfBoth
  refine (carries_captureForMissingValue rights).bind fun capturedRight => ?_
  refine (carries_captureForFalseTest lefts).bind fun capturedLeft => .pure _ ?_
  simp only [rewording.conditional, sites.nullableFalse,
    sites.nullableNull, captured]

theorem carries_collapsedConjunction :
    rewording.Carries rewording.lowered (first.collapsedConjunction left right)
      (second.collapsedConjunction otherLeft otherRight) := by
  unfold Site.collapsedConjunction
  rw [collapsed rights, lefts.expr, rights.expr]
  refine .ite (by rw [lefts.mayBeNull]) (fun _ => .pure _ ?_) fun _ => ?_
  · rw [lowered, Lowered.proven, Lowered.proven, and, equalsTrue]
  refine .ite sites.isPure (fun _ => .pure _ ?_) fun _ => ?_
  · rw [lowered, Lowered.proven, Lowered.proven, and, equalsTrue]
  refine .ite (by rw [rights.mayBeNull]) (fun _ => ?_) fun _ => ?_
  · refine (carries_captureForMissingTest lefts).bind fun capture => .pure _ ?_
    simp only [lowered, Lowered.proven, captured, and, or, getValue, hasValue]
  · refine (carries_conjunctionOfBoth lefts rights sites).bind fun both => .pure _ ?_
    rw [lowered, Lowered.proven, Lowered.proven, equalsTrue]

theorem carries_conjunction :
    rewording.Carries rewording.lowered (first.conjunction left right)
      (second.conjunction otherLeft otherRight) := by
  unfold Site.conjunction
  rw [lefts.expr, rights.expr]
  refine .ite (by rw [lefts.mayBeNull]) (fun _ => .pure _ ?_) fun _ => ?_
  · rw [lowered, Lowered.plain, Lowered.plain, rewording.conditional,
      sites.nullableFalse]
  refine .ite (by rw [rights.mayBeNull]) (fun _ => ?_) fun _ => ?_
  · refine (carries_captureForFalseTest lefts).bind fun capture => .pure _ ?_
    simp only [lowered, Lowered.plain, captured, rewording.conditional,
      sites.nullableFalse]
  · exact (carries_conjunctionOfBoth lefts rights sites).bind fun both => .pure _ rfl

theorem carries_disjunction :
    rewording.Carries rewording.lowered (first.disjunction left right)
      (second.disjunction otherLeft otherRight) := by
  unfold Site.disjunction
  rw [lefts.expr, rights.expr]
  refine .ite (by rw [lefts.mayBeNull]) (fun _ => .pure _ ?_) fun _ => ?_
  · rw [lowered, Lowered.plain, Lowered.plain, rewording.conditional,
      sites.nullableTrue]
  refine (carries_captureAny left.expr).bind fun capturedLeft => ?_
  simp only [pure_bind]
  refine .ite (by rw [rights.mayBeNull]) (fun _ => .pure _ ?_) fun _ => ?_
  · simp only [lowered, Lowered.plain, captured, rewording.conditional, and, equalsTrue,
      sites.nullableTrue]
  · refine (carries_captureUnlessNull right.expr).bind fun capturedRight => .pure _ ?_
    simp only [lowered, Lowered.plain, captured, rewording.conditional, and, equalsTrue,
      sites.nullableTrue, sites.nullableNull]

end

/-! ## Comparisons -/

section

variable {operand other left right otherLeft otherRight : Operand}

theorem carries_guardOperand (operands : rewording.Operands operand other) :
    rewording.Carries rewording.guarded (guardOperand operand) (guardOperand other) := by
  unfold guardOperand
  rw [operands.expr]
  refine .ite operands.isReusable (fun _ => ?_) fun _ => ?_
  · refine .ite operands.mayBeNull (fun _ => .pure _ ?_) fun _ => .pure _ rfl
    simp only [guarded, guard, List.map_cons, List.map_nil, hasValue]
  · exact (carries_captureValue operand.expr).bind fun capture => .pure _ rfl

/-- Change the tests in front of a comparison, and what is compared. -/
def guardedBoth (rewording : Rewording) (guarded : List Guard × Expr × Expr) :
    List Guard × Expr × Expr :=
  (guarded.1.map rewording.guard, rewording.expr guarded.2.1,
    rewording.expr guarded.2.2)

variable (lefts : rewording.Operands left otherLeft)
variable (rights : rewording.Operands right otherRight)

include lefts rights

theorem carries_guardOperands :
    rewording.Carries rewording.guardedBoth (guardOperands left right)
      (guardOperands otherLeft otherRight) := by
  unfold guardOperands
  simp only [pure_bind, rights.expr]
  refine .ite (by rw [lefts.isReusable, rights.isReusable]) (fun _ => ?_) fun _ => ?_
  · refine (carries_captureAny right.expr).bind fun capture => ?_
    refine (carries_guardOperand lefts).bind fun guardedLeft => ?_
    -- A captured operand is an operand again, which is guarded in turn.
    have captured : rewording.Operands { right with expr := capture.value, isReusable := true }
        { otherRight with
          expr := (rewording.captured capture).value, isReusable := true } :=
      ⟨rfl, rights.mayBeNull, rfl⟩
    refine (carries_guardOperand captured).bind fun guardedRight => .pure _ ?_
    simp only [guardedBoth, guarded, List.map_append]
    rfl
  · refine (carries_guardOperand lefts).bind fun guardedLeft => ?_
    refine (carries_guardOperand rights).bind fun guardedRight => .pure _ ?_
    simp only [guardedBoth, guarded, List.map_append]
    rfl

omit lefts rights in
theorem orderGuards (guards : List Guard) :
    Lowering.orderGuards (guards.map rewording.guard) =
      (Lowering.orderGuards guards).map rewording.expr := by
  simp [Lowering.orderGuards, List.filter_map, Function.comp_def, guard]

omit lefts rights in
theorem joinTests? (tests : List Expr) :
    Lowering.joinTests? (tests.map rewording.expr) =
      (Lowering.joinTests? tests).map rewording.expr := by
  have joined (first : Expr) (rest : List Expr) :
      (rest.map rewording.expr).foldl Expr.and (rewording.expr first) =
        rewording.expr (rest.foldl Expr.and first) := by
    induction rest generalizing first with
    | nil => rfl
    | cons test rest ih =>
        rw [List.map_cons, List.foldl_cons, ← and, ih, List.foldl_cons]
  cases tests with
  | nil => rfl
  | cons first rest => exact congrArg some (joined first rest)

variable {first second : Site} (sites : rewording.AgreesOn first second right otherRight)
variable (collapse : Bool) (operator : Source.BinaryOperator)
variable (target : Target.BinaryOperator)

include sites

theorem carries_comparison :
    rewording.Carries rewording.lowered
      (first.comparison collapse operator (.binary left.expr target right.expr) left
        right)
      (second.comparison collapse operator
        (.binary otherLeft.expr target otherRight.expr) otherLeft otherRight) := by
  have sameAgrees : agreesWhenCollapsed operator otherLeft otherRight =
      agreesWhenCollapsed operator left right := by
    rw [agreesWhenCollapsed, agreesWhenCollapsed, lefts.mayBeNull, rights.mayBeNull]
  have sameLast : lastTestIsSuperfluous collapse operator otherLeft otherRight =
      lastTestIsSuperfluous collapse operator left right := by
    rw [lastTestIsSuperfluous, lastTestIsSuperfluous, lefts.mayBeNull,
      rights.mayBeNull]
  unfold Site.comparison
  rw [sameAgrees, sameLast]
  refine .ite rfl (fun _ => .pure _ ?_) fun _ => ?_
  · rw [lowered, Lowered.proven, Lowered.proven, rewording.binary, lefts.expr,
      rights.expr]
  dsimp only
  refine (carries_guardOperands lefts rights).bind fun (guards, leftExpr, rightExpr) => ?_
  simp only [guardedBoth, orderGuards, ← List.map_dropLast,
    ← apply_ite (List.map rewording.expr), joinTests?]
  cases Lowering.joinTests?
    (if lastTestIsSuperfluous collapse operator left right then
      (Lowering.orderGuards guards).dropLast else Lowering.orderGuards guards) with
  | none =>
      refine .pure _ ?_
      rw [lowered, Lowered.plain, Lowered.plain, rewording.binary]
  | some test =>
      refine .ite rfl (fun _ => .pure _ ?_) fun _ => .pure _ ?_
      · rw [lowered, Lowered.proven, Lowered.proven, and, rewording.binary]
      · rw [lowered, Lowered.plain, Lowered.plain, rewording.conditional,
          rewording.binary, sites.nullableNull]

/-- Restating an operator commutes with rewording. -/
theorem carries_restate :
    rewording.Carries rewording.lowered
      (first.restate collapse operator (.binary left.expr target right.expr) left right)
      (second.restate collapse operator (.binary otherLeft.expr target otherRight.expr)
        otherLeft otherRight) := by
  have unchanged : Expr.binary otherLeft.expr target otherRight.expr =
      rewording.expr (.binary left.expr target right.expr) := by
    rw [rewording.binary, lefts.expr, rights.expr]
  have eager (operator : Source.BinaryOperator) : rewording.Carries rewording.lowered
      (if !collapse then
        return .plain (.binary left.expr target right.expr)
      else if !first.isPure right then
        return .proven (Expr.binary left.expr target right.expr).equalsTrue
      else if operator = .and then first.collapsedConjunction left right
      else collapsedDisjunction left right)
      (if !collapse then
        return .plain (.binary otherLeft.expr target otherRight.expr)
      else if !second.isPure otherRight then
        return .proven (Expr.binary otherLeft.expr target otherRight.expr).equalsTrue
      else if operator = .and then second.collapsedConjunction otherLeft otherRight
      else collapsedDisjunction otherLeft otherRight) := by
    rw [unchanged]
    refine .ite rfl (fun _ => .pure _ rfl) fun _ => ?_
    refine .ite (by rw [sites.isPure]) (fun _ => .pure _ ?_) fun _ => ?_
    · rw [lowered, Lowered.proven, Lowered.proven, equalsTrue]
    · split
      · exact carries_collapsedConjunction lefts rights sites
      · exact carries_collapsedDisjunction lefts rights
  cases operator with
  | andAlso =>
      exact .ite rfl (fun _ => carries_collapsedConjunction lefts rights sites)
        fun _ => carries_conjunction lefts rights sites
  | orElse =>
      exact .ite rfl (fun _ => carries_collapsedDisjunction lefts rights)
        fun _ => carries_disjunction lefts rights sites
  | and => exact eager .and
  | or => exact eager .or
  | _ => exact carries_comparison lefts rights sites collapse _ target

end

end Rewording

/-! ## Changes that keep names -/

/-- Whether a change of expressions goes through what templates are built of, and leaves
all names as they are. -/
structure KeepsNames (expr : Expr → Expr) : Prop where
  identifier : ∀ text, expr (.identifier text) = .identifier text
  null : expr .null = .null
  boolean : ∀ value, expr (.boolean value) = .boolean value
  member : ∀ receiver name,
    expr (.member receiver name) = .member (expr receiver) name
  binary : ∀ left operator right,
    expr (.binary left operator right) = .binary (expr left) operator (expr right)
  unary : ∀ operator operand,
    expr (.unary operator operand) = .unary operator (expr operand)
  conditional : ∀ condition whenTrue whenFalse,
    expr (.conditional condition whenTrue whenFalse) =
      .conditional (expr condition) (expr whenTrue) (expr whenFalse)
  test : ∀ operand pattern, expr (.test operand pattern) = .test (expr operand) pattern

/-- Such a change is made in sessions that stand at the same name. -/
def KeepsNames.rewording {expr : Expr → Expr} (keeps : KeepsNames expr) : Rewording where
  expr := expr
  Level := Eq
  null := keeps.null
  boolean := keeps.boolean
  member := keeps.member
  binary := keeps.binary
  unary := keeps.unary
  conditional := keeps.conditional
  next same := same ▸ rfl
  capture same := same ▸ keeps.identifier _
  anything operand same := same ▸ keeps.test operand _
  notNull operand same := same ▸ keeps.test operand _
  missing operand same := same ▸ keeps.test operand _

/-! ## Stand-ins -/

theorem keepsNames_fill (operandOf : String → Expr) : KeepsNames (Expr.fill operandOf) where
  identifier _ := rfl
  null := rfl
  boolean _ := rfl
  member _ _ := rfl
  binary _ _ _ := rfl
  unary _ _ := rfl
  conditional _ _ _ := rfl
  test _ _ := rfl

/-- Putting operands in the places of their stand-ins. -/
def filling (operandOf : String → Expr) : Rewording :=
  (keepsNames_fill operandOf).rewording

/-- Put operands in the places of their stand-ins. -/
def Operand.fill (operandOf : String → Expr) (operand : Operand) : Operand :=
  { operand with expr := operand.expr.fill operandOf }

/-- Put operands in the places of their stand-ins. -/
def Lowered.fill (operandOf : String → Expr) (lowered : Lowered) : Lowered :=
  { lowered with expr := lowered.expr.fill operandOf }

/-- Restating an operator commutes with putting operands in the places of their
stand-ins. -/
theorem restate_fill (operandOf : String → Expr) (site : Site) (collapse : Bool)
    (operator : Source.BinaryOperator) (target : Target.BinaryOperator)
    (left right : Operand) :
    site.restate collapse operator
        ((Expr.binary left.expr target right.expr).fill operandOf)
        (left.fill operandOf) (right.fill operandOf) =
      Lowered.fill operandOf <$>
        site.restate collapse operator (.binary left.expr target right.expr)
          left right := by
  have operands (operand : Operand) :
      (filling operandOf).Operands operand (operand.fill operandOf) :=
    ⟨rfl, rfl, rfl⟩
  have sites : (filling operandOf).AgreesOn site site right (right.fill operandOf) :=
    Rewording.agreesOn_of_casts (fun _ _ => rfl) rfl rfl
  exact (Rewording.carries_restate (operands left) (operands right) sites collapse operator
    target).eq_map

end BasicLowering.Lowering
