import BasicLowering.Proofs.Lowering.Assembly
import BasicLowering.Proofs.Lowering.Visits
import BasicLowering.Proofs.Qualification.Additions

/-!
# What a conversion leaves alone

A conversion adds nodes, issues names and asks for imports. Whether it succeeds or is
given up, every node that was there before stays what it was, what the names begin
with stays the same, and no import is withdrawn.
-/

namespace BasicLowering.Lowering

open Source Source.Building Binding Qualification

/-- Whether one session goes on from another one. -/
structure Session.Extends (before after : Session) : Prop where
  grows : before.arena.Grows after.arena
  stem : after.captures.stem = before.captures.stem
  imports : before.imports <+: after.imports

namespace Session.Extends

variable {first second third : Session}

theorem refl (session : Session) : session.Extends session where
  grows := .refl session.arena
  stem := rfl
  imports := List.prefix_refl session.imports

theorem trans (early : first.Extends second) (late : second.Extends third) :
    first.Extends third where
  grows := early.grows.trans late.grows
  stem := late.stem.trans early.stem
  imports := early.imports.trans late.imports

theorem addImport (session : Session) (name : String) :
    session.Extends (session.addImport name) := by
  unfold Session.addImport
  split
  · exact .refl session
  · exact ⟨.refl session.arena, rfl, List.prefix_append _ _⟩

theorem request (session : Session) (name : Option String) :
    session.Extends (session.request name) := by
  cases name with
  | none => exact .refl session
  | some name => exact .addImport session name

end Session.Extends

/-- A session that settles on a node goes on if its arena only grows. -/
theorem extends_settleAt {setting : Setting} {path : Path} {qualify : Bool}
    {slot : Slot} {session : Session}
    (grows : session.arena.Grows
      (settleAt setting path qualify slot session).2.arena) :
    session.Extends (settleAt setting path qualify slot session).2 := by
  unfold settleAt at grows ⊢
  split
  · next asked =>
      rw [if_pos asked] at grows
      dsimp only at grows ⊢
      rw [arena_request] at grows
      have adds : session.Extends { session with
          arena := (setting.expander.decision setting.model path slot
            session.arena).2 } :=
        ⟨grows, rfl, List.prefix_refl session.imports⟩
      exact adds.trans (.request _ _)
  · exact .refl session

/-- Whether the session goes on from where it was, also where a step is given up, and
what held of its arena still holds. -/
def Continues {Result : Type} (holds : Arena → Prop) (step : Conversion Result) :
    Prop :=
  ∀ session : Session, holds session.arena →
    session.Extends (step session).2 ∧ holds (step session).2.arena

theorem bind_of_succeeds {Result Final : Type} {step : Conversion Result}
    {rest : Result → Conversion Final} {session between : Session}
    {result : Result} (succeeds : Succeeds step session result between) :
    (step >>= rest) session = rest result between := by
  change ExceptT.bind step rest session = _
  simp only [ExceptT.bind, ExceptT.mk, Bind.bind, StateT.bind]
  rw [show step session = (.ok result, between) from succeeds]
  rfl

theorem bind_of_missing {Final : Type} {slot : Slot} {rest : Form → Conversion Final}
    {session : Session} (missing : session.arena.form? slot = none) :
    (Conversion.formOf slot >>= rest) session =
      (.error (.missingNode slot), session) := by
  simp only [Conversion.formOf]
  rw [bind_assoc, bind_of_succeeds (succeeds_get.mpr ⟨rfl, rfl⟩), missing]
  rfl

namespace Continues

variable {Item Result Final : Type} {holds : Arena → Prop}

theorem pure (result : Result) : Continues holds (pure result) :=
  fun session start => ⟨.refl session, start⟩

theorem throw (error : ConversionError) :
    Continues holds (throw error : Conversion Result) :=
  fun session start => ⟨.refl session, start⟩

theorem bind {step : Conversion Result} {rest : Result → Conversion Final}
    (first : Continues holds step)
    (others : ∀ result, Continues holds (rest result)) :
    Continues holds (step >>= rest) := by
  intro session start
  have early := first session start
  change session.Extends (ExceptT.bind step rest session).2 ∧
    holds (ExceptT.bind step rest session).2.arena
  simp only [ExceptT.bind, ExceptT.mk, Bind.bind, StateT.bind]
  cases ran : step session with
  | mk outcome between =>
      rw [ran] at early
      cases outcome with
      | error => exact early
      | ok result =>
          obtain ⟨late, done⟩ := others result between early.2
          exact ⟨early.1.trans late, done⟩

/-- What is done next may rely on what holds where the session is looked at. -/
theorem get {rest : Session → Conversion Final}
    (others : ∀ session, holds session.arena → Continues holds (rest session)) :
    Continues holds (get >>= rest) := by
  intro session start
  rw [bind_of_succeeds (succeeds_get.mpr ⟨rfl, rfl⟩)]
  exact others session start session start

theorem map {step : Conversion Result} (first : Continues holds step)
    (change : Result → Final) : Continues holds (change <$> step) := by
  rw [map_eq_pure_bind]
  exact first.bind fun _ => .pure _

theorem mapM {step : Item → Conversion Result} {items : List Item}
    (each : ∀ item ∈ items, Continues holds (step item)) :
    Continues holds (items.mapM step) := by
  induction items with
  | nil => exact .pure []
  | cons item rest ih =>
      rw [List.forall_mem_cons] at each
      rw [List.mapM_cons]
      exact each.1.bind fun _ => (ih each.2).bind fun _ => .pure _

theorem naming {step : Naming Result}
    (sameStem : ∀ captures, (step captures).2.stem = captures.stem) :
    Continues holds (Conversion.naming step) :=
  fun session start => ⟨⟨.refl session.arena, sameStem session.captures,
    List.prefix_refl session.imports⟩, start⟩

theorem fromForm {slot : Slot} {rest : Form → Conversion Final} {session : Session}
    (start : holds session.arena)
    (others : ∀ form, session.arena.form? slot = some form →
      Continues holds (rest form)) :
    session.Extends ((Conversion.formOf slot >>= rest) session).2 ∧
      holds ((Conversion.formOf slot >>= rest) session).2.arena := by
  cases found : session.arena.form? slot with
  | some form =>
      rw [bind_of_succeeds (succeeds_formOf.mpr ⟨found, rfl⟩)]
      exact others form found session start
  | none =>
      rw [bind_of_missing found]
      exact ⟨.refl session, start⟩

theorem formOf {slot : Slot} {rest : Form → Conversion Final}
    (others : ∀ form arena, holds arena → arena.form? slot = some form →
      Continues holds (rest form)) :
    Continues holds (Conversion.formOf slot >>= rest) :=
  fun session start => fromForm start fun form found =>
    others form session.arena start found

theorem refuse (slot : Slot) (form : Form) :
    Continues holds (Conversion.refuse slot form : Conversion Result) :=
  .get fun _ _ => .throw _

theorem nameOf (slot : Slot) : Continues holds (Conversion.nameOf slot) := by
  refine .formOf fun form _ _ _ => ?_
  split
  · exact .pure _
  · exact .refuse slot _

/-- What may be absent is converted like any other slot where it is there. -/
theorem optional {child : Slot → Conversion Lowered} {slot : Slot} :
    Continues holds (child slot) →
      Continues holds (match slot with
        | none => return none
        | some _ => do
            let lowered ← child slot
            return some lowered.expr : Conversion (Option Target.Expr)) := by
  intro continues
  cases slot with
  | none => exact .pure none
  | some node => exact continues.bind fun _ => .pure _

end Continues

/-! ## Nodes and slots -/

/-- What is compared with `Nothing` is one of the two sides. -/
theorem comparedWithNothing?_mem {arena : Arena} {left right operand : Slot}
    (compared : comparedWithNothing? arena left right = some operand) :
    operand ∈ [left, right] := by
  unfold comparedWithNothing? at compared
  split at compared
  · cases compared
    simp
  · split at compared
    · cases compared
      simp
    · cases compared

/-- Names that are issued begin with the same stem. -/
theorem stem_of_issues {Result : Type} {step : Naming Result}
    {captures : CaptureNames} {limit : Nat} {good : Nat → Result → Prop}
    (issues : captures.Issues limit 0 step good) :
    (step captures).2.stem = captures.stem := by
  obtain ⟨result, next, ran, -⟩ := issues
  rw [CaptureNames.advance_zero] at ran
  rw [ran]
  rfl

section

variable {setting : Setting} {child : Slot → Conversion Lowered}
variable {grandchild : Step → Slot → Conversion Lowered}
variable {path : Path} {here : Step}

theorem stem_lowerBinary (site : Site) (leftType rightType : ExprType)
    (target : Target.BinaryOperator) (left right : Lowered)
    (captures : CaptureNames) :
    (site.lowerBinary path here leftType rightType
      (.binary left.expr target right.expr) left right captures).2.stem =
        captures.stem := by
  have atOnce (lowered : Lowered) :
      captures.Issues 2 0 (return lowered) fun _ _ => True :=
    .pure trivial
  refine @stem_of_issues _ _ captures 2 (fun _ _ => True) ?_
  unfold Site.lowerBinary
  dsimp only
  split
  · exact atOnce _
  · split
    · split
      · exact (restate_assembled site _ _ target).weaken (Nat.le_refl 2)
          fun _ _ _ _ _ => trivial
      · exact atOnce _
    · exact atOnce _

variable {holds : Arena → Prop} {readyHere : Slot → Prop}
variable (each : ∀ slot, readyHere slot → Continues holds (child slot))

include each

theorem continues_convertBinary {left right : Slot} (operator : BinaryOperator)
    (isReady : ∀ slot ∈ [left, right], readyHere slot) :
    Continues holds
      (convertBinary setting child path here left operator right) := by
  refine .get fun session _ => ?_
  dsimp only
  split
  · next compared =>
      exact (each _ (isReady _ (comparedWithNothing?_mem compared))).bind
        fun _ => .pure _
  · refine (each left (isReady _ (by simp))).bind fun loweredLeft =>
      (each right (isReady _ (by simp))).bind fun loweredRight => ?_
    split
    · exact .get fun session _ => .naming (stem_lowerBinary _ _ _ _ _ _)
    · exact .pure _

variable (eachDeep : ∀ field slot, readyHere slot →
    Continues holds (grandchild field slot))
  (enters : ∀ field form arena, readyHere field → holds arena →
    arena.form? field = some form → ∀ child ∈ form.slots, readyHere child)

include eachDeep enters

omit each in
theorem continues_convertField {field : Slot} (isReady : readyHere field) :
    Continues holds (convertField grandchild field) := by
  refine .formOf fun form arena start found => ?_
  have below := enters field form arena isReady start found
  cases form with
  | namedField name value =>
      exact (eachDeep _ value (below _ (by simp [Form.slots]))).bind
        fun _ => (Continues.nameOf name).bind fun _ => .pure _
  | inferredField value =>
      exact (eachDeep _ value (below _ (by simp [Form.slots]))).bind
        fun _ => .pure _
  | _ => exact .refuse field _

theorem continues_convertForm {form : Form}
    (isReady : ∀ slot ∈ form.slots, readyHere slot) :
    Continues holds (convertForm setting child grandchild path here form) := by
  have eachSlot (slot : Slot) (isSlot : slot ∈ form.slots) :=
    each slot (isReady slot isSlot)
  cases form with
  | identifier | literal => exact .pure _
  | selfReference kind => cases kind <;> exact .pure _
  | parenthesized inner => exact eachSlot inner (by simp [Form.slots])
  | memberAccess receiver name kind =>
      refine (eachSlot receiver (by simp [Form.slots])).bind
        fun _ => (Continues.nameOf name).bind fun _ => ?_
      cases kind <;> exact .pure _
  | conditionalAccess receiver name =>
      exact (eachSlot receiver (by simp [Form.slots])).bind
        fun _ => (Continues.nameOf name).bind fun _ => .pure _
  | invocation callee arguments =>
      exact (eachSlot callee (by simp [Form.slots])).bind
        fun _ => (Continues.mapM fun argument passed =>
          eachSlot argument (by simp [Form.slots, passed])).bind fun _ => .pure _
  | namedArgument name value =>
      exact (eachSlot value (by simp [Form.slots])).bind
        fun _ => (Continues.nameOf name).bind fun _ => .pure _
  | objectCreation typeName arguments =>
      exact (Continues.mapM fun argument passed =>
        eachSlot argument (by simp [Form.slots, passed])).bind fun _ => .pure _
  | anonymousObject initializers =>
      exact (Continues.mapM fun field isField =>
        continues_convertField eachDeep enters
          (isReady field (by simp [Form.slots, isField]))).bind fun _ => .pure _
  | unary operator operand =>
      exact (eachSlot operand (by simp [Form.slots])).bind
        fun _ => .get fun _ _ => .pure _
  | typeTest operand typeName negated =>
      exact (eachSlot operand (by simp [Form.slots])).bind fun _ => .pure _
  | ternary condition whenTrue whenFalse =>
      exact (eachSlot condition (by simp [Form.slots])).bind
        fun _ => .get fun _ _ =>
          (eachSlot whenTrue (by simp [Form.slots])).bind fun _ =>
            (eachSlot whenFalse (by simp [Form.slots])).bind fun _ => .pure _
  | binary left operator right =>
      exact continues_convertBinary each operator isReady
  | _ => exact .refuse here.effective _

end

/-- Whether a session that settles on a node goes on from where it was, and what
holds of a slot is handed down to the slots below the node: `holds` is said of arenas,
`ready` of slots. -/
structure HandsDown (setting : Setting) (holds : Arena → Prop)
    (ready : Bool → Slot → Prop) : Prop where
  settles : ∀ path qualify slot session, ready qualify slot →
    holds session.arena → session.arena.holds slot = true →
      let decided := settleAt setting path qualify slot session
      session.Extends decided.2 ∧ holds decided.2.arena ∧
        ∀ form,
          decided.2.arena.form? (settledOn slot decided.1).node = some form →
            ∀ child ∈ form.slots, ready (goesOn decided.1) child
  enters : ∀ qualify field form arena, ready qualify field → holds arena →
    arena.form? field = some form → ∀ child ∈ form.slots, ready qualify child

section

variable {setting : Setting} {holds : Arena → Prop} {ready : Bool → Slot → Prop}
variable (handsDown : HandsDown setting holds ready)

include handsDown

theorem continues_convertSlot (levels : Nat) (path : Path) (qualify : Bool)
    (slot : Slot) (isReady : ready qualify slot) :
    Continues holds (convertSlot setting levels path qualify slot) := by
  -- The value of a field is two levels below its node: one step back is not enough.
  induction levels using Nat.strongRecOn generalizing path qualify slot with
  | ind levels ih =>
  unfold convertSlot
  intro session start
  rw [bind_of_succeeds (succeeds_get.mpr ⟨rfl, rfl⟩)]
  dsimp only
  cases held : session.arena.holds slot with
  | false => exact ⟨.refl session, start⟩
  | true =>
  cases levels with
  | zero => exact ⟨.refl session, start⟩
  | succ levels =>
      obtain ⟨early, settled, below⟩ :=
        handsDown.settles path qualify slot session isReady start held
      simp only [if_true]
      rw [bind_of_succeeds (succeeds_settle.mpr ⟨rfl, rfl⟩)]
      dsimp only
      generalize settleAt setting path qualify slot session = decided at *
      refine And.imp_left early.trans (Continues.fromForm settled fun form found => ?_)
      refine continues_convertForm (ih levels (Nat.lt_succ_self levels) _ _)
        (fun field slot isReady => ?_) (handsDown.enters (goesOn decided.1))
        (below form found)
      cases levels with
      | zero => exact ih 0 (Nat.lt_succ_self 0) _ _ slot isReady
      | succ levels => exact ih levels (by omega) _ _ slot isReady

theorem continues_convertStatement {statement : Slot}
    (isReady : ready true statement) :
    Continues holds (convertStatement setting statement) := by
  have each (slot : Slot) := continues_convertSlot handsDown (depthLimit - 1)
    [.unchanged statement] true slot
  refine .formOf fun form arena start found => ?_
  have below := handsDown.enters true statement form arena isReady start found
  cases form with
  | conditionStatement kind condition =>
      refine (each condition (below _ (by simp [Form.slots]))).bind
        fun _ => .get fun _ _ => ?_
      cases kind <;> exact .pure _
  | returnStatement value =>
      exact (each value (below _ (by simp [Form.slots]))).optional.bind fun _ => .pure _
  | localDeclaration name initializer =>
      exact (each initializer (below _ (by simp [Form.slots]))).optional.bind
        fun _ => .pure _
  | assignment target value =>
      exact (each target (below _ (by simp [Form.slots]))).bind fun _ =>
        (each value (below _ (by simp [Form.slots]))).bind fun _ => .pure _
  | expressionStatement expression =>
      exact (each expression (below _ (by simp [Form.slots]))).bind
        fun _ => .pure _
  | _ => exact .get fun _ _ => .throw _

/-- Whatever is asked for, the session goes on from where it was. -/
theorem Request.continues {request : Request} (isReady : ready true request.slot) :
    Continues holds (request.convert setting) := by
  cases request with
  | statement slot =>
      exact (continues_convertStatement handsDown isReady).map _
  | expression slot =>
      exact (continues_convertSlot handsDown depthLimit [] true slot isReady).map _

end

/-! ## Rules that only add nodes -/

/-- Whether deciding about a node only adds nodes. -/
def OnlyAddsNodes (expander : Expander) : Prop :=
  ∀ model path slot, OnlyAdds (expander.decision model path slot)

theorem onlyAddsNodes_names : OnlyAddsNodes names :=
  onlyAdds_names

theorem handsDown_of_onlyAddsNodes {setting : Setting}
    (onlyAdds : OnlyAddsNodes setting.expander) :
    HandsDown setting (fun _ => True) fun _ _ => True where
  settles path qualify slot session _ _ _ := by
    refine ⟨extends_settleAt ?_, trivial, fun _ _ _ _ => trivial⟩
    unfold settleAt
    split
    · dsimp only
      rw [arena_request]
      exact onlyAdds setting.model path slot session.arena
    · exact .refl session.arena
  enters _ _ _ _ _ _ _ _ _ := trivial

/-- Whatever is asked for, of whatever was parsed, the session goes on from where it
was, also where the conversion is given up halfway. -/
theorem Request.convert_extends {setting : Setting}
    (isNames : setting.expander = names) (request : Request) (session : Session) :
    session.Extends (request.convert setting session).2 := by
  have onlyAdds : OnlyAddsNodes setting.expander := by
    rw [isNames]
    exact onlyAddsNodes_names
  exact (Request.continues (handsDown_of_onlyAddsNodes onlyAdds) trivial
    session trivial).1

end BasicLowering.Lowering
