import BasicLowering.Proofs.Lowering.Visits
import BasicLowering.Proofs.Source.Sound

/-!
# What is accepted

Where names are not qualified, a conversion leaves the arena alone, and whether it
succeeds is seen on the tree: a statement is accepted exactly if every slot that the
conversion comes to is well formed by itself. Nothing else is a reason to give up, and
no slot that is not well formed is passed over.

A step is described by the condition under which it succeeds (`Accepts`). Steps that
follow each other have both to succeed, so that the condition of a form is put together
from those of its slots.
-/

namespace BasicLowering.Lowering

open Source Qualification
open Target (Expr Statement)

/-! ## The slots that are visited -/

/-- The slots of an expression that are converted one level below it. `Is` and `IsNot`
leave out the literal `Nothing`. -/
def visitedSlots (arena : Arena) : Form → List Slot
  | .memberAccess receiver _ _ | .conditionalAccess receiver _ => [receiver]
  | .namedArgument _ value => [value]
  | .anonymousObject _ => []
  | .binary left .is right | .binary left .isNot right =>
      if arena.isNothing (arena.skipParens right) then [left]
      else if arena.isNothing (arena.skipParens left) then [right]
      else [left, right]
  | form => form.slots

/-- The value of a field of an anonymous object. -/
def fieldValue? : Form → Option Slot
  | .namedField _ value | .inferredField value => some value
  | _ => none

/-- Whether a slot is the value in a field of a form. -/
def IsFieldValue (arena : Arena) (form : Form) (field value : Slot) : Prop :=
  ∃ initializers fieldForm, form = .anonymousObject initializers ∧
    field ∈ initializers ∧ arena.form? field = some fieldForm ∧
      fieldValue? fieldForm = some value

/-- The slots of a statement that are converted. -/
def statementSlots : Form → List Slot
  | .returnStatement none | .localDeclaration _ none => []
  | form => form.slots

/-- The slots that the conversion of a statement comes to, each with the nodes on the
way to it, from the nearest one up to the statement. -/
inductive Visited (arena : Arena) (statement : Slot) : List Slot → Slot → Prop
  | ofStatement {form : Form} {slot : Slot}
      (found : arena.form? statement = some form)
      (isChild : slot ∈ statementSlots form) :
      Visited arena statement [statement] slot
  | child {path : List Slot} {slot child : Slot} {form : Form}
      (visited : Visited arena statement path slot)
      (found : arena.form? slot = some form)
      (isChild : child ∈ visitedSlots arena form) :
      Visited arena statement (slot :: path) child
  | fieldValue {path : List Slot} {slot field value : Slot} {form : Form}
      (visited : Visited arena statement path slot)
      (found : arena.form? slot = some form)
      (isValue : IsFieldValue arena form field value) :
      Visited arena statement (field :: slot :: path) value

/-- The slots of a form that hold a name. -/
def nameSlots : Form → List Slot
  | .memberAccess _ name _ | .conditionalAccess _ name | .namedArgument name _
  | .namedField name _ => [name]
  | _ => []

/-- Whether a form may stand where a value is expected. -/
def standsForValue : Form → Bool
  | .namedArgument .. => true
  | form => form.isExpression

/-- Whether a slot holds a field of an anonymous object. -/
def IsField (arena : Arena) (field : Slot) : Prop :=
  ∃ form, arena.form? field = some form ∧ (fieldValue? form).isSome = true ∧
    ∀ name ∈ nameSlots form, arena.isSimpleName name = true

/-- Whether there is nothing wrong with a node of the given form by itself. -/
structure FormIsSound (arena : Arena) (form : Form) : Prop where
  isValue : standsForValue form = true
  named : ∀ name ∈ nameSlots form, arena.isSimpleName name = true
  initialized : ∀ initializers, form = .anonymousObject initializers →
    ∀ field ∈ initializers, IsField arena field

/-- Whether there is nothing wrong with a slot below the given nodes by itself. -/
structure SlotIsSound (arena : Arena) (path : List Slot) (slot : Slot) : Prop where
  holds : ∃ form, arena.form? slot = some form ∧ FormIsSound arena form
  shallow : path.length < depthLimit

/-! ## Conditions for success -/

/-- Whether a step leaves the arena alone where it succeeds, and succeeds exactly under
a condition. -/
structure Accepts {Result : Type} (arena : Arena) (fine : Prop)
    (step : Conversion Result) : Prop where
  answers : fine → ∀ session : Session, session.arena = arena →
    ∃ result later, Succeeds step session result later
  accepted : ∀ (session : Session) (result : Result) (later : Session),
    session.arena = arena → Succeeds step session result later →
      fine ∧ later.arena = arena

namespace Accepts

variable {Item Result Final : Type} {arena : Arena} {fine other : Prop}
variable {step : Conversion Result}

theorem congr (same : fine ↔ other) (accepts : Accepts arena fine step) :
    Accepts arena other step :=
  (propext same) ▸ accepts

theorem pure (result : Result) :
    Accepts arena True (pure result : Conversion Result) where
  answers := fun _ session _ => ⟨result, session, rfl⟩
  accepted := by
    intro session _ later isArena ran
    obtain ⟨-, rfl⟩ := succeeds_pure.mp ran
    exact ⟨trivial, isArena⟩

/-- A step that is given up is never accepted. -/
theorem never (fails : ∀ session result later,
    ¬ Succeeds step session result later) : Accepts arena False step where
  answers := False.elim
  accepted := fun _ _ _ _ ran => absurd ran (fails _ _ _)

/-- A step that is done next has to be accepted as well, whatever the first one has
resulted in. -/
theorem bind {rest : Result → Conversion Final}
    (first : Accepts arena fine step)
    (second : ∀ result, Accepts arena other (rest result)) :
    Accepts arena (fine ∧ other) (step >>= rest) where
  answers := by
    intro both session isArena
    obtain ⟨result, between, ran⟩ := first.answers both.1 session isArena
    have still := (first.accepted _ _ _ isArena ran).2
    obtain ⟨final, later, ranNext⟩ := (second result).answers both.2 between still
    exact ⟨final, later, succeeds_bind.mpr ⟨result, between, ran, ranNext⟩⟩
  accepted := by
    intro session final later isArena ran
    obtain ⟨result, between, ranFirst, ranNext⟩ := succeeds_bind.mp ran
    have isFine := first.accepted _ _ _ isArena ranFirst
    have isOther := (second result).accepted _ _ _ isFine.2 ranNext
    exact ⟨⟨isFine.1, isOther.1⟩, isOther.2⟩

/-- A step whose result does not matter for what is done next. -/
theorem thenPure (first : Accepts arena fine step) (rest : Result → Final) :
    Accepts arena fine (step >>= fun result => Pure.pure (rest result)) :=
  (first.bind fun _ => pure _).congr (iff_of_eq (and_true fine))

/-- What is done next may rely on the arena where the session is looked at. -/
theorem get {rest : Session → Conversion Final}
    (next : ∀ session : Session, session.arena = arena →
      Accepts arena fine (rest session)) :
    Accepts arena fine (get >>= rest) where
  answers := by
    intro isFine session isArena
    obtain ⟨final, later, ran⟩ := (next session isArena).answers isFine session isArena
    exact ⟨final, later,
      succeeds_bind.mpr ⟨session, session, succeeds_get.mpr ⟨rfl, rfl⟩, ran⟩⟩
  accepted := by
    intro session final later isArena ran
    obtain ⟨_, _, looked, ranNext⟩ := succeeds_bind.mp ran
    obtain ⟨rfl, rfl⟩ := succeeds_get.mp looked
    exact (next _ isArena).accepted _ _ _ isArena ranNext

theorem naming (step : Naming Result) :
    Accepts arena True (Conversion.naming step) where
  answers := fun _ session _ => ⟨_, _, succeeds_naming.mpr ⟨rfl, rfl⟩⟩
  accepted := by
    intro session _ later isArena ran
    obtain ⟨-, rfl⟩ := succeeds_naming.mp ran
    exact ⟨trivial, isArena⟩

/-- What is done with a node depends on its form. -/
theorem formOf {slot : Slot} {fine : Form → Prop} {rest : Form → Conversion Final}
    (next : ∀ form, arena.form? slot = some form →
      Accepts arena (fine form) (rest form)) :
    Accepts arena (∃ form, arena.form? slot = some form ∧ fine form)
      (Conversion.formOf slot >>= rest) where
  answers := by
    intro isFine session isArena
    obtain ⟨form, found, isFine⟩ := isFine
    obtain ⟨final, later, ran⟩ := (next form found).answers isFine session isArena
    subst isArena
    exact ⟨final, later, succeeds_bind.mpr
      ⟨form, session, succeeds_formOf.mpr ⟨found, rfl⟩, ran⟩⟩
  accepted := by
    intro session final later isArena ran
    obtain ⟨form, _, looked, ranNext⟩ := succeeds_bind.mp ran
    obtain ⟨found, rfl⟩ := succeeds_formOf.mp looked
    rw [isArena] at found
    have isFine := (next form found).accepted _ _ _ isArena ranNext
    exact ⟨⟨form, found, isFine.1⟩, isFine.2⟩

theorem nameOf (slot : Slot) :
    Accepts arena (arena.isSimpleName slot = true) (Conversion.nameOf slot) := by
  have found : arena.isSimpleName slot = true ↔
      ∃ form, arena.form? slot = some form ∧ form.isSimpleName = true := by
    rw [Arena.isSimpleName, Option.any_eq_true]
  rw [found]
  apply formOf
  intro form _
  cases form with
  | identifier text => exact congr (by simp [Form.isSimpleName]) (pure text)
  | _ => exact congr (by simp [Form.isSimpleName]) (never fun _ _ _ => succeeds_refuse)

theorem mapM {fine : Item → Prop} {step : Item → Conversion Result}
    (each : ∀ item, Accepts arena (fine item) (step item)) (items : List Item) :
    Accepts arena (∀ item ∈ items, fine item) (items.mapM step) := by
  induction items with
  | nil => exact congr (by simp) (pure [])
  | cons item items ih =>
      rw [List.mapM_cons]
      refine congr ?_ ((each item).bind fun _ => ih.thenPure _)
      rw [List.forall_mem_cons]

end Accepts

/-! ## Forms and slots -/

section

variable {setting : Setting} {arena : Arena} {good goodBelow : Slot → Prop}
variable {child : Slot → Conversion Lowered}
variable {grandchild : Step → Slot → Conversion Lowered}

theorem accepts_convertField
    (accepts : ∀ field slot, Accepts arena (goodBelow slot) (grandchild field slot))
    (field : Slot) :
    Accepts arena
      (IsField arena field ∧ ∀ form value, arena.form? field = some form →
        fieldValue? form = some value → goodBelow value)
      (convertField grandchild field) := by
  have found : (IsField arena field ∧ ∀ form value, arena.form? field = some form →
      fieldValue? form = some value → goodBelow value) ↔
      ∃ form, arena.form? field = some form ∧
        ((fieldValue? form).isSome = true ∧
          ∀ name ∈ nameSlots form, arena.isSimpleName name = true) ∧
        ∀ value, fieldValue? form = some value → goodBelow value := by
    constructor
    · intro ⟨⟨form, found, isField⟩, isGood⟩
      exact ⟨form, found, isField, fun value => isGood form value found⟩
    · intro ⟨form, found, isField, isGood⟩
      refine ⟨⟨form, found, isField⟩, ?_⟩
      intro other value isOther
      rw [found] at isOther
      cases isOther
      exact isGood value
  rw [found]
  apply Accepts.formOf
  intro form _
  cases form with
  | namedField name value =>
      refine Accepts.congr ?_ ((accepts (.unchanged field) value).bind fun _ =>
        (Accepts.nameOf name).thenPure _)
      simp [fieldValue?, nameSlots, and_comm]
  | inferredField value =>
      refine Accepts.congr ?_ ((accepts (.unchanged field) value).thenPure _)
      simp [fieldValue?, nameSlots]
  | _ =>
      exact Accepts.congr (by simp [fieldValue?])
        (Accepts.never fun _ _ _ => succeeds_refuse)

/-- The operands of a binary expression that are converted, as the conversion finds
them. -/
theorem visitedSlots_binary (left : Slot) (operator : BinaryOperator) (right : Slot) :
    visitedSlots arena (.binary left operator right) =
      match nothingPattern? operator, comparedWithNothing? arena left right with
      | some _, some operand => [operand]
      | _, _ => [left, right] := by
  have compared : comparedWithNothing? arena left right =
      if arena.isNothing (arena.skipParens right) then some left
      else if arena.isNothing (arena.skipParens left) then some right
      else none := rfl
  cases operator with
  | is | isNot =>
      simp only [visitedSlots, nothingPattern?, compared]
      split
      · rfl
      · split <;> rfl
  | _ => rfl

theorem accepts_convertBinary (accepts : ∀ slot, Accepts arena (good slot) (child slot))
    (path : Path) (here : Step) (left : Slot) (operator : BinaryOperator)
    (right : Slot) :
    Accepts arena
      (∀ slot ∈ visitedSlots arena (.binary left operator right), good slot)
      (convertBinary setting child path here left operator right) := by
  unfold convertBinary
  apply Accepts.get
  intro session isArena
  rw [isArena, visitedSlots_binary]
  have both : (∀ slot ∈ [left, right], good slot) ↔
      good left ∧ good right ∧ True := by
    simp
  dsimp only
  rcases nothingPattern? operator with _ | pattern <;>
    rcases comparedWithNothing? arena left right with _ | operand
  pick_goal 4
  · refine .congr ?_ ((accepts operand).thenPure _)
    rw [List.forall_mem_singleton]
  all_goals
    rw [both]
    apply (accepts left).bind
    intro loweredLeft
    apply (accepts right).bind
    intro loweredRight
    split
    · exact .get fun _ _ => .naming _
    · exact .pure _

/-- What has to hold for a form to be accepted. -/
def FormIsAccepted (arena : Arena) (good goodBelow : Slot → Prop) (form : Form) : Prop :=
  FormIsSound arena form ∧ (∀ slot ∈ visitedSlots arena form, good slot) ∧
    ∀ field value, IsFieldValue arena form field value → goodBelow value

/-- A form without fields is accepted if its slots and its names are. -/
theorem accepts_withoutFields {form : Form} {fine : Prop} {step : Conversion Lowered}
    (isValue : standsForValue form = true)
    (noFields : ∀ initializers, form ≠ .anonymousObject initializers)
    (same : fine ↔ (∀ slot ∈ visitedSlots arena form, good slot) ∧
      ∀ name ∈ nameSlots form, arena.isSimpleName name = true)
    (accepts : Accepts arena fine step) :
    Accepts arena (FormIsAccepted arena good goodBelow form) step := by
  refine .congr ?_ accepts
  rw [same]
  constructor
  · intro ⟨isGood, named⟩
    refine ⟨⟨isValue, named, ?_⟩, isGood, ?_⟩
    · intro initializers isObject
      exact absurd isObject (noFields initializers)
    · intro field value ⟨initializers, _, isObject, _⟩
      exact absurd isObject (noFields initializers)
  · intro accepted
    exact ⟨accepted.2.1, accepted.1.named⟩

theorem accepts_convertForm (accepts : ∀ slot, Accepts arena (good slot) (child slot))
    (acceptsDeep : ∀ field slot,
      Accepts arena (goodBelow slot) (grandchild field slot))
    (path : Path) (here : Step) (form : Form) :
    Accepts arena (FormIsAccepted arena good goodBelow form)
      (convertForm setting child grandchild path here form) := by
  cases form with
  | identifier | literal =>
      refine accepts_withoutFields rfl nofun ?_ (.pure _)
      simp [visitedSlots, Form.slots, nameSlots]
  | selfReference kind =>
      cases kind <;>
        exact accepts_withoutFields rfl nofun
          (by simp [visitedSlots, Form.slots, nameSlots]) (.pure _)
  | parenthesized inner =>
      refine accepts_withoutFields rfl nofun ?_ (accepts inner)
      simp [visitedSlots, Form.slots, nameSlots]
  | memberAccess receiver name kind =>
      cases kind <;>
        exact accepts_withoutFields rfl nofun (by simp [visitedSlots, nameSlots])
          ((accepts receiver).bind fun _ => (Accepts.nameOf name).thenPure _)
  | conditionalAccess receiver name =>
      refine accepts_withoutFields rfl nofun ?_
        ((accepts receiver).bind fun _ => (Accepts.nameOf name).thenPure _)
      simp [visitedSlots, nameSlots]
  | invocation callee arguments =>
      refine accepts_withoutFields rfl nofun ?_
        ((accepts callee).bind fun _ => (Accepts.mapM accepts arguments).thenPure _)
      simp [visitedSlots, Form.slots, nameSlots]
  | namedArgument name value =>
      refine accepts_withoutFields rfl nofun ?_
        ((accepts value).bind fun _ => (Accepts.nameOf name).thenPure _)
      simp [visitedSlots, nameSlots]
  | objectCreation typeName arguments =>
      refine accepts_withoutFields rfl nofun ?_
        ((Accepts.mapM accepts arguments).thenPure _)
      simp [visitedSlots, Form.slots, nameSlots]
  | anonymousObject initializers =>
      refine .congr ?_
        ((Accepts.mapM (accepts_convertField acceptsDeep) initializers).thenPure _)
      constructor
      · intro each
        refine ⟨⟨rfl, nofun, ?_⟩, nofun, ?_⟩
        · intro _ isObject field isField
          cases isObject
          exact (each field isField).1
        · intro field value ⟨_, form, isObject, isField, found, isValue⟩
          cases isObject
          exact (each field isField).2 form value found isValue
      · intro ⟨sound, _, isGood⟩ field isField
        refine ⟨sound.initialized _ rfl field isField, ?_⟩
        intro form value found isValue
        exact isGood field value ⟨_, form, rfl, isField, found, isValue⟩
  | unary operator operand =>
      refine accepts_withoutFields rfl nofun ?_
        ((accepts operand).bind fun _ => .get fun _ _ => .pure _)
      simp [visitedSlots, Form.slots, nameSlots]
  | typeTest operand typeName negated =>
      refine accepts_withoutFields rfl nofun ?_ ((accepts operand).thenPure _)
      simp [visitedSlots, Form.slots, nameSlots]
  | ternary condition whenTrue whenFalse =>
      refine accepts_withoutFields rfl nofun ?_
        ((accepts condition).bind fun _ => .get fun _ _ =>
          (accepts whenTrue).bind fun _ => (accepts whenFalse).thenPure _)
      simp [visitedSlots, Form.slots, nameSlots]
  | binary left operator right =>
      refine accepts_withoutFields rfl nofun ?_
        (accepts_convertBinary accepts path here left operator right)
      simp [nameSlots]
  | namedField | inferredField | conditionStatement | returnStatement
  | localDeclaration | assignment | expressionStatement =>
      refine .congr ⟨False.elim, ?_⟩ (.never fun _ _ _ => succeeds_refuse)
      intro accepted
      exact nomatch accepted.1.isValue

end

/-- Whether a slot is accepted with room for the given number of levels. -/
def SlotIsAccepted (arena : Arena) : Nat → Slot → Prop
  | 0, _ => False
  | levels + 1, slot => ∃ form, arena.form? slot = some form ∧
      FormIsAccepted arena (SlotIsAccepted arena levels)
        (SlotIsAccepted arena (levels - 1)) form

section

variable {setting : Setting}

/-- Where names are not qualified, every slot is converted as it is. -/
theorem settle_unqualified (notQualifying : setting.options.qualifyNames = false)
    (path : Path) (slot : Slot) (qualify : Bool) :
    settle setting path slot qualify = pure (slot, false) := by
  unfold settle
  rw [notQualifying, Bool.and_false]
  rfl

/-- What is below a field is converted with one level less, if there is one. -/
theorem accepts_convertSlot_below {arena : Arena} {levels : Nat}
    (each : ∀ fewer ≤ levels, ∀ path qualify slot,
      Accepts arena (SlotIsAccepted arena fewer slot)
        (convertSlot setting fewer path qualify slot))
    (path : Path) (qualify : Bool) (slot : Slot) :
    Accepts arena (SlotIsAccepted arena (levels - 1) slot)
      ((match levels with
        | 0 => convertSlot setting 0 path qualify
        | levels + 1 => convertSlot setting levels path qualify) slot) := by
  cases levels with
  | zero => exact each 0 (Nat.le_refl 0) path qualify slot
  | succ levels => exact each levels (Nat.le_succ levels) path qualify slot

theorem accepts_convertSlot (notQualifying : setting.options.qualifyNames = false)
    (arena : Arena) (levels : Nat) (path : Path) (qualify : Bool) (slot : Slot) :
    Accepts arena (SlotIsAccepted arena levels slot)
      (convertSlot setting levels path qualify slot) := by
  induction levels using Nat.strongRecOn generalizing path qualify slot with
  | ind levels ih =>
  unfold convertSlot
  apply Accepts.get
  intro session isArena
  rw [isArena]
  dsimp only
  cases levels with
  | zero =>
      simp only [SlotIsAccepted]
      apply Accepts.never
      intro session result later ran
      split at ran <;> simp at ran
  | succ levels =>
      have accepts (path : Path) (qualify : Bool) (slot : Slot) :
          Accepts arena (SlotIsAccepted arena levels slot)
            (convertSlot setting levels path qualify slot) :=
        ih levels (Nat.lt_succ_self levels) path qualify slot
      have acceptsDeep := accepts_convertSlot_below fun fewer isFewer =>
        ih fewer (Nat.lt_succ_of_le isFewer)
      simp only [SlotIsAccepted, settle_unqualified notQualifying, pure_bind]
      split
      · apply Accepts.formOf
        intro form _
        exact accepts_convertForm (accepts _ _) (fun field => acceptsDeep _ _) path _ form
      · next missing =>
          refine .congr ⟨False.elim, ?_⟩ (.never fun _ _ _ => ?_)
          · rintro ⟨form, found, -⟩
            exact missing (Arena.holds_of_form? found)
          · simp

end

/-! ## Statements -/

section

variable {arena : Arena} {statement : Slot}

/-- Where every slot that is visited is sound, each is accepted with the room that is
left for it. -/
theorem slotIsAccepted_of_sound
    (sound : ∀ path slot, Visited arena statement path slot →
      SlotIsSound arena path slot)
    (levels : Nat) {path : List Slot} {slot : Slot}
    (visited : Visited arena statement path slot)
    (room : depthLimit ≤ levels + path.length) :
    SlotIsAccepted arena levels slot := by
  -- With every level that the path takes, one less has to be left.
  induction levels using Nat.strongRecOn generalizing path slot with
  | ind levels ih =>
  have shallow := (sound path slot visited).shallow
  obtain ⟨form, found, formIsSound⟩ := (sound path slot visited).holds
  cases levels with
  | zero => exact absurd shallow (by omega)
  | succ levels =>
      rw [SlotIsAccepted]
      refine ⟨form, found, formIsSound, ?_, ?_⟩
      · intro child isChild
        apply ih levels (Nat.lt_succ_self levels) (visited.child found isChild)
        rw [List.length_cons]
        omega
      · intro field value isValue
        apply ih (levels - 1) (by omega) (visited.fieldValue found isValue)
        simp only [List.length_cons]
        omega

/-- A slot that is visited on the way through accepted slots is accepted itself, with
the room that is left for it. -/
theorem slotIsAccepted_of_visited
    (accepted : ∀ form, arena.form? statement = some form →
      ∀ slot ∈ statementSlots form, SlotIsAccepted arena (depthLimit - 1) slot)
    {path : List Slot} {slot : Slot} (visited : Visited arena statement path slot) :
    ∃ levels, levels + path.length ≤ depthLimit ∧ SlotIsAccepted arena levels slot := by
  induction visited with
  | ofStatement found isChild =>
      exact ⟨depthLimit - 1, Nat.le_refl _, accepted _ found _ isChild⟩
  | child visited found isChild ih =>
      obtain ⟨levels, room, isAccepted⟩ := ih
      cases levels with
      | zero => simp [SlotIsAccepted] at isAccepted
      | succ levels =>
          rw [SlotIsAccepted] at isAccepted
          obtain ⟨form, isForm, -, slots, -⟩ := isAccepted
          rw [found] at isForm
          cases isForm
          refine ⟨levels, ?_, slots _ isChild⟩
          rw [List.length_cons]
          omega
  | fieldValue visited found isValue ih =>
      obtain ⟨levels, room, isAccepted⟩ := ih
      cases levels with
      | zero => simp [SlotIsAccepted] at isAccepted
      | succ levels =>
          rw [SlotIsAccepted] at isAccepted
          obtain ⟨form, isForm, -, -, values⟩ := isAccepted
          rw [found] at isForm
          cases isForm
          have isAccepted := values _ _ isValue
          cases levels with
          | zero => simp [SlotIsAccepted] at isAccepted
          | succ levels =>
              refine ⟨levels, ?_, isAccepted⟩
              simp only [List.length_cons]
              omega

theorem SlotIsAccepted.sound {levels : Nat} {path : List Slot} {slot : Slot}
    (room : levels + path.length ≤ depthLimit)
    (accepted : SlotIsAccepted arena levels slot) : SlotIsSound arena path slot := by
  cases levels with
  | zero => simp [SlotIsAccepted] at accepted
  | succ levels =>
      rw [SlotIsAccepted] at accepted
      obtain ⟨form, found, isSound, -⟩ := accepted
      exact ⟨⟨form, found, isSound⟩, by omega⟩

theorem accepted_iff_sound :
    (∀ form, arena.form? statement = some form →
      ∀ slot ∈ statementSlots form, SlotIsAccepted arena (depthLimit - 1) slot) ↔
    ∀ path slot, Visited arena statement path slot → SlotIsSound arena path slot := by
  constructor
  · intro accepted path slot visited
    obtain ⟨levels, room, isAccepted⟩ := slotIsAccepted_of_visited accepted visited
    exact isAccepted.sound room
  · intro sound form found slot isChild
    exact slotIsAccepted_of_sound sound (depthLimit - 1)
      (.ofStatement found isChild) (Nat.le_refl _)

end

/-- An absent expression is accepted where it may be left out. -/
theorem accepts_optional {arena : Arena} {good : Slot → Prop}
    {child : Slot → Conversion Lowered}
    (accepts : ∀ slot, Accepts arena (good slot) (child slot)) (slot : Slot) :
    Accepts arena (∀ node, slot = some node → good slot)
      (match slot with
      | none => return none
      | some _ => do
          let lowered ← child slot
          return some lowered.expr) := by
  cases slot with
  | none => exact .congr (by simp) (.pure _)
  | some node => exact .congr (by simp) ((accepts _).thenPure _)

section

variable {setting : Setting}

theorem accepts_convertStatement
    (notQualifying : setting.options.qualifyNames = false) (arena : Arena)
    (statement : Slot) :
    Accepts arena
      (∃ form, arena.form? statement = some form ∧ form.isStatement = true ∧
        ∀ slot ∈ statementSlots form, SlotIsAccepted arena (depthLimit - 1) slot)
      (convertStatement setting statement) := by
  have accepts (slot : Slot) : Accepts arena (SlotIsAccepted arena (depthLimit - 1) slot)
      (convertSlot setting (depthLimit - 1) [.unchanged statement] true slot) :=
    accepts_convertSlot notQualifying arena _ _ _ slot
  unfold convertStatement
  apply Accepts.formOf
  intro form _
  cases form with
  | conditionStatement kind condition =>
      have accepted : (Form.isStatement (.conditionStatement kind condition) = true ∧
          ∀ slot ∈ statementSlots (.conditionStatement kind condition),
            SlotIsAccepted arena (depthLimit - 1) slot) ↔
          SlotIsAccepted arena (depthLimit - 1) condition ∧ True := by
        simp [Form.isStatement, statementSlots, Form.slots]
      rw [accepted]
      apply (accepts condition).bind
      intro lowered
      apply Accepts.get
      intro session _
      cases kind <;> exact .pure _
  | returnStatement value =>
      refine .congr ?_ ((accepts_optional accepts value).thenPure _)
      cases value <;> simp [Form.isStatement, statementSlots, Form.slots]
  | localDeclaration name initializer =>
      refine .congr ?_ ((accepts_optional accepts initializer).thenPure _)
      cases initializer <;> simp [Form.isStatement, statementSlots, Form.slots]
  | assignment target value =>
      refine .congr ?_ ((accepts target).bind fun _ => (accepts value).thenPure _)
      simp [Form.isStatement, statementSlots, Form.slots]
  | expressionStatement expression =>
      refine .congr ?_ ((accepts expression).thenPure _)
      simp [Form.isStatement, statementSlots, Form.slots]
  | _ =>
      refine .congr (by simp [Form.isStatement]) (.never fun _ _ _ ran => ?_)
      simp at ran

/-- Where names are not qualified, a conversion succeeds exactly if it is given a
statement and every slot that it comes to is sound: it exists, holds a value whose
names and fields are what they should be, and has fewer nodes above it than the limit
allows. -/
theorem convertStatement_succeeds_iff {statement : Slot}
    (notQualifying : setting.options.qualifyNames = false) (session : Session) :
    (∃ converted later,
      Succeeds (convertStatement setting statement) session converted later) ↔
      (∃ form, session.arena.form? statement = some form ∧ form.isStatement = true) ∧
        ∀ path slot, Visited session.arena statement path slot →
          SlotIsSound session.arena path slot := by
  have accepts := accepts_convertStatement notQualifying session.arena statement
  rw [← accepted_iff_sound]
  constructor
  · intro ⟨converted, later, ran⟩
    obtain ⟨⟨form, found, isStatement, isGood⟩, -⟩ :=
      accepts.accepted session converted later rfl ran
    refine ⟨⟨form, found, isStatement⟩, ?_⟩
    intro other isOther
    rw [found] at isOther
    cases isOther
    exact isGood
  · intro ⟨⟨form, found, isStatement⟩, isGood⟩
    exact accepts.answers ⟨form, found, isStatement, isGood form found⟩ session rfl

end

/-- A program in which names stay as they are. -/
def unqualifiedSetting : Setting where
  model := {}
  options := { qualifyNames := false }
  expander := ({} : Script).expander

/-- `If ... Is Nothing`, where what is compared is missing. -/
def missingOperand : Arena where
  nodes := #[
    { form := .literal .nothing },
    { form := .binary none .is (some ⟨0⟩) },
    { form := .conditionStatement .ifBlock (some ⟨1⟩) }]

/-- A missing operand is reported, also where the other side is `Nothing`. -/
theorem missingOperand_refused :
    unqualifiedSetting.options.qualifyNames = false ∧
      ¬ ∃ converted later, Succeeds (convertStatement unqualifiedSetting (some ⟨2⟩))
        { arena := missingOperand } converted later := by
  refine ⟨rfl, ?_⟩
  intro succeeds
  have sound := ((convertStatement_succeeds_iff rfl _).mp succeeds).2
  have visited : Visited missingOperand (some ⟨2⟩) [some ⟨1⟩, some ⟨2⟩] none :=
    .child (.ofStatement rfl (List.mem_singleton.mpr rfl)) rfl
      (List.mem_singleton.mpr rfl)
  obtain ⟨form, found, -⟩ := (sound _ _ visited).holds
  cases found

end BasicLowering.Lowering
