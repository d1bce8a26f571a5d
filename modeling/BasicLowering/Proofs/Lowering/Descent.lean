import BasicLowering.Proofs.Lowering.Frame
import BasicLowering.Proofs.Qualification.Decisions

/-!
# Going down from node to node

What is true of a slot before it is converted has to be handed down from the node
above it, past whatever the slots before it have added to the arena. This is done
once here, for all forms: `FormRun.handDown` takes what holds of the slots of a node to
the passages of these slots, and `SlotRun.nameInduction` is the rule induction that
comes of it for conversions that follow the rule for names.
-/

namespace BasicLowering.Lowering

open Source Binding Qualification
open Target (Expr)

/-- The passages that start where something holds. -/
def Passage.startingAt {Result : Type} (passage : Passage Result)
    (holds : Arena → Prop) : Passage Result :=
  fun session result later visits =>
    passage session result later visits ∧ holds session.arena

/-- Whether a passage that starts where something holds ends where something holds,
having only added nodes. -/
def Passage.Keeps {Result : Type} (passage : Passage Result)
    (holds : Arena → Prop) (still : Arena → Prop) : Prop :=
  ∀ ⦃session result later visits⦄, passage session result later visits →
    holds session.arena →
      session.arena.Grows later.arena ∧ still later.arena

section

variable {Item Result : Type} {passage : Item → Passage Result}
variable {always : Arena → Prop} {ready : Item → Arena → Prop}
variable {session later : Session} {visits : List Visit}

theorem InSequence.handDown {items : List Item} {results : List Result}
    (keeps : ∀ item, (passage item).Keeps
      (fun arena => always arena ∧ ready item arena) always)
    (grow : ∀ item {before after : Arena}, ready item before →
      before.Grows after → ready item after)
    (start : always session.arena) (allReady : ∀ item ∈ items, ready item session.arena)
    (run : InSequence passage items session results later visits) :
    InSequence (fun item => (passage item).startingAt
        fun arena => always arena ∧ ready item arena)
        items session results later visits ∧
      session.arena.Grows later.arena ∧ always later.arena := by
  induction run with
  | nil session => exact ⟨.nil session, .refl session.arena, start⟩
  | cons first _ ih =>
      rw [List.forall_mem_cons] at allReady
      obtain ⟨grows, onward⟩ := keeps _ first ⟨start, allReady.1⟩
      obtain ⟨others, growsOthers, done⟩ := ih onward fun item member =>
        grow item (allReady.2 item member) grows
      exact ⟨.cons ⟨first, start, allReady.1⟩ others, grows.trans growsOthers,
        done⟩

end

/-- The slots of a form that are converted: all but the names of members, of arguments
and of fields. -/
def valueSlots : Form → List Slot
  | .memberAccess receiver _ _ | .conditionalAccess receiver _ => [receiver]
  | .namedArgument _ value | .namedField _ value => [value]
  | form => form.slots

theorem valueSlots_subset_slots (form : Form) : valueSlots form ⊆ form.slots := by
  cases form <;> simp [valueSlots, Form.slots]

section

variable {always : Arena → Prop} {ready : Slot → Arena → Prop}
variable {readyBelow : Step → Slot → Arena → Prop}
variable {child : Slot → Passage Lowered}
variable {grandchild : Step → Slot → Passage Lowered}

section

variable (enter : ∀ field fieldForm value {arena : Arena}, ready field arena →
  arena.form? field = some fieldForm → value ∈ valueSlots fieldForm →
    readyBelow (.unchanged field) value arena)

include enter

/-- What holds of a field holds of its value when the passage of the value starts. -/
theorem FieldRun.handDown (field : Slot) {session later : Session}
    {initializer : Option String × Expr} {visits : List Visit}
    (run : FieldRun grandchild field session initializer later visits)
    (start : always session.arena) (isReady : ready field session.arena) :
    FieldRun (fun field slot => (grandchild field slot).startingAt
        fun arena => always arena ∧ readyBelow field slot arena)
      field session initializer later visits := by
  cases run with
  | named found converted named =>
      exact .named found ⟨converted, start, enter _ _ _ isReady found
        (List.mem_singleton.mpr rfl)⟩ named
  | inferred found converted =>
      exact .inferred found ⟨converted, start, enter _ _ _ isReady found
        (List.mem_singleton.mpr rfl)⟩

theorem FieldRun.keeps
    (keepsBelow : ∀ field slot, (grandchild field slot).Keeps
      (fun arena => always arena ∧ readyBelow field slot arena) always)
    (field : Slot) : (FieldRun grandchild field).Keeps
      (fun arena => always arena ∧ ready field arena) always := by
  intro session initializer later visits run ⟨start, isReady⟩
  cases run with
  | named found converted _ =>
      exact keepsBelow _ _ converted ⟨start, enter _ _ _ isReady found
        (List.mem_singleton.mpr rfl)⟩
  | inferred found converted =>
      exact keepsBelow _ _ converted ⟨start, enter _ _ _ isReady found
        (List.mem_singleton.mpr rfl)⟩

end

/-- What holds of all slots of a node holds of each when its passage starts. -/
theorem FormRun.handDown {setting : Setting} {path : Path} {here : Step}
    {form : Form} {issued : Nat} {session later : Session} {lowered : Lowered}
    {visits : List Visit}
    (keeps : ∀ slot, (child slot).Keeps
      (fun arena => always arena ∧ ready slot arena) always)
    (keepsBelow : ∀ field slot, (grandchild field slot).Keeps
      (fun arena => always arena ∧ readyBelow field slot arena) always)
    (grow : ∀ slot {before after : Arena}, ready slot before →
      before.Grows after → ready slot after)
    (enter : ∀ field fieldForm value {arena : Arena}, ready field arena →
      arena.form? field = some fieldForm → value ∈ valueSlots fieldForm →
        readyBelow (.unchanged field) value arena)
    (start : always session.arena)
    (allReady : ∀ slot ∈ valueSlots form, ready slot session.arena)
    (run : FormRun setting child grandchild path here form issued session lowered
      later visits) :
    FormRun setting
        (fun slot => (child slot).startingAt
          fun arena => always arena ∧ ready slot arena)
        (fun field slot => (grandchild field slot).startingAt
          fun arena => always arena ∧ readyBelow field slot arena)
        path here form issued session lowered later visits ∧
      session.arena.Grows later.arena ∧ always later.arena := by
  cases run with
  | identifier text =>
      exact ⟨.identifier text session, .refl session.arena, start⟩
  | literal value => exact ⟨.literal value session, .refl session.arena, start⟩
  | selfReference kind =>
      exact ⟨.selfReference kind session, .refl session.arena, start⟩
  | parenthesized converted =>
      have isReady := allReady _ (List.mem_singleton.mpr rfl)
      exact ⟨.parenthesized ⟨converted, start, isReady⟩,
        keeps _ converted ⟨start, isReady⟩⟩
  | memberAccess converted named =>
      have isReady := allReady _ (List.mem_singleton.mpr rfl)
      exact ⟨.memberAccess ⟨converted, start, isReady⟩ named,
        keeps _ converted ⟨start, isReady⟩⟩
  | conditionalAccess converted named =>
      have isReady := allReady _ (List.mem_singleton.mpr rfl)
      exact ⟨.conditionalAccess ⟨converted, start, isReady⟩ named,
        keeps _ converted ⟨start, isReady⟩⟩
  | invocation called passed =>
      have isReady := allReady _ List.mem_cons_self
      obtain ⟨grows, onward⟩ := keeps _ called ⟨start, isReady⟩
      obtain ⟨others, growsOthers, done⟩ := passed.handDown keeps grow onward
        fun slot member => grow slot
          (allReady slot (List.mem_cons_of_mem _ member)) grows
      exact ⟨.invocation ⟨called, start, isReady⟩ others,
        grows.trans growsOthers, done⟩
  | namedArgument converted named =>
      have isReady := allReady _ (List.mem_singleton.mpr rfl)
      exact ⟨.namedArgument ⟨converted, start, isReady⟩ named,
        keeps _ converted ⟨start, isReady⟩⟩
  | objectCreation passed =>
      obtain ⟨others, result⟩ := passed.handDown keeps grow start allReady
      exact ⟨.objectCreation others, result⟩
  | anonymousObject initialized =>
      obtain ⟨others, result⟩ := initialized.handDown
        (FieldRun.keeps enter keepsBelow) grow start allReady
      refine ⟨.anonymousObject (others.imp ?_), result⟩
      rintro field _ _ _ _ ⟨run, start, isReady⟩
      exact run.handDown enter field start isReady
  | unary converted =>
      have isReady := allReady _ (List.mem_singleton.mpr rfl)
      exact ⟨.unary ⟨converted, start, isReady⟩,
        keeps _ converted ⟨start, isReady⟩⟩
  | typeTest converted =>
      have isReady := allReady _ (List.mem_singleton.mpr rfl)
      exact ⟨.typeTest ⟨converted, start, isReady⟩,
        keeps _ converted ⟨start, isReady⟩⟩
  | @ternary condition whenTrue whenFalse _ _ _ _ _ _ _ _ _ _ asked first second =>
      have readyAsked := allReady condition List.mem_cons_self
      obtain ⟨growsAsked, onward⟩ := keeps _ asked ⟨start, readyAsked⟩
      have readyFirst := grow _ (allReady whenTrue (by simp [valueSlots, Form.slots]))
        growsAsked
      obtain ⟨growsFirst, further⟩ := keeps _ first ⟨onward, readyFirst⟩
      have readySecond := grow _ (allReady whenFalse (by simp [valueSlots, Form.slots]))
        (growsAsked.trans growsFirst)
      obtain ⟨growsSecond, done⟩ := keeps _ second ⟨further, readySecond⟩
      exact ⟨.ternary ⟨asked, start, readyAsked⟩ ⟨first, onward, readyFirst⟩
        ⟨second, further, readySecond⟩,
        growsAsked.trans (growsFirst.trans growsSecond), done⟩
  | nothingTest isTest compared converted =>
      have isReady := allReady _ (comparedWithNothing?_mem compared)
      exact ⟨.nothingTest isTest compared ⟨converted, start, isReady⟩,
        keeps _ converted ⟨start, isReady⟩⟩
  | @binary left right _ _ _ _ _ _ _ _ _ _ noTest first second together =>
      have readyFirst := allReady left List.mem_cons_self
      obtain ⟨growsFirst, onward⟩ := keeps _ first ⟨start, readyFirst⟩
      have readySecond := grow _ (allReady right (by simp [valueSlots, Form.slots])) growsFirst
      obtain ⟨growsSecond, done⟩ := keeps _ second ⟨onward, readySecond⟩
      exact ⟨.binary noTest ⟨first, start, readyFirst⟩
        ⟨second, onward, readySecond⟩ together, growsFirst.trans growsSecond,
        done⟩

end

section

variable {setting : Setting} {always : Arena → Prop} {ready : Slot → Arena → Prop}
variable {child : Slot → Passage Lowered} {session later : Session}
variable {visits : List Visit}

theorem OptionalRun.handDown {slot : Slot} {result : Option Expr}
    (keeps : ∀ slot, (child slot).Keeps
      (fun arena => always arena ∧ ready slot arena) always)
    (start : always session.arena) (isReady : ready slot session.arena)
    (run : OptionalRun child slot session result later visits) :
    OptionalRun (fun slot => (child slot).startingAt
        fun arena => always arena ∧ ready slot arena)
        slot session result later visits ∧
      session.arena.Grows later.arena ∧ always later.arena := by
  cases run with
  | absent => exact ⟨.absent session, .refl session.arena, start⟩
  | present converted =>
      exact ⟨.present ⟨converted, start, isReady⟩,
        keeps _ converted ⟨start, isReady⟩⟩

/-- What holds of all slots of a statement holds of each when its passage starts. -/
theorem StatementFormRun.handDown {form : Form} {converted : Target.Statement}
    (keeps : ∀ slot, (child slot).Keeps
      (fun arena => always arena ∧ ready slot arena) always)
    (grow : ∀ slot {before after : Arena}, ready slot before →
      before.Grows after → ready slot after)
    (start : always session.arena)
    (allReady : ∀ slot ∈ form.slots, ready slot session.arena)
    (run : StatementFormRun setting child form session converted later visits) :
    StatementFormRun setting
        (fun slot => (child slot).startingAt
          fun arena => always arena ∧ ready slot arena)
        form session converted later visits ∧
      session.arena.Grows later.arena ∧ always later.arena := by
  cases run with
  | conditionStatement converted =>
      have isReady := allReady _ (List.mem_singleton.mpr rfl)
      exact ⟨.conditionStatement ⟨converted, start, isReady⟩,
        keeps _ converted ⟨start, isReady⟩⟩
  | returnStatement converted =>
      obtain ⟨handed, result⟩ := converted.handDown keeps start
        (allReady _ (List.mem_singleton.mpr rfl))
      exact ⟨.returnStatement handed, result⟩
  | localDeclaration converted =>
      obtain ⟨handed, result⟩ := converted.handDown keeps start
        (allReady _ (List.mem_singleton.mpr rfl))
      exact ⟨.localDeclaration handed, result⟩
  | @assignment target value _ _ _ _ _ _ _ assigned converted =>
      have readyTarget := allReady target List.mem_cons_self
      obtain ⟨growsTarget, onward⟩ := keeps _ assigned ⟨start, readyTarget⟩
      have readyValue := grow _ (allReady value (by simp [Form.slots])) growsTarget
      obtain ⟨growsValue, done⟩ := keeps _ converted ⟨onward, readyValue⟩
      exact ⟨.assignment ⟨assigned, start, readyTarget⟩
        ⟨converted, onward, readyValue⟩, growsTarget.trans growsValue, done⟩
  | expressionStatement converted =>
      have isReady := allReady _ (List.mem_singleton.mpr rfl)
      exact ⟨.expressionStatement ⟨converted, start, isReady⟩,
        keeps _ converted ⟨start, isReady⟩⟩

end

/-! ## What has been gathered below a node -/

/-- Whether what is said about the visits between two sessions may be put together
from what is said about parts. -/
structure Gathering (account : Session → Session → List Visit → Prop) : Prop where
  nothing : ∀ session, account session session []
  append : ∀ {session between later visits more},
    account session between visits → account between later more →
      account session later (visits ++ more)
  renamed : ∀ {session later visits captures},
    account session later visits → account session { later with captures } visits

section

variable {account : Session → Session → List Visit → Prop}
variable {Item Result : Type} {passage : Item → Passage Result}
variable {setting : Setting} {session later : Session} {visits : List Visit}

theorem InSequence.gather {items : List Item} {results : List Result}
    (gathering : Gathering account)
    (each : ∀ ⦃item session result later visits⦄,
      passage item session result later visits → account session later visits)
    (run : InSequence passage items session results later visits) :
    account session later visits := by
  induction run with
  | nil session => exact gathering.nothing session
  | cons first _ ih => exact gathering.append (each first) ih

/-- What is said about the visits below a node is put together from what is said
about those of its slots. -/
theorem FormRun.gather {child : Slot → Passage Lowered}
    {grandchild : Step → Slot → Passage Lowered} {path : Path} {here : Step}
    {form : Form} {issued : Nat} {lowered : Lowered}
    (gathering : Gathering account)
    (run : FormRun setting child grandchild path here form issued session lowered
      later visits)
    (each : ∀ ⦃slot session lowered later visits⦄,
      child slot session lowered later visits → account session later visits)
    (eachField : ∀ ⦃field slot session lowered later visits⦄,
      grandchild field slot session lowered later visits →
        account session later visits) :
    account session later visits := by
  cases run with
  | identifier | literal | selfReference => exact gathering.nothing session
  | parenthesized converted => exact each converted
  | memberAccess converted _ => exact each converted
  | conditionalAccess converted _ => exact each converted
  | invocation called passed =>
      exact gathering.append (each called) (passed.gather gathering each)
  | namedArgument converted _ => exact each converted
  | objectCreation passed => exact passed.gather gathering each
  | anonymousObject initialized =>
      refine initialized.gather gathering ?_
      intro field session result later visits run
      cases run with
      | named _ converted _ => exact eachField converted
      | inferred _ converted => exact eachField converted
  | unary converted => exact each converted
  | typeTest converted => exact each converted
  | ternary asked first second =>
      exact gathering.append (each asked)
        (gathering.append (each first) (each second))
  | nothingTest _ _ converted => exact each converted
  | binary _ first second _ =>
      exact gathering.renamed (gathering.append (each first) (each second))

theorem StatementFormRun.gather {child : Slot → Passage Lowered} {form : Form}
    {converted : Target.Statement} (gathering : Gathering account)
    (run : StatementFormRun setting child form session converted later visits)
    (each : ∀ ⦃slot session lowered later visits⦄,
      child slot session lowered later visits → account session later visits) :
    account session later visits := by
  have ofOptional {slot : Slot} {result : Option Expr}
      (run : OptionalRun child slot session result later visits) :
      account session later visits := by
    cases run with
    | absent => exact gathering.nothing session
    | present converted => exact each converted
  cases run with
  | conditionStatement converted => exact each converted
  | returnStatement converted => exact ofOptional converted
  | localDeclaration converted => exact ofOptional converted
  | assignment assigned converted =>
      exact gathering.append (each assigned) (each converted)
  | expressionStatement converted => exact each converted

end

/-! ## Settling on a node by the rule for names -/

/-- What a conversion that follows the rule for names settles on: what the rule
decides, where the names below a slot are to be qualified, and otherwise the node
itself. -/
inductive Settles (setting : Setting) (parsed : Arena) (path : Path)
    (qualify : Bool) (slot : Slot) (before after : Arena) : Decision → Prop
  | byRule {decision : Decision} (asked : qualify = true)
      (decides : Decides setting.model parsed path slot before after decision) :
      Settles setting parsed path qualify slot before after decision
  | asItIs (notAsked : (qualify && setting.options.qualifyNames) = false)
      (unchanged : after = before) :
      Settles setting parsed path qualify slot before after .skip

section

variable {setting : Setting} {parsed before after : Arena} {path : Path}
variable {qualify : Bool} {slot : Slot} {decision : Decision} {session : Session}

variable (path) in
theorem settles_settleAt (isNames : setting.expander = names)
    (wellFormed : WellFormed setting.model parsed)
    (isParsed : qualify = true → IsParsed parsed slot)
    (held : session.arena.holds slot = true)
    (grows : parsed.Grows session.arena) (sound : session.arena.Sound) :
    Settles setting parsed path qualify slot session.arena
      (settleAt setting path qualify slot session).2.arena
      (settleAt setting path qualify slot session).1 := by
  unfold settleAt
  split
  · next asked =>
      have goes := (Bool.and_eq_true_iff.mp asked).1
      dsimp only
      rw [arena_request, isNames]
      exact .byRule goes (decides_names wellFormed ((isParsed goes).holds held)
        grows sound)
  · next notAsked => exact .asItIs (Bool.not_eq_true _ ▸ notAsked) rfl

namespace Settles

variable (settles : Settles setting parsed path qualify slot before after decision)

include settles

theorem grows : before.Grows after := by
  cases settles with
  | asItIs _ unchanged => exact unchanged ▸ .refl before
  | byRule _ decides =>
      cases decides with
      | keep unchanged | skip unchanged | asWritten unchanged =>
          exact unchanged ▸ .refl before
      | shortCircuit _ adds => exact adds.grows
      | implicit _ _ reads => exact reads.grows
      | elsewhere _ _ reads => exact reads.grows
      | inFull _ writes => exact writes.grows

theorem sound (soundParsed : parsed.Sound) (growsFrom : parsed.Grows before)
    (sound : before.Sound) : after.Sound := by
  cases settles with
  | asItIs _ unchanged => exact unchanged ▸ sound
  | byRule _ decides =>
      cases decides with
      | keep unchanged | skip unchanged | asWritten unchanged =>
          exact unchanged ▸ sound
      | shortCircuit found adds =>
          refine adds.sound sound (fun child isChild => ?_) ?_
          · exact growsFrom.holds
              (soundParsed.children _ _ found child isChild)
          · rintro other rfl
            exact growsFrom.holds (Arena.holds_of_form? found)
      | implicit _ _ reads => exact reads.sound
      | elsewhere _ _ reads => exact reads.sound
      | inFull _ writes => exact writes.sound

/-- As long as names are qualified, what is below is parsed. -/
theorem isParsed_onward (soundParsed : parsed.Sound)
    (growsFrom : parsed.Grows before)
    (isParsed : qualify = true → parsed.holds slot = true)
    (onward : goesOn decision = true) {form : Form}
    (found : after.form? (settledOn slot decision).node = some form) :
    ∀ child ∈ form.slots, IsParsed parsed child := by
  cases settles with
  | asItIs => cases onward
  | byRule asked decides =>
      have held := isParsed asked
      cases decides with
      | keep unchanged =>
          rw [unchanged] at found
          change before.form? slot = some form at found
          rw [growsFrom.form?_eq held] at found
          exact isParsed_slots soundParsed found
      | shortCircuit isBinary adds =>
          change after.form? (some _) = some form at found
          cases adds.form?.symm.trans found
          have operands := isParsed_slots soundParsed isBinary
          exact operands
      | _ => cases onward

end Settles

end

/-- Conversions that follow the rule for names keep arenas sound, and qualify only
names that are parsed. -/
theorem handsDown_names {setting : Setting} {parsed : Arena}
    (isNames : setting.expander = names)
    (wellFormed : WellFormed setting.model parsed) :
    HandsDown setting (fun arena => parsed.Grows arena ∧ arena.Sound)
      fun qualify slot => qualify = true → IsParsed parsed slot where
  settles path qualify slot session isParsed start held := by
    obtain ⟨grows, sound⟩ := start
    have settles := settles_settleAt path isNames wellFormed isParsed
      held grows sound
    refine ⟨extends_settleAt settles.grows, ⟨grows.trans settles.grows,
      settles.sound wellFormed.sound grows sound⟩, fun form found child isSlot onward => ?_⟩
    exact settles.isParsed_onward wellFormed.sound grows
      (fun asked => (isParsed asked).holds held) onward found child isSlot
  enters qualify field form arena isParsed start found child isSlot asked := by
    have held := (isParsed asked).holds (Arena.holds_of_form? found)
    rw [start.1.form?_eq held] at found
    exact isParsed_slots wellFormed.sound found child isSlot

section

variable {setting : Setting} {parsed : Arena} {session later : Session}
variable {visits : List Visit}

theorem SlotRun.keeps (isNames : setting.expander = names)
    (wellFormed : WellFormed setting.model parsed) (levels : Nat) (path : Path)
    {qualify : Bool} {slot : Slot} :
    (SlotRun setting levels path qualify slot).Keeps
      (fun arena => (parsed.Grows arena ∧ arena.Sound) ∧
        (qualify = true → IsParsed parsed slot))
      (fun arena => parsed.Grows arena ∧ arena.Sound) := by
  intro session lowered later visits run ⟨start, isParsed⟩
  have converted : Succeeds _ _ _ _ :=
    (describes_convertSlot setting levels path qualify slot _ _ _).mpr ⟨_, run⟩
  obtain ⟨onward, done⟩ := continues_convertSlot
    (handsDown_names isNames wellFormed) levels path qualify slot isParsed session
    start
  rw [show _ = _ from converted] at onward done
  exact ⟨onward.grows, done⟩

/-- The slots of a parsed statement are parsed, and each passage starts in a sound
arena. -/
theorem StatementRun.handDown (isNames : setting.expander = names)
    (wellFormed : WellFormed setting.model parsed) {statement : Slot}
    {converted : Target.Statement}
    (run : StatementRun setting statement session converted later visits)
    (isParsed : parsed.holds statement = true)
    (grows : parsed.Grows session.arena) (sound : session.arena.Sound) :
    ∃ form, parsed.form? statement = some form ∧
      StatementFormRun setting
        (fun slot =>
          (SlotRun setting (depthLimit - 1) [.unchanged statement] true
            slot).startingAt fun arena =>
              (parsed.Grows arena ∧ arena.Sound) ∧
                slot ∈ form.slots ∧ IsParsed parsed slot)
        form session converted later visits ∧
      session.arena.Grows later.arena ∧ later.arena.Sound := by
  obtain ⟨form, found, run⟩ := run
  replace found := (grows.form?_eq isParsed).symm.trans found
  have keeps (slot : Slot) :
      (SlotRun setting (depthLimit - 1) [.unchanged statement] true slot).Keeps
        (fun arena => (parsed.Grows arena ∧ arena.Sound) ∧
          slot ∈ form.slots ∧ IsParsed parsed slot)
        (fun arena => parsed.Grows arena ∧ arena.Sound) :=
    fun _ _ _ _ run ⟨start, _, isParsed⟩ =>
      SlotRun.keeps isNames wellFormed _ _ run ⟨start, fun _ => isParsed⟩
  obtain ⟨handed, growsLater, -, soundLater⟩ :=
    run.handDown keeps (fun _ _ _ known _ => known) ⟨grows, sound⟩
      fun slot isSlot =>
        ⟨isSlot, isParsed_slots wellFormed.sound found slot isSlot⟩
  exact ⟨form, found, handed, growsLater, soundLater⟩

end

/-! ## Rule induction -/

/-- Rule induction for conversions that follow the rule for names. What is `ready`
is handed down from each node to the slots below it; what is `good` may rely on it,
on what the rule decides, and on the arenas being sound. -/
theorem SlotRun.nameInduction {setting : Setting} {parsed : Arena}
    (isNames : setting.expander = names)
    (wellFormed : WellFormed setting.model parsed)
    (ready : Path → Bool → Slot → Arena → Prop)
    (good : Path → Bool → Slot → Passage Lowered)
    (grow : ∀ path qualify slot {before after : Arena},
      ready path qualify slot before → before.Grows after →
        ready path qualify slot after)
    (enter : ∀ path qualify field form value {arena : Arena},
      ready path qualify field arena → arena.form? field = some form →
        value ∈ valueSlots form →
          ready (.unchanged field :: path) qualify value arena)
    (descend : ∀ path qualify slot decision form {before after : Arena},
      ready path qualify slot before → parsed.Grows before →
      (qualify = true → parsed.holds slot = true) →
      Settles setting parsed path qualify slot before after decision →
      after.form? (settledOn slot decision).node = some form →
      ∀ child ∈ valueSlots form, ready
        (⟨slot, (settledOn slot decision).node⟩ :: path) (goesOn decision) child
        after)
    (node : ∀ path qualify slot session form issued lowered later below,
      let decided := settleAt setting path qualify slot session
      let here : Step := ⟨slot, (settledOn slot decided.1).node⟩
      let reached (path : Path) (slot : Slot) : Passage Lowered :=
        Passage.startingAt (good path (goesOn decided.1) slot) fun arena =>
          parsed.Grows arena ∧ arena.Sound ∧
            (goesOn decided.1 = true → IsParsed parsed slot) ∧
            ready path (goesOn decided.1) slot arena
      ready path qualify slot session.arena →
      session.arena.holds slot = true →
      parsed.Grows session.arena → session.arena.Sound →
      (qualify = true → parsed.holds slot = true) →
      Settles setting parsed path qualify slot session.arena
        decided.2.arena decided.1 →
      decided.2.arena.form? here.effective = some form →
      FormRun setting (reached (here :: path))
        (fun field => reached (field :: here :: path)) path here form issued
        decided.2 lowered later below →
      decided.2.arena.Grows later.arena → later.arena.Sound →
      good path qualify slot session lowered later
        (below ++ [⟨path, here, form, lowered, issued⟩]))
    {levels : Nat} {path : Path} {qualify : Bool} {slot : Slot}
    {session later : Session} {lowered : Lowered} {visits : List Visit}
    (run : SlotRun setting levels path qualify slot session lowered later visits)
    (grows : parsed.Grows session.arena) (sound : session.arena.Sound)
    (isParsed : qualify = true → IsParsed parsed slot)
    (isReady : ready path qualify slot session.arena) :
    good path qualify slot session lowered later visits ∧
      session.arena.Grows later.arena ∧ later.arena.Sound := by
  induction levels using Nat.strongRecOn
    generalizing path qualify slot session lowered later visits with
  | ind levels ih =>
  cases levels with
  | zero => simp only [SlotRun] at run
  | succ levels =>
      simp only [SlotRun] at run
      obtain ⟨held, form, issued, below, found, run, rfl⟩ := run
      have isParsedNow (asked : qualify = true) : parsed.holds slot = true :=
        (isParsed asked).holds held
      have settles := settles_settleAt path isNames wellFormed isParsed
        held grows sound
      have startNode := node path qualify slot session form issued lowered later
        below isReady held grows sound isParsedNow settles found
      have growsSettled := settles.grows
      have soundSettled := settles.sound wellFormed.sound grows sound
      have onward := settles.isParsed_onward wellFormed.sound grows isParsedNow
      have allReady := descend _ _ _ _ form isReady grows isParsedNow settles found
      generalize settleAt setting path qualify slot session = decided at *
      -- What is handed down to the slots below.
      let handed (path : Path) (slot : Slot) (arena : Arena) : Prop :=
        parsed.Grows arena ∧ (goesOn decided.1 = true → IsParsed parsed slot) ∧
          ready path (goesOn decided.1) slot arena
      have keeps (fewer : Nat) (isFewer : fewer < levels + 1) (path : Path)
          (slot : Slot) :
          (SlotRun setting fewer path (goesOn decided.1) slot).Keeps
            (fun arena => arena.Sound ∧ handed path slot arena)
            Arena.Sound := by
        rintro session lowered later visits run ⟨sound, grows, isParsed, isReady⟩
        exact (ih fewer isFewer run grows sound isParsed isReady).2
      have enterField (path : Path) (field : Slot) (fieldForm : Form)
          (value : Slot) {arena : Arena} (isHanded : handed path field arena)
          (found : arena.form? field = some fieldForm)
          (isSlot : value ∈ valueSlots fieldForm) :
          handed (.unchanged field :: path) value arena := by
        obtain ⟨growing, isParsed, isReady⟩ := isHanded
        refine ⟨growing, fun goes => ?_, enter _ _ _ _ _ isReady found isSlot⟩
        have held := (isParsed goes).holds (Arena.holds_of_form? found)
        rw [growing.form?_eq held] at found
        exact isParsed_slots wellFormed.sound found value
          (valueSlots_subset_slots _ isSlot)
      obtain ⟨run, growsLater, soundLater⟩ := run.handDown
        (keeps levels (Nat.lt_succ_self levels) _)
        (fun field => keeps (levels - 1) (by omega) (field :: _ :: path))
        (fun slot _ _ isHanded growing => ⟨isHanded.1.trans growing, isHanded.2.1,
          grow _ _ _ isHanded.2.2 growing⟩)
        (enterField _) soundSettled
        (fun child isSlot => ⟨grows.trans growsSettled,
          fun goes => onward goes found child (valueSlots_subset_slots _ isSlot),
          allReady child isSlot⟩)
      refine ⟨startNode (run.imp ?_ ?_) growsLater soundLater,
        growsSettled.trans growsLater, soundLater⟩
      · rintro slot session lowered later visits ⟨run, sound, grows, isParsed,
          isReady⟩
        exact ⟨(ih levels (by omega) run grows sound isParsed isReady).1, grows,
          sound, isParsed, isReady⟩
      · rintro field slot session lowered later visits ⟨run, sound, grows,
          isParsed, isReady⟩
        exact ⟨(ih (levels - 1) (by omega) run grows sound isParsed isReady).1,
          grows, sound, isParsed, isReady⟩

end BasicLowering.Lowering
