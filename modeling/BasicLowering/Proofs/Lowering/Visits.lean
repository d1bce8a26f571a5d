import BasicLowering.Lowering.Conversion
import Mathlib.Algebra.GroupWithZero.Nat

/-!
# Visits

A conversion that succeeds comes to one slot after another. At each it settles on
the node to convert, goes on to the slots below, and puts together what these have
become. `SlotRun` and `StatementRun` say what a successful conversion does, one
rule for each form, together with the visits that it makes on the way; they hold
exactly of the conversions that succeed.

Whatever holds at each visit is then shown rule by rule, without looking at the
steps of the computation again.
-/

namespace BasicLowering.Lowering

open Source Binding Qualification
open Target (Expr Pattern Statement)

/-! ## Steps that succeed -/

/-- Whether a step succeeds with a result and leaves a session behind. -/
def Succeeds {Result : Type} (step : Conversion Result) (session : Session)
    (result : Result) (later : Session) : Prop :=
  step session = (.ok result, later)

/-- The session in which an import has been asked for, if there is one to ask
for. -/
def Session.request (session : Session) : Option String → Session
  | none => session
  | some name => session.addImport name

/-- Asking for an import changes the imports only. -/
theorem exists_request_eq (session : Session) (name : Option String) :
    ∃ imports, session.request name = { session with imports := imports } := by
  cases name with
  | none => exact ⟨session.imports, rfl⟩
  | some name =>
      unfold Session.request Session.addImport
      dsimp only
      split
      · exact ⟨session.imports, rfl⟩
      · exact ⟨_, rfl⟩

@[simp] theorem arena_request (session : Session) (name : Option String) :
    (session.request name).arena = session.arena := by
  obtain ⟨imports, isRequest⟩ := exists_request_eq session name
  rw [isRequest]

@[simp] theorem captures_request (session : Session) (name : Option String) :
    (session.request name).captures = session.captures := by
  obtain ⟨imports, isRequest⟩ := exists_request_eq session name
  rw [isRequest]

section

variable {Result Final : Type} {session later : Session} {result : Result}

/-- A step that has a result has succeeded. -/
theorem exists_succeeds {step : Conversion Result}
    (answered : (step session).1.toOption.isSome = true) :
    ∃ result later, Succeeds step session result later := by
  cases ran : step session with
  | mk outcome later =>
      rw [ran] at answered
      cases outcome with
      | error => cases answered
      | ok result => exact ⟨result, later, ran⟩

@[simp] theorem succeeds_pure {value : Result} :
    Succeeds (pure value) session result later ↔
      result = value ∧ later = session := by
  constructor
  · rintro ⟨⟩
    exact ⟨rfl, rfl⟩
  · rintro ⟨rfl, rfl⟩
    rfl

@[simp] theorem succeeds_bind {step : Conversion Result}
    {rest : Result → Conversion Final} {final : Final} :
    Succeeds (step >>= rest) session final later ↔
      ∃ result between, Succeeds step session result between ∧
        Succeeds (rest result) between final later := by
  unfold Succeeds
  change ExceptT.bind step rest session = _ ↔ _
  simp only [ExceptT.bind, ExceptT.mk, Bind.bind, StateT.bind]
  cases ran : step session with
  | mk outcome between =>
      cases outcome with
      | error => exact ⟨nofun, nofun⟩
      | ok value =>
          constructor
          · exact fun rest => ⟨value, between, rfl, rest⟩
          · rintro ⟨_, _, ⟨⟩, rest⟩
            exact rest

@[simp] theorem succeeds_map {change : Result → Final} {step : Conversion Result}
    {final : Final} :
    Succeeds (change <$> step) session final later ↔
      ∃ result, Succeeds step session result later ∧ final = change result := by
  rw [map_eq_pure_bind, succeeds_bind]
  simp

@[simp] theorem succeeds_throw {error : ConversionError} :
    ¬ Succeeds (throw error) session result later :=
  nofun

@[simp] theorem succeeds_get {found : Session} :
    Succeeds get session found later ↔ found = session ∧ later = session :=
  succeeds_pure

@[simp] theorem succeeds_building {step : Building Result} :
    Succeeds (Conversion.building step) session result later ↔
      result = (step session.arena).1 ∧
        later = { session with arena := (step session.arena).2 } := by
  constructor
  · rintro ⟨⟩
    exact ⟨rfl, rfl⟩
  · rintro ⟨rfl, rfl⟩
    rfl

@[simp] theorem succeeds_naming {step : Naming Result} :
    Succeeds (Conversion.naming step) session result later ↔
      result = (step session.captures).1 ∧
        later = { session with captures := (step session.captures).2 } := by
  constructor
  · rintro ⟨⟩
    exact ⟨rfl, rfl⟩
  · rintro ⟨rfl, rfl⟩
    rfl

@[simp] theorem succeeds_recordImport {name : Option String} {done : Unit} :
    Succeeds (Conversion.recordImport name) session done later ↔
      later = session.request name := by
  cases name with
  | none => simp [Conversion.recordImport, Session.request]
  | some name =>
      constructor
      · rintro ⟨⟩
        rfl
      · rintro rfl
        rfl

@[simp] theorem succeeds_formOf {slot : Slot} {form : Form} :
    Succeeds (Conversion.formOf slot) session form later ↔
      session.arena.form? slot = some form ∧ later = session := by
  simp only [Conversion.formOf, succeeds_bind, succeeds_get]
  constructor
  · rintro ⟨_, _, ⟨rfl, rfl⟩, ran⟩
    split at ran
    · next found =>
        obtain ⟨rfl, rfl⟩ := succeeds_pure.mp ran
        exact ⟨found, rfl⟩
    · exact absurd ran succeeds_throw
  · rintro ⟨found, rfl⟩
    refine ⟨_, _, ⟨rfl, rfl⟩, ?_⟩
    rw [found]
    exact succeeds_pure.mpr ⟨rfl, rfl⟩

@[simp] theorem succeeds_refuse {slot : Slot} {form : Form} :
    ¬ Succeeds (Conversion.refuse slot form) session result later := by
  simp [Conversion.refuse]

@[simp] theorem succeeds_nameOf {slot : Slot} {text : String} :
    Succeeds (Conversion.nameOf slot) session text later ↔
      session.arena.nameText? slot = some text ∧ later = session := by
  simp only [Conversion.nameOf, succeeds_bind, succeeds_formOf, Arena.nameText?]
  constructor
  · rintro ⟨form, _, ⟨found, rfl⟩, ran⟩
    rw [found]
    cases form with
    | identifier name =>
        obtain ⟨rfl, rfl⟩ := succeeds_pure.mp ran
        exact ⟨rfl, rfl⟩
    | _ => exact absurd ran succeeds_refuse
  · rintro ⟨named, rfl⟩
    split at named
    · next found =>
        cases named
        exact ⟨_, _, ⟨found, rfl⟩, succeeds_pure.mpr ⟨rfl, rfl⟩⟩
    · cases named

end

/-! ## Settling on a node -/

/-- The node that stands in a slot once a decision is made, and the import that
is asked for. -/
def settledOn (slot : Slot) : Decision → Expansion
  | .keep | .skip => ⟨slot, none⟩
  | .replace expansion | .replaceAndEnter expansion => expansion

/-- Whether the names below a slot are asked about once a decision is made. -/
def goesOn : Decision → Bool
  | .keep | .replaceAndEnter _ => true
  | .skip | .replace _ => false

/-- The decision about a slot, and the session in which it has been made. Where
names are not qualified, a slot is as good as skipped. -/
def settleAt (setting : Setting) (path : Path) (qualify : Bool) (slot : Slot)
    (session : Session) : Decision × Session :=
  if qualify && setting.options.qualifyNames then
    let made := setting.expander.decision setting.model path slot session.arena
    (made.1, { session with arena := made.2 }.request
      (settledOn slot made.1).staticImport)
  else (.skip, session)

/-- No names are issued where a decision is made. -/
@[simp] theorem captures_settleAt (setting : Setting) (path : Path)
    (qualify : Bool) (slot : Slot) (session : Session) :
    (settleAt setting path qualify slot session).2.captures =
      session.captures := by
  unfold settleAt
  split
  · exact captures_request _ _
  · rfl

section

variable {setting : Setting} {path : Path} {qualify : Bool} {slot : Slot}
variable {session later : Session}

@[simp] theorem succeeds_settle {settled : Slot × Bool} :
    Succeeds (settle setting path slot qualify) session settled later ↔
      let decided := settleAt setting path qualify slot session
      settled = ((settledOn slot decided.1).node, goesOn decided.1) ∧
        later = decided.2 := by
  unfold settle settleAt
  split
  · simp only [succeeds_bind, succeeds_building]
    generalize setting.expander.decision setting.model path slot session.arena =
      made
    constructor
    · rintro ⟨_, _, ⟨rfl, rfl⟩, ran⟩
      obtain ⟨_ | _ | _ | _, arena⟩ := made <;>
        simpa [settledOn, goesOn, Session.request, and_comm] using ran
    · intro settled
      refine ⟨_, _, ⟨rfl, rfl⟩, ?_⟩
      obtain ⟨_ | _ | _ | _, arena⟩ := made <;>
        simpa [settledOn, goesOn, Session.request, and_comm] using settled
  · simp [settledOn, goesOn]

end

/-! ## Conversions that succeed -/

/-- A slot that has been converted. -/
structure Visit where
  path : Path
  here : Step
  /-- The form of the node that stands in the slot. -/
  form : Form
  lowered : Lowered
  /-- How many names were issued to put the node together, not counting those
  that were issued below it. -/
  issued : Nat

/-- How many names were issued at some visits. -/
def namesIssued (visits : List Visit) : Nat :=
  (visits.map (·.issued)).sum

/-- A way from one session to another that yields a result and makes visits. -/
abbrev Passage (Result : Type) : Type :=
  Session → Result → Session → List Visit → Prop

/-- The passages of several slots, one after another. -/
inductive InSequence {Item Result : Type} (passage : Item → Passage Result) :
    List Item → Passage (List Result)
  | nil (session : Session) : InSequence passage [] session [] session []
  | cons {item : Item} {rest : List Item} {session between later : Session}
      {result : Result} {results : List Result} {visits more : List Visit}
      (first : passage item session result between visits)
      (others : InSequence passage rest between results later more) :
      InSequence passage (item :: rest) session (result :: results) later
        (visits ++ more)

/-- The passage of a field of an anonymous object. -/
inductive FieldRun (grandchild : Step → Slot → Passage Lowered) (field : Slot) :
    Passage (Option String × Expr)
  | named {name value : Slot} {text : String} {session later : Session}
      {lowered : Lowered} {visits : List Visit}
      (found : session.arena.form? field = some (.namedField name value))
      (converted : grandchild (.unchanged field) value session lowered later
        visits)
      (named : later.arena.nameText? name = some text) :
      FieldRun grandchild field session (some text, lowered.expr) later visits
  | inferred {value : Slot} {session later : Session} {lowered : Lowered}
      {visits : List Visit}
      (found : session.arena.form? field = some (.inferredField value))
      (converted : grandchild (.unchanged field) value session lowered later
        visits) :
      FieldRun grandchild field session (none, lowered.expr) later visits

/-- What `Me`, `MyBase` and `MyClass` become. -/
def convertSelf : SelfKind → Lowered
  | .myBase => .proven .base
  | .me | .myClass => .proven .this

/-- What an access becomes. -/
def convertAccess (receiver : Expr) (name : String) : AccessKind → Expr
  | .simple => .member receiver name
  | .dictionary => .element receiver (.string name)

/-- The pattern that a test for a type becomes. -/
def typePattern (typeName : String) (negated : Bool) : Pattern :=
  if negated then .not (.type typeName) else .type typeName

section

variable (setting : Setting)

/-- Put two converted operands together, restated where that is asked for. -/
def putTogether (arena : Arena) (path : Path) (here : Step) (left : Slot)
    (operator : BinaryOperator) (right : Slot)
    (loweredLeft loweredRight : Lowered) : Naming Lowered :=
  let unchanged :=
    Expr.binary loweredLeft.expr (convertOperator operator) loweredRight.expr
  if setting.options.lowerNullableLogic && isRestated operator then
    let site : Site := ⟨setting.model, arena, setting.options⟩
    let typeOf (slot : Slot) := setting.model.typeOf (arena.standsFor slot)
    site.lowerBinary path here (typeOf left) (typeOf right) unchanged
      loweredLeft loweredRight
  else return .plain unchanged

/-- The passage of a node with the given form, where `child` and `grandchild` are
those of the slots below it. The number counts the names issued at the node
itself. -/
inductive FormRun (child : Slot → Passage Lowered)
    (grandchild : Step → Slot → Passage Lowered) (path : Path) (here : Step) :
    Form → Nat → Passage Lowered
  | identifier (text : String) (session : Session) :
      FormRun child grandchild path here (.identifier text) 0 session
        (.plain (.identifier text)) session []
  | literal (value : Literal) (session : Session) :
      FormRun child grandchild path here (.literal value) 0 session
        (.plain (convertLiteral value)) session []
  | selfReference (kind : SelfKind) (session : Session) :
      FormRun child grandchild path here (.selfReference kind) 0 session
        (convertSelf kind) session []
  | parenthesized {inner : Slot} {session later : Session} {lowered : Lowered}
      {visits : List Visit}
      (converted : child inner session lowered later visits) :
      FormRun child grandchild path here (.parenthesized inner) 0 session
        lowered later visits
  | memberAccess {receiver name : Slot} {kind : AccessKind} {text : String}
      {session later : Session} {lowered : Lowered} {visits : List Visit}
      (converted : child receiver session lowered later visits)
      (named : later.arena.nameText? name = some text) :
      FormRun child grandchild path here (.memberAccess receiver name kind) 0
        session (.plain (convertAccess lowered.expr text kind)) later visits
  | conditionalAccess {receiver name : Slot} {text : String}
      {session later : Session} {lowered : Lowered} {visits : List Visit}
      (converted : child receiver session lowered later visits)
      (named : later.arena.nameText? name = some text) :
      FormRun child grandchild path here (.conditionalAccess receiver name) 0
        session (.plain (.conditionalMember lowered.expr text)) later visits
  | invocation {callee : Slot} {arguments : List Slot}
      {session between later : Session} {lowered : Lowered}
      {results : List Lowered} {visits more : List Visit}
      (called : child callee session lowered between visits)
      (passed : InSequence child arguments between results later more) :
      FormRun child grandchild path here (.invocation callee arguments) 0
        session (.plain (.call lowered.expr (results.map (·.expr)))) later
        (visits ++ more)
  | namedArgument {name value : Slot} {text : String} {session later : Session}
      {lowered : Lowered} {visits : List Visit}
      (converted : child value session lowered later visits)
      (named : later.arena.nameText? name = some text) :
      FormRun child grandchild path here (.namedArgument name value) 0 session
        (.plain (.namedArgument text lowered.expr)) later visits
  | objectCreation {typeName : String} {arguments : List Slot}
      {session later : Session} {results : List Lowered} {visits : List Visit}
      (passed : InSequence child arguments session results later visits) :
      FormRun child grandchild path here (.objectCreation typeName arguments) 0
        session (.proven (.new typeName (results.map (·.expr)))) later visits
  | anonymousObject {initializers : List Slot} {session later : Session}
      {fields : List (Option String × Expr)} {visits : List Visit}
      (initialized : InSequence (FieldRun grandchild) initializers session
        fields later visits) :
      FormRun child grandchild path here (.anonymousObject initializers) 0
        session (.proven (.anonymousObject fields)) later visits
  | unary {operator : UnaryOperator} {operand : Slot} {session later : Session}
      {lowered : Lowered} {visits : List Visit}
      (converted : child operand session lowered later visits) :
      FormRun child grandchild path here (.unary operator operand) 0 session
        ⟨.unary (convertUnaryOperator setting.model later.arena operator
          operand) lowered.expr, lowered.notNull⟩ later visits
  | typeTest {operand : Slot} {typeName : String} {negated : Bool}
      {session later : Session} {lowered : Lowered} {visits : List Visit}
      (converted : child operand session lowered later visits) :
      FormRun child grandchild path here (.typeTest operand typeName negated) 0
        session (.proven (.test lowered.expr (typePattern typeName negated)))
        later visits
  | ternary {condition whenTrue whenFalse : Slot}
      {session tested between later : Session}
      {test yes no : Lowered} {visits more most : List Visit}
      (asked : child condition session test tested visits)
      (first : child whenTrue tested yes between more)
      (second : child whenFalse between no later most) :
      FormRun child grandchild path here
        (.ternary condition whenTrue whenFalse) 0 session
        ⟨.conditional (collapseCondition setting.model tested.arena condition
          test) yes.expr no.expr, yes.notNull && no.notNull⟩ later
        (visits ++ (more ++ most))
  | nothingTest {left operand right : Slot} {operator : BinaryOperator}
      {pattern : Pattern} {session later : Session} {lowered : Lowered}
      {visits : List Visit}
      (isTest : nothingPattern? operator = some pattern)
      (compared : comparedWithNothing? session.arena left right = some operand)
      (converted : child operand session lowered later visits) :
      FormRun child grandchild path here (.binary left operator right) 0 session
        (.proven (.test lowered.expr pattern)) later visits
  | binary {left right : Slot} {operator : BinaryOperator}
      {session between later : Session} {captures : CaptureNames}
      {loweredLeft loweredRight lowered : Lowered} {visits more : List Visit}
      (noTest : nothingPattern? operator = none ∨
        comparedWithNothing? session.arena left right = none)
      (first : child left session loweredLeft between visits)
      (second : child right between loweredRight later more)
      (together : putTogether setting later.arena path here left operator right
        loweredLeft loweredRight later.captures = (lowered, captures)) :
      FormRun child grandchild path here (.binary left operator right)
        (captures.issued - later.captures.issued).toNat session lowered
        { later with captures } (visits ++ more)

/-- The passage of a slot below the given path, with room for the given number of
levels. -/
def SlotRun : Nat → Path → Bool → Slot → Passage Lowered
  | 0, _, _, _ => fun _ _ _ _ => False
  | levels + 1, path, qualify, slot => fun session lowered later visits =>
      session.arena.holds slot = true ∧
        let decided := settleAt setting path qualify slot session
        let here : Step := ⟨slot, (settledOn slot decided.1).node⟩
        ∃ form issued below,
          decided.2.arena.form? here.effective = some form ∧
          FormRun setting (SlotRun levels (here :: path) (goesOn decided.1))
            (fun field =>
              SlotRun (levels - 1) (field :: here :: path) (goesOn decided.1))
            path here form issued decided.2 lowered later below ∧
          visits = below ++ [⟨path, here, form, lowered, issued⟩]

/-- The passage of a slot that may be absent. -/
inductive OptionalRun (child : Slot → Passage Lowered) :
    Slot → Passage (Option Expr)
  | absent (session : Session) : OptionalRun child none session none session []
  | present {node : NodeId} {session later : Session} {lowered : Lowered}
      {visits : List Visit}
      (converted : child (some node) session lowered later visits) :
      OptionalRun child (some node) session (some lowered.expr) later visits

/-- The header that a condition becomes. -/
def convertHeader (condition : Expr) : ConditionKind → Statement
  | .ifBlock | .singleLineIf => .ifHeader condition
  | .elseIf => .elseIfHeader condition
  | .whileLoop => .whileHeader condition
  | .doLoop => .doWhileTrailer condition

/-- The passage of a statement of the given form, where `child` is that of its
expressions. -/
inductive StatementFormRun (child : Slot → Passage Lowered) :
    Form → Passage Statement
  | conditionStatement {kind : ConditionKind} {condition : Slot}
      {session later : Session} {lowered : Lowered} {visits : List Visit}
      (converted : child condition session lowered later visits) :
      StatementFormRun child (.conditionStatement kind condition) session
        (convertHeader
          (collapseCondition setting.model later.arena condition lowered) kind)
        later visits
  | returnStatement {value : Slot} {session later : Session}
      {result : Option Expr} {visits : List Visit}
      (converted : OptionalRun child value session result later visits) :
      StatementFormRun child (.returnStatement value) session
        (.returnValue result) later visits
  | localDeclaration {name : String} {initializer : Slot}
      {session later : Session} {result : Option Expr} {visits : List Visit}
      (converted : OptionalRun child initializer session result later visits) :
      StatementFormRun child (.localDeclaration name initializer) session
        (.localDeclaration name result) later visits
  | assignment {target value : Slot} {session between later : Session}
      {loweredTarget loweredValue : Lowered} {visits more : List Visit}
      (assigned : child target session loweredTarget between visits)
      (converted : child value between loweredValue later more) :
      StatementFormRun child (.assignment target value) session
        (.assignment loweredTarget.expr loweredValue.expr) later
        (visits ++ more)
  | expressionStatement {expression : Slot} {session later : Session}
      {lowered : Lowered} {visits : List Visit}
      (converted : child expression session lowered later visits) :
      StatementFormRun child (.expressionStatement expression) session
        (.expression lowered.expr) later visits

/-- The passage of a statement. -/
def StatementRun (statement : Slot) : Passage Target.Statement :=
  fun session result later visits =>
    ∃ form, session.arena.form? statement = some form ∧
      StatementFormRun setting
        (SlotRun setting (depthLimit - 1) [.unchanged statement] true) form
        session result later visits

end

/-! ## Rule induction -/

section

variable {Item Result : Type} {passage other : Item → Passage Result}
variable {session later : Session} {visits : List Visit}

theorem InSequence.imp {items : List Item} {results : List Result}
    (implies : ∀ ⦃item session result later visits⦄,
      passage item session result later visits →
        other item session result later visits)
    (run : InSequence passage items session results later visits) :
    InSequence other items session results later visits := by
  induction run with
  | nil session => exact .nil session
  | cons first _ ih => exact .cons (implies first) ih

variable {child otherChild : Slot → Passage Lowered}
variable {grandchild otherGrandchild : Step → Slot → Passage Lowered}

theorem FieldRun.imp {field : Slot} {result : Option String × Expr}
    (implies : ∀ ⦃field slot session lowered later visits⦄,
      grandchild field slot session lowered later visits →
        otherGrandchild field slot session lowered later visits)
    (run : FieldRun grandchild field session result later visits) :
    FieldRun otherGrandchild field session result later visits := by
  cases run with
  | named found converted named =>
      exact .named found (implies converted) named
  | inferred found converted =>
      exact .inferred found (implies converted)

theorem FormRun.imp {setting : Setting} {path : Path} {here : Step} {form : Form}
    {issued : Nat} {lowered : Lowered}
    (implies : ∀ ⦃slot session lowered later visits⦄,
      child slot session lowered later visits →
        otherChild slot session lowered later visits)
    (impliesDeep : ∀ ⦃field slot session lowered later visits⦄,
      grandchild field slot session lowered later visits →
        otherGrandchild field slot session lowered later visits)
    (run : FormRun setting child grandchild path here form issued session lowered
      later visits) :
    FormRun setting otherChild otherGrandchild path here form issued session
      lowered later visits := by
  cases run with
  | identifier text => exact .identifier text session
  | literal value => exact .literal value session
  | selfReference kind => exact .selfReference kind session
  | parenthesized converted => exact .parenthesized (implies converted)
  | memberAccess converted named =>
      exact .memberAccess (implies converted) named
  | conditionalAccess converted named =>
      exact .conditionalAccess (implies converted) named
  | invocation called passed =>
      exact .invocation (implies called) (passed.imp implies)
  | namedArgument converted named =>
      exact .namedArgument (implies converted) named
  | objectCreation passed => exact .objectCreation (passed.imp implies)
  | anonymousObject initialized =>
      exact .anonymousObject (initialized.imp fun _ _ _ _ _ => .imp impliesDeep)
  | unary converted => exact .unary (implies converted)
  | typeTest converted => exact .typeTest (implies converted)
  | ternary asked first second =>
      exact .ternary (implies asked) (implies first)
        (implies second)
  | nothingTest isTest compared converted =>
      exact .nothingTest isTest compared (implies converted)
  | binary noTest first second together =>
      exact .binary noTest (implies first) (implies second)
        together

end

/-- Whatever each node hands on from the slots below it holds of all slots. A node
may rely on it for the passages of these slots. -/
theorem SlotRun.ruleInduction {setting : Setting}
    (good : Path → Bool → Slot → Passage Lowered)
    (node : ∀ path qualify slot session form issued lowered later below,
      session.arena.holds slot = true →
      let decided := settleAt setting path qualify slot session
      let here : Step := ⟨slot, (settledOn slot decided.1).node⟩
      let onward := goesOn decided.1
      let reached (path : Path) (slot : Slot) : Passage Lowered :=
        fun session lowered later visits =>
          (∃ levels, SlotRun setting levels path onward slot session lowered
            later visits) ∧ good path onward slot session lowered later visits
      decided.2.arena.form? here.effective = some form →
      FormRun setting (reached (here :: path))
        (fun field => reached (field :: here :: path)) path here form issued
        decided.2 lowered later below →
      good path qualify slot session lowered later
        (below ++ [⟨path, here, form, lowered, issued⟩]))
    {levels : Nat} {path : Path} {qualify : Bool} {slot : Slot}
    {session later : Session} {lowered : Lowered} {visits : List Visit}
    (run : SlotRun setting levels path qualify slot session lowered later
      visits) :
    good path qualify slot session lowered later visits := by
  induction levels using Nat.strongRecOn
    generalizing path qualify slot session lowered later visits with
  | ind levels ih =>
  cases levels with
  | zero => simp only [SlotRun] at run
  | succ levels =>
      simp only [SlotRun] at run
      obtain ⟨holds, form, issued, below, found, run, rfl⟩ := run
      refine node path qualify slot session form issued lowered later below holds
        found (run.imp ?_ ?_)
      · exact fun _ _ _ _ _ run => ⟨⟨_, run⟩, ih levels (by omega) run⟩
      · exact fun _ _ _ _ _ _ run => ⟨⟨_, run⟩, ih (levels - 1) (by omega) run⟩

/-! ## What succeeds -/

section

variable {Item Result : Type} {setting : Setting} {path : Path} {here : Step}
variable {session later : Session}

/-- Whether a passage is that of a step. -/
def Describes (passage : Passage Result) (step : Conversion Result) : Prop :=
  ∀ session result later, Succeeds step session result later ↔
    ∃ visits, passage session result later visits

theorem succeeds_mapM {passage : Item → Passage Result}
    {step : Item → Conversion Result}
    (describes : ∀ item, Describes (passage item) (step item))
    (items : List Item) :
    Describes (InSequence passage items) (items.mapM step) := by
  induction items with
  | nil =>
      intro session results later
      rw [List.mapM_nil, succeeds_pure]
      constructor
      · rintro ⟨rfl, rfl⟩
        exact ⟨[], .nil _⟩
      · rintro ⟨_, run⟩
        cases run
        exact ⟨rfl, rfl⟩
  | cons item rest ih =>
      intro session results later
      simp only [List.mapM_cons, succeeds_bind, succeeds_pure, describes item _ _ _,
        ih _ _ _]
      constructor
      · rintro ⟨result, between, ⟨visits, first⟩, others, _, ⟨more, second⟩,
          rfl, rfl⟩
        exact ⟨_, .cons first second⟩
      · rintro ⟨_, run⟩
        cases run with
        | cons first others =>
            exact ⟨_, _, ⟨_, first⟩, _, _, ⟨_, others⟩, rfl, rfl⟩

variable {child : Slot → Conversion Lowered} {passages : Slot → Passage Lowered}
variable {grandchild : Step → Slot → Conversion Lowered}
variable {deepPassages : Step → Slot → Passage Lowered}

theorem describes_convertField
    (describes : ∀ field slot,
      Describes (deepPassages field slot) (grandchild field slot))
    (field : Slot) :
    Describes (FieldRun deepPassages field) (convertField grandchild field) := by
  intro session result later
  unfold convertField
  simp only [succeeds_bind, succeeds_formOf]
  constructor
  · rintro ⟨form, _, ⟨found, rfl⟩, ran⟩
    cases form with
    | namedField name value =>
        simp only [succeeds_bind, succeeds_nameOf, succeeds_pure,
          describes _ _ _ _ _] at ran
        obtain ⟨_, _, ⟨_, converted⟩, _, _, ⟨named, rfl⟩, rfl, rfl⟩ := ran
        exact ⟨_, .named found converted named⟩
    | inferredField value =>
        simp only [succeeds_bind, succeeds_pure, describes _ _ _ _ _] at ran
        obtain ⟨_, _, ⟨_, converted⟩, rfl, rfl⟩ := ran
        exact ⟨_, .inferred found converted⟩
    | _ => exact absurd ran succeeds_refuse
  · rintro ⟨_, (⟨found, converted, named⟩ | ⟨found, converted⟩)⟩
    · refine ⟨_, _, ⟨found, rfl⟩, ?_⟩
      simp only [succeeds_bind, succeeds_nameOf, succeeds_pure,
        describes _ _ _ _ _]
      exact ⟨_, _, ⟨_, converted⟩, _, _, ⟨named, rfl⟩, rfl, rfl⟩
    · refine ⟨_, _, ⟨found, rfl⟩, ?_⟩
      simp only [succeeds_bind, succeeds_pure, describes _ _ _ _ _]
      exact ⟨_, _, ⟨_, converted⟩, rfl, rfl⟩

/-- The step that puts two converted operands together. -/
theorem succeeds_putTogether {left right : Slot} {operator : BinaryOperator}
    {loweredLeft loweredRight lowered : Lowered} :
    Succeeds (do
        let unchanged := Expr.binary loweredLeft.expr (convertOperator operator)
          loweredRight.expr
        if setting.options.lowerNullableLogic && isRestated operator then
          let arena := (← get).arena
          let site : Site := ⟨setting.model, arena, setting.options⟩
          let typeOf (slot : Slot) :=
            setting.model.typeOf (arena.standsFor slot)
          Conversion.naming (site.lowerBinary path here (typeOf left)
            (typeOf right) unchanged loweredLeft loweredRight)
        else return .plain unchanged) session lowered later ↔
      ∃ captures, putTogether setting session.arena path here left operator right
          loweredLeft loweredRight session.captures = (lowered, captures) ∧
        later = { session with captures } := by
  unfold putTogether
  split
  · simp only [succeeds_bind, succeeds_get, succeeds_naming]
    constructor
    · rintro ⟨_, _, ⟨rfl, rfl⟩, rfl, rfl⟩
      exact ⟨_, rfl, rfl⟩
    · rintro ⟨_, together, rfl⟩
      refine ⟨_, _, ⟨rfl, rfl⟩, ?_⟩
      rw [together]
      exact ⟨rfl, rfl⟩
  · rw [succeeds_pure]
    constructor
    · rintro ⟨rfl, rfl⟩
      exact ⟨_, rfl, rfl⟩
    · rintro ⟨_, ⟨⟩, rfl⟩
      exact ⟨rfl, rfl⟩

theorem describes_convertBinary
    (describes : ∀ slot, Describes (passages slot) (child slot))
    (left : Slot) (operator : BinaryOperator) (right : Slot)
    (session : Session) (lowered : Lowered) (later : Session) :
    Succeeds (convertBinary setting child path here left operator right) session
        lowered later ↔
      ∃ issued visits, FormRun setting passages deepPassages path here
        (.binary left operator right) issued session lowered later visits := by
  simp only [convertBinary, succeeds_bind, succeeds_get]
  constructor
  · rintro ⟨_, _, ⟨rfl, rfl⟩, ran⟩
    split at ran
    · next pattern operand isTest compared =>
        simp only [succeeds_bind, succeeds_pure, describes _ _ _ _] at ran
        obtain ⟨_, _, ⟨_, converted⟩, rfl, rfl⟩ := ran
        exact ⟨_, _, .nothingTest isTest compared converted⟩
    · next noTest =>
        simp only [succeeds_bind, describes _ _ _ _] at ran
        obtain ⟨_, _, ⟨_, first⟩, _, _, ⟨_, second⟩, ran⟩ := ran
        obtain ⟨_, together, rfl⟩ := succeeds_putTogether.mp ran
        refine ⟨_, _, .binary ?_ first second together⟩
        cases isTest : nothingPattern? operator with
        | none => exact .inl rfl
        | some pattern =>
            refine .inr (Option.eq_none_iff_forall_ne_some.mpr ?_)
            exact fun operand => noTest pattern operand isTest
  · rintro ⟨_, _, run⟩
    refine ⟨_, _, ⟨rfl, rfl⟩, ?_⟩
    cases run with
    | nothingTest isTest compared converted =>
        rw [isTest, compared]
        simp only [succeeds_bind, succeeds_pure, describes _ _ _ _]
        exact ⟨_, _, ⟨_, converted⟩, rfl, rfl⟩
    | binary noTest first second together =>
        split
        · next isTest compared =>
            rw [isTest, compared] at noTest
            exact (noTest.elim nofun nofun)
        · simp only [succeeds_bind, describes _ _ _ _]
          exact ⟨_, _, ⟨_, first⟩, _, _, ⟨_, second⟩,
            succeeds_putTogether.mpr ⟨_, together, rfl⟩⟩

theorem describes_convertForm
    (describes : ∀ slot, Describes (passages slot) (child slot))
    (describesDeep : ∀ field slot,
      Describes (deepPassages field slot) (grandchild field slot))
    (form : Form) (session : Session) (lowered : Lowered) (later : Session) :
    Succeeds (convertForm setting child grandchild path here form) session
        lowered later ↔
      ∃ issued visits, FormRun setting passages deepPassages path here form
        issued session lowered later visits := by
  have describesList := succeeds_mapM describes
  have describesFields := succeeds_mapM (describes_convertField describesDeep)
  cases form with
  | identifier text =>
      simp only [convertForm, succeeds_pure]
      constructor
      · rintro ⟨rfl, rfl⟩
        exact ⟨_, _, .identifier text later⟩
      · rintro ⟨_, _, run⟩
        cases run
        exact ⟨rfl, rfl⟩
  | literal value =>
      simp only [convertForm, succeeds_pure]
      constructor
      · rintro ⟨rfl, rfl⟩
        exact ⟨_, _, .literal value later⟩
      · rintro ⟨_, _, run⟩
        cases run
        exact ⟨rfl, rfl⟩
  | selfReference kind =>
      have isSelf : convertForm setting child grandchild path here
          (.selfReference kind) = pure (convertSelf kind) := by
        cases kind <;> rfl
      rw [isSelf, succeeds_pure]
      constructor
      · rintro ⟨rfl, rfl⟩
        exact ⟨_, _, .selfReference kind later⟩
      · rintro ⟨_, _, run⟩
        cases run
        exact ⟨rfl, rfl⟩
  | parenthesized inner =>
      simp only [convertForm, describes _ _ _ _]
      constructor
      · rintro ⟨_, converted⟩
        exact ⟨_, _, .parenthesized converted⟩
      · rintro ⟨_, _, run⟩
        cases run with
        | parenthesized converted => exact ⟨_, converted⟩
  | memberAccess receiver name kind =>
      simp only [convertForm, succeeds_bind, succeeds_nameOf, describes _ _ _ _]
      constructor
      · rintro ⟨_, _, ⟨_, converted⟩, _, _, ⟨named, rfl⟩, ran⟩
        cases kind <;> obtain ⟨rfl, rfl⟩ := succeeds_pure.mp ran <;>
          exact ⟨_, _, .memberAccess converted named⟩
      · rintro ⟨_, _, run⟩
        cases run with
        | memberAccess converted named =>
            refine ⟨_, _, ⟨_, converted⟩, _, _, ⟨named, rfl⟩, ?_⟩
            cases kind <;> exact succeeds_pure.mpr ⟨rfl, rfl⟩
  | conditionalAccess receiver name =>
      simp only [convertForm, succeeds_bind, succeeds_nameOf, succeeds_pure,
        describes _ _ _ _]
      constructor
      · rintro ⟨_, _, ⟨_, converted⟩, _, _, ⟨named, rfl⟩, rfl, rfl⟩
        exact ⟨_, _, .conditionalAccess converted named⟩
      · rintro ⟨_, _, run⟩
        cases run with
        | conditionalAccess converted named =>
            exact ⟨_, _, ⟨_, converted⟩, _, _, ⟨named, rfl⟩, rfl, rfl⟩
  | invocation callee arguments =>
      simp only [convertForm, succeeds_bind, succeeds_pure, describes _ _ _ _,
        describesList _ _ _ _]
      constructor
      · rintro ⟨_, _, ⟨_, called⟩, _, _, ⟨_, passed⟩, rfl, rfl⟩
        exact ⟨_, _, .invocation called passed⟩
      · rintro ⟨_, _, run⟩
        cases run with
        | invocation called passed =>
            exact ⟨_, _, ⟨_, called⟩, _, _, ⟨_, passed⟩, rfl, rfl⟩
  | namedArgument name value =>
      simp only [convertForm, succeeds_bind, succeeds_nameOf, succeeds_pure,
        describes _ _ _ _]
      constructor
      · rintro ⟨_, _, ⟨_, converted⟩, _, _, ⟨named, rfl⟩, rfl, rfl⟩
        exact ⟨_, _, .namedArgument converted named⟩
      · rintro ⟨_, _, run⟩
        cases run with
        | namedArgument converted named =>
            exact ⟨_, _, ⟨_, converted⟩, _, _, ⟨named, rfl⟩, rfl, rfl⟩
  | objectCreation typeName arguments =>
      simp only [convertForm, succeeds_bind, succeeds_pure,
        describesList _ _ _ _]
      constructor
      · rintro ⟨_, _, ⟨_, passed⟩, rfl, rfl⟩
        exact ⟨_, _, .objectCreation passed⟩
      · rintro ⟨_, _, run⟩
        cases run with
        | objectCreation passed => exact ⟨_, _, ⟨_, passed⟩, rfl, rfl⟩
  | anonymousObject initializers =>
      simp only [convertForm, succeeds_bind, succeeds_pure,
        describesFields _ _ _ _]
      constructor
      · rintro ⟨_, _, ⟨_, initialized⟩, rfl, rfl⟩
        exact ⟨_, _, .anonymousObject initialized⟩
      · rintro ⟨_, _, run⟩
        cases run with
        | anonymousObject initialized =>
            exact ⟨_, _, ⟨_, initialized⟩, rfl, rfl⟩
  | unary operator operand =>
      simp only [convertForm, succeeds_bind, succeeds_get, succeeds_pure,
        describes _ _ _ _]
      constructor
      · rintro ⟨_, _, ⟨_, converted⟩, _, _, ⟨rfl, rfl⟩, rfl, rfl⟩
        exact ⟨_, _, .unary converted⟩
      · rintro ⟨_, _, run⟩
        cases run with
        | unary converted =>
            exact ⟨_, _, ⟨_, converted⟩, _, _, ⟨rfl, rfl⟩, rfl, rfl⟩
  | typeTest operand typeName negated =>
      simp only [convertForm, succeeds_bind, succeeds_pure, describes _ _ _ _]
      constructor
      · rintro ⟨_, _, ⟨_, converted⟩, rfl, rfl⟩
        exact ⟨_, _, .typeTest converted⟩
      · rintro ⟨_, _, run⟩
        cases run with
        | typeTest converted => exact ⟨_, _, ⟨_, converted⟩, rfl, rfl⟩
  | ternary condition whenTrue whenFalse =>
      simp only [convertForm, succeeds_bind, succeeds_get, succeeds_pure,
        describes _ _ _ _]
      constructor
      · rintro ⟨_, _, ⟨_, asked⟩, _, _, ⟨rfl, rfl⟩, _, _, ⟨_, first⟩, _, _,
          ⟨_, second⟩, rfl, rfl⟩
        exact ⟨_, _, .ternary asked first second⟩
      · rintro ⟨_, _, run⟩
        cases run with
        | ternary asked first second =>
            exact ⟨_, _, ⟨_, asked⟩, _, _, ⟨rfl, rfl⟩, _, _, ⟨_, first⟩, _, _,
              ⟨_, second⟩, rfl, rfl⟩
  | binary left operator right =>
      exact describes_convertBinary describes left operator right session lowered
        later
  | namedField | inferredField | conditionStatement | returnStatement
  | localDeclaration | assignment | expressionStatement =>
      exact ⟨fun ran => absurd ran succeeds_refuse, fun ⟨_, _, run⟩ => nomatch run⟩
end

/-- What is below a field is converted with one level less, if there is one. -/
theorem describes_convertSlot_below {setting : Setting} {levels : Nat}
    (each : ∀ fewer ≤ levels, ∀ path qualify slot,
      Describes (SlotRun setting fewer path qualify slot)
        (convertSlot setting fewer path qualify slot))
    (path : Path) (qualify : Bool) (slot : Slot) :
    Describes (SlotRun setting (levels - 1) path qualify slot)
      ((match levels with
        | 0 => convertSlot setting 0 path qualify
        | levels + 1 => convertSlot setting levels path qualify) slot) := by
  cases levels with
  | zero => exact each 0 (Nat.le_refl 0) path qualify slot
  | succ levels => exact each levels (Nat.le_succ levels) path qualify slot

/-- A slot is converted exactly if it has a passage. -/
theorem describes_convertSlot (setting : Setting) (levels : Nat) (path : Path)
    (qualify : Bool) (slot : Slot) :
    Describes (SlotRun setting levels path qualify slot)
      (convertSlot setting levels path qualify slot) := by
  induction levels using Nat.strongRecOn generalizing path qualify slot with
  | ind levels ih =>
  intro session lowered later
  cases levels with
  | zero =>
      unfold convertSlot
      simp only [succeeds_bind, succeeds_get, SlotRun]
      constructor
      · rintro ⟨_, _, ⟨rfl, rfl⟩, ran⟩
        split at ran <;> simp at ran
      · rintro ⟨_, ⟨⟩⟩
  | succ levels =>
      have describes (path : Path) (qualify : Bool) (slot : Slot) :
          Describes (SlotRun setting levels path qualify slot)
            (convertSlot setting levels path qualify slot) :=
        ih levels (Nat.lt_succ_self levels) path qualify slot
      have describesDeep (path : Path) (qualify : Bool) (field : Step) :=
        describes_convertSlot_below
          (fun fewer isFewer => ih fewer (Nat.lt_succ_of_le isFewer))
          (field :: path) qualify
      unfold convertSlot
      simp only [SlotRun, succeeds_bind, succeeds_get]
      constructor
      · rintro ⟨_, _, ⟨rfl, rfl⟩, ran⟩
        split at ran
        · next holds =>
            simp only [succeeds_bind, succeeds_settle, succeeds_formOf] at ran
            obtain ⟨_, _, ⟨rfl, rfl⟩, form, _, ⟨found, rfl⟩, ran⟩ := ran
            obtain ⟨issued, below, run⟩ := (describes_convertForm (describes _ _)
              (describesDeep _ _) form _ _ _).mp ran
            exact ⟨_, holds, form, issued, below, found, run, rfl⟩
        · simp at ran
      · rintro ⟨_, holds, form, issued, below, found, run, rfl⟩
        refine ⟨_, _, ⟨rfl, rfl⟩, ?_⟩
        rw [if_pos holds]
        simp only [succeeds_bind, succeeds_settle, succeeds_formOf]
        exact ⟨_, _, ⟨rfl, rfl⟩, form, _, ⟨found, rfl⟩,
          (describes_convertForm (describes _ _) (describesDeep _ _) form _ _
            _).mpr ⟨issued, below, run⟩⟩

theorem describes_optional {child : Slot → Conversion Lowered}
    {passages : Slot → Passage Lowered}
    (describes : ∀ slot, Describes (passages slot) (child slot)) (slot : Slot) :
    Describes (OptionalRun passages slot)
      (match slot with
      | none => return none
      | some _ => do
          let lowered ← child slot
          return some lowered.expr) := by
  intro session result later
  cases slot with
  | none =>
      rw [succeeds_pure]
      constructor
      · rintro ⟨rfl, rfl⟩
        exact ⟨_, .absent later⟩
      · rintro ⟨_, run⟩
        cases run
        exact ⟨rfl, rfl⟩
  | some node =>
      simp only [succeeds_bind, succeeds_pure, describes _ _ _ _]
      constructor
      · rintro ⟨_, _, ⟨_, converted⟩, rfl, rfl⟩
        exact ⟨_, .present converted⟩
      · rintro ⟨_, run⟩
        cases run with
        | present converted => exact ⟨_, _, ⟨_, converted⟩, rfl, rfl⟩

/-- A statement is converted exactly if it has a passage. -/
theorem describes_convertStatement (setting : Setting) (statement : Slot) :
    Describes (StatementRun setting statement)
      (convertStatement setting statement) := by
  intro session result later
  have describes := describes_convertSlot setting (depthLimit - 1)
    [.unchanged statement] true
  have optional := describes_optional describes
  unfold convertStatement StatementRun
  simp only [succeeds_bind, succeeds_formOf]
  constructor
  · rintro ⟨form, _, ⟨found, rfl⟩, ran⟩
    cases form with
    | conditionStatement kind condition =>
        simp only [succeeds_bind, succeeds_get, describes _ _ _ _] at ran
        obtain ⟨_, _, ⟨_, converted⟩, _, _, ⟨rfl, rfl⟩, ran⟩ := ran
        cases kind <;> obtain ⟨rfl, rfl⟩ := succeeds_pure.mp ran <;>
          exact ⟨_, _, found, .conditionStatement converted⟩
    | returnStatement value =>
        simp only [succeeds_bind, succeeds_pure] at ran
        obtain ⟨_, _, ran, rfl, rfl⟩ := ran
        obtain ⟨_, converted⟩ := (optional value _ _ _).mp ran
        exact ⟨_, _, found, .returnStatement converted⟩
    | localDeclaration name initializer =>
        simp only [succeeds_bind, succeeds_pure] at ran
        obtain ⟨_, _, ran, rfl, rfl⟩ := ran
        obtain ⟨_, converted⟩ := (optional initializer _ _ _).mp ran
        exact ⟨_, _, found, .localDeclaration converted⟩
    | assignment target value =>
        simp only [succeeds_bind, succeeds_pure, describes _ _ _ _] at ran
        obtain ⟨_, _, ⟨_, assigned⟩, _, _, ⟨_, converted⟩, rfl, rfl⟩ := ran
        exact ⟨_, _, found, .assignment assigned converted⟩
    | expressionStatement expression =>
        simp only [succeeds_bind, succeeds_pure, describes _ _ _ _] at ran
        obtain ⟨_, _, ⟨_, converted⟩, rfl, rfl⟩ := ran
        exact ⟨_, _, found, .expressionStatement converted⟩
    | _ => simp at ran
  · rintro ⟨_, form, found, run⟩
    refine ⟨form, _, ⟨found, rfl⟩, ?_⟩
    cases run with
    | @conditionStatement kind _ _ _ _ _ converted =>
        simp only [succeeds_bind, succeeds_get, describes _ _ _ _]
        refine ⟨_, _, ⟨_, converted⟩, _, _, ⟨rfl, rfl⟩, ?_⟩
        cases kind <;> exact succeeds_pure.mpr ⟨rfl, rfl⟩
    | returnStatement converted =>
        simp only [succeeds_bind, succeeds_pure]
        exact ⟨_, _, (optional _ _ _ _).mpr ⟨_, converted⟩, rfl, rfl⟩
    | localDeclaration converted =>
        simp only [succeeds_bind, succeeds_pure]
        exact ⟨_, _, (optional _ _ _ _).mpr ⟨_, converted⟩, rfl, rfl⟩
    | assignment assigned converted =>
        simp only [succeeds_bind, succeeds_pure, describes _ _ _ _]
        exact ⟨_, _, ⟨_, assigned⟩, _, _, ⟨_, converted⟩, rfl, rfl⟩
    | expressionStatement converted =>
        simp only [succeeds_bind, succeeds_pure, describes _ _ _ _]
        exact ⟨_, _, ⟨_, converted⟩, rfl, rfl⟩

/-! ## Requests -/

/-- What a host may ask to be converted. -/
inductive Request where
  | statement (slot : Slot)
  | expression (slot : Slot)

/-- What it is given. -/
inductive Output where
  | statement (converted : Statement)
  | expression (converted : Expr)

namespace Request

/-- The slot that is to be converted. -/
def slot : Request → Slot
  | statement slot | expression slot => slot

/-- Convert what is asked for. -/
def convert (setting : Setting) : Request → Conversion Output
  | statement slot => .statement <$> convertStatement setting slot
  | expression slot =>
      (fun lowered => .expression lowered.expr) <$> convertExpression setting slot

/-- The passage of a request. -/
inductive Run (setting : Setting) : Request → Passage Output
  | statement {slot : Slot} {session later : Session} {converted : Statement}
      {visits : List Visit}
      (run : StatementRun setting slot session converted later visits) :
      Run setting (.statement slot) session (.statement converted) later visits
  | expression {slot : Slot} {session later : Session} {lowered : Lowered}
      {visits : List Visit}
      (run : SlotRun setting depthLimit [] true slot session lowered later
        visits) :
      Run setting (.expression slot) session (.expression lowered.expr) later
        visits

/-- A request is answered exactly if it has a passage. -/
theorem describes_convert (setting : Setting) (request : Request) :
    Describes (request.Run setting) (request.convert setting) := by
  intro session output later
  cases request with
  | statement slot =>
      simp only [convert, succeeds_map,
        describes_convertStatement setting slot _ _ _]
      constructor
      · rintro ⟨_, ⟨_, run⟩, rfl⟩
        exact ⟨_, .statement run⟩
      · rintro ⟨_, run⟩
        cases run with
        | statement run => exact ⟨_, ⟨_, run⟩, rfl⟩
  | expression slot =>
      simp only [convert, convertExpression, succeeds_map,
        describes_convertSlot setting depthLimit [] true slot _ _ _]
      constructor
      · rintro ⟨_, ⟨_, run⟩, rfl⟩
        exact ⟨_, .expression run⟩
      · rintro ⟨_, run⟩
        cases run with
        | expression run => exact ⟨_, ⟨_, run⟩, rfl⟩

end Request

end BasicLowering.Lowering
