import BasicLowering.Proofs.Lowering.Respelling
import BasicLowering.Proofs.Qualification.Relocation

/-!
# Sessions in lockstep

One and the same tree is converted in two sessions that have come to different points:
the second one already holds further nodes, has issued names and has been asked for
imports. Both conversions fail, or both succeed with the same result but for the names of
captures.
-/

namespace BasicLowering.Lowering

open Source Source.Twinning Binding Qualification Analysis
open Target (Expr Pattern Statement)

/-- Rename what is read and bound in an answer. -/
def Output.rename (change : String → String) : Output → Output
  | .statement converted => .statement (converted.rename change)
  | .expression converted => .expression (converted.rename change)

/-- The imports of a session that has asked for some more. -/
def importsWith (asked : List String) (imports : List String) : List String :=
  (imports.foldl Session.addImport { imports := asked }).imports

theorem importsWith_append (asked imports : List String) (name : String) :
    importsWith asked (imports ++ [name]) =
      (Session.addImport { imports := importsWith asked imports } name).imports := by
  rw [importsWith, List.foldl_append, importsWith]
  simp only [List.foldl_cons, List.foldl_nil, Session.addImport]
  split <;> rfl

theorem mem_importsWith (asked : List String) {imports : List String} {name : String}
    (isAsked : name ∈ imports) : name ∈ importsWith asked imports := by
  induction imports using List.reverseRecOn with
  | nil => cases isAsked
  | append_singleton imports other ih =>
      rw [importsWith_append, Session.addImport]
      obtain isEarlier | isLast := List.mem_append.mp isAsked
      · split
        · exact ih isEarlier
        · exact List.mem_append_left _ (ih isEarlier)
      · obtain rfl := List.mem_singleton.mp isLast
        split
        · next contained => exact List.contains_iff_mem.mp contained
        · exact List.mem_append_right _ isLast

/-- The pattern of a comparison with `Nothing` binds nothing. -/
theorem rename_nothing {operator : BinaryOperator} {pattern : Pattern}
    (isPattern : nothingPattern? operator = some pattern) (change : String → String) :
    pattern.rename change = pattern := by
  cases operator <;> cases isPattern <;> rfl

/-- Two sessions: the arenas that they grow from, where their names begin, and the
imports that the second one has been asked for before. -/
structure Lockstep where
  twinning : Twinning
  captures : CaptureNames
  others : CaptureNames
  asked : List String

namespace Lockstep

variable (lockstep : Lockstep)

/-- Exchanging the names of the first session for those of the second one. -/
def rewording : Rewording :=
  respelling lockstep.captures lockstep.others

/-- Whether two sessions have come equally far. -/
structure Pair (first second : Session) : Prop where
  twin : lockstep.twinning.Twin first.arena second.arena
  sound : first.arena.Sound
  level : lockstep.rewording.Level first.captures second.captures
  imports : second.imports = importsWith lockstep.asked first.imports

/-- Whether both steps have failed, or both have succeeded, where the second one has the
changed result. -/
inductive Alike {Result Moved : Type} (change : Result → Moved) :
    Except ConversionError Result × Session → Except ConversionError Moved × Session → Prop
  | failed (error other : ConversionError) (first second : Session) :
      Alike change (.error error, first) (.error other, second)
  | succeeded (result : Result) {first second : Session}
      (pair : lockstep.Pair first second) :
      Alike change (.ok result, first) (.ok (change result), second)

/-- Whether two steps are alike in all pairs of sessions. -/
def Matches {Result Moved : Type} (change : Result → Moved) (step : Conversion Result)
    (other : Conversion Moved) : Prop :=
  ∀ first second, lockstep.Pair first second →
    lockstep.Alike change (step first) (other second)

variable {lockstep}

section

variable {Item Result Moved Final Last : Type} {change : Result → Moved}
variable {changeLast : Final → Last} {first second : Session}

theorem Alike.bind {step : Conversion Result} {other : Conversion Moved}
    {rest : Result → Conversion Final} {next : Moved → Conversion Last}
    (early : lockstep.Alike change (step first) (other second))
    (late : ∀ result, lockstep.Matches changeLast (rest result) (next (change result))) :
    lockstep.Alike changeLast ((step >>= rest) first) ((other >>= next) second) := by
  change lockstep.Alike changeLast (ExceptT.bind step rest first)
    (ExceptT.bind other next second)
  simp only [ExceptT.bind, ExceptT.mk, Bind.bind, StateT.bind]
  generalize step first = outcome at early
  generalize other second = otherOutcome at early
  cases early with
  | failed error other between otherBetween => exact .failed error other _ _
  | succeeded result pair => exact late result _ _ pair

namespace Matches

theorem pure (result : Result) {moved : Moved} (same : moved = change result) :
    lockstep.Matches change (pure result) (pure moved) := by
  subst same
  exact fun _ _ pair => .succeeded result pair

theorem throw (error other : ConversionError) :
    lockstep.Matches change (throw error) (throw other) :=
  fun first second _ => .failed error other first second

theorem bind {step : Conversion Result} {other : Conversion Moved}
    {rest : Result → Conversion Final} {next : Moved → Conversion Last}
    (early : lockstep.Matches change step other)
    (late : ∀ result, lockstep.Matches changeLast (rest result) (next (change result))) :
    lockstep.Matches changeLast (step >>= rest) (other >>= next) :=
  fun first second pair => (early first second pair).bind late

/-- What is read from the sessions may decide how to go on. -/
theorem get {rest : Session → Conversion Final} {next : Session → Conversion Last}
    (late : ∀ first second, lockstep.Pair first second →
      lockstep.Matches changeLast (rest first) (next second)) :
    lockstep.Matches changeLast (get >>= rest) (get >>= next) := by
  intro first second pair
  rw [bind_of_succeeds (succeeds_get.mpr ⟨rfl, rfl⟩),
    bind_of_succeeds (succeeds_get.mpr ⟨rfl, rfl⟩)]
  exact late first second pair first second pair

/-- Both steps decide in the same way. -/
theorem ite {condition other : Bool} {yes no : Conversion Result}
    {otherYes otherNo : Conversion Moved} (same : other = condition)
    (whenTrue : condition = true → lockstep.Matches change yes otherYes)
    (whenFalse : condition = false → lockstep.Matches change no otherNo) :
    lockstep.Matches change (if condition then yes else no)
      (if other then otherYes else otherNo) := by
  subst same
  cases other with
  | true => exact whenTrue rfl
  | false => exact whenFalse rfl

theorem mapM {step : Item → Conversion Result} {other : Item → Conversion Moved}
    {move : Item → Item} {items : List Item}
    (each : ∀ item ∈ items, lockstep.Matches change (step item) (other (move item))) :
    lockstep.Matches (List.map change) (items.mapM step) ((items.map move).mapM other) := by
  induction items with
  | nil => exact .pure [] rfl
  | cons item rest ih =>
      rw [List.forall_mem_cons] at each
      rw [List.map_cons, List.mapM_cons, List.mapM_cons]
      exact each.1.bind fun _ => (ih each.2).bind fun _ => .pure _ rfl

theorem naming {step : Naming Result} {other : Naming Moved}
    (carries : lockstep.rewording.Carries change step other) :
    lockstep.Matches change (Conversion.naming step) (Conversion.naming other) := by
  intro first second pair
  obtain ⟨same, level⟩ := carries _ _ pair.level
  have named : lockstep.Alike change
      (.ok (step first.captures).1, { first with captures := (step first.captures).2 })
      (.ok (change (step first.captures).1),
        { second with captures := (other second.captures).2 }) :=
    .succeeded _ ⟨pair.twin, pair.sound, level, pair.imports⟩
  rw [← same] at named
  exact named

end Matches

/-- A node is found in both sessions, or missing in both. -/
theorem Alike.formOf {rest : Form → Conversion Final} {next : Form → Conversion Last}
    (pair : lockstep.Pair first second) {slot : Slot}
    (late : ∀ form, first.arena.form? slot = some form →
      lockstep.Matches changeLast (rest form) (next (lockstep.twinning.shift.form form))) :
    lockstep.Alike changeLast ((Conversion.formOf slot >>= rest) first)
      ((Conversion.formOf (lockstep.twinning.shift.slot slot) >>= next) second) := by
  have found := pair.twin.form? slot
  cases isForm : first.arena.form? slot with
  | none =>
      rw [isForm] at found
      rw [bind_of_missing isForm, bind_of_missing found]
      exact .failed _ _ first second
  | some form =>
      rw [isForm] at found
      rw [bind_of_succeeds (succeeds_formOf.mpr ⟨isForm, rfl⟩),
        bind_of_succeeds (succeeds_formOf.mpr ⟨found, rfl⟩)]
      exact late form isForm first second pair

theorem Matches.refuse (slot : Slot) (form : Form) :
    lockstep.Matches change (Conversion.refuse slot form)
      (Conversion.refuse (lockstep.twinning.shift.slot slot)
        (lockstep.twinning.shift.form form)) :=
  .get fun _ _ _ => .throw _ _

theorem Matches.nameOf (slot : Slot) :
    lockstep.Matches id (Conversion.nameOf slot)
      (Conversion.nameOf (lockstep.twinning.shift.slot slot)) := by
  refine fun first second pair => .formOf pair fun form _ => ?_
  cases form with
  | identifier text => exact .pure text rfl
  | _ => exact .refuse slot _

/-- What may be absent is converted like any other slot where it is there. -/
theorem Matches.optional {child other : Slot → Conversion Lowered} {slot : Slot} :
    lockstep.Matches lockstep.rewording.lowered (child slot)
        (other (lockstep.twinning.shift.slot slot)) →
      lockstep.Matches (Option.map lockstep.rewording.expr)
        (match slot with
          | none => return none
          | some _ => do
              let lowered ← child slot
              return some lowered.expr : Conversion (Option Expr))
        (match lockstep.twinning.shift.slot slot with
          | none => return none
          | some _ => do
              let lowered ← other (lockstep.twinning.shift.slot slot)
              return some lowered.expr : Conversion (Option Expr)) := by
  intro alike
  cases slot with
  | none => exact .pure none rfl
  | some node => exact alike.bind fun _ => .pure _ rfl

end

/-! ## Operators -/

section

variable {setting : Setting} {first second : Session}

/-- The site of the first session. -/
abbrev siteOf (setting : Setting) (session : Session) : Site :=
  ⟨setting.model, session.arena, setting.options⟩

variable (knowsOnly : setting.model.KnowsOnly lockstep.twinning.tree)
variable (pair : lockstep.Pair first second)

include knowsOnly pair

theorem operands_operand (path : Path) (parent : Step) (slot : Slot) (type : ExprType)
    (lowered : Lowered) :
    lockstep.rewording.Operands
      ((siteOf setting first).operand path parent slot type lowered)
      ((siteOf setting second).operand (lockstep.twinning.shift.path path)
        (lockstep.twinning.shift.step parent) (lockstep.twinning.shift.slot slot) type
        (lockstep.rewording.lowered lowered)) where
  expr := rfl
  mayBeNull := by
    simp only [Site.operand, Site.mayBeNull, Rewording.lowered,
      knownNullability?_shift pair.twin pair.sound]
  isReusable := isSafelyReusable_shift pair.twin pair.sound knowsOnly slot

theorem carries_lowerBinary (path : Path) (parent : Step) (leftType rightType : ExprType)
    (target : Target.BinaryOperator) (left right : Lowered) :
    lockstep.rewording.Carries lockstep.rewording.lowered
      ((siteOf setting first).lowerBinary path parent leftType rightType
        (.binary left.expr target right.expr) left right)
      ((siteOf setting second).lowerBinary (lockstep.twinning.shift.path path)
        (lockstep.twinning.shift.step parent) leftType rightType
        (.binary (lockstep.rewording.expr left.expr) target
          (lockstep.rewording.expr right.expr))
        (lockstep.rewording.lowered left) (lockstep.rewording.lowered right)) := by
  unfold Site.lowerBinary
  rw [Shift.step, pair.twin.binary?]
  cases first.arena.binary? parent.effective with
  | none => exact .pure _ rfl
  | some parts =>
      obtain ⟨leftSlot, operator, rightSlot⟩ := parts
      dsimp only [Option.map_some]
      refine .ite rfl (fun _ => ?_) fun _ => .pure _ rfl
      have lefts := operands_operand knowsOnly pair path parent leftSlot leftType left
      have rights := operands_operand knowsOnly pair path parent rightSlot rightType right
      refine .ite ?_ (fun _ => ?_) fun _ => .pure _ rfl
      · exact congrArg₂ or lefts.mayBeNull rights.mayBeNull
      · rw [canConvertToBoolean_shift pair.twin pair.sound knowsOnly]
        refine Rewording.carries_restate lefts rights ?_ _ operator target
        exact Rewording.agreesOn_of_casts (fun _ _ => rfl) rfl
          (isPure_shift pair.twin pair.sound knowsOnly rightSlot)

theorem collapseCondition_shift (condition : Slot) (lowered : Lowered) :
    collapseCondition setting.model second.arena
        (lockstep.twinning.shift.slot condition) (lockstep.rewording.lowered lowered) =
      lockstep.rewording.expr
        (collapseCondition setting.model first.arena condition lowered) := by
  unfold collapseCondition
  dsimp only
  rw [typeOf_standsFor_shift pair.twin pair.sound knowsOnly, apply_ite lockstep.rewording.expr,
    Rewording.equalsTrue]
  rfl

theorem convertUnaryOperator_shift (operator : UnaryOperator) (operand : Slot) :
    convertUnaryOperator setting.model second.arena operator
        (lockstep.twinning.shift.slot operand) =
      convertUnaryOperator setting.model first.arena operator operand := by
  unfold convertUnaryOperator
  rw [typeOf_standsFor_shift pair.twin pair.sound knowsOnly]

omit knowsOnly in
theorem comparedWithNothing?_shift (left right : Slot) :
    comparedWithNothing? second.arena (lockstep.twinning.shift.slot left)
        (lockstep.twinning.shift.slot right) =
      (comparedWithNothing? first.arena left right).map lockstep.twinning.shift.slot := by
  unfold comparedWithNothing?
  rw [pair.twin.skipParens pair.sound, pair.twin.skipParens pair.sound,
    pair.twin.isNothing, pair.twin.isNothing]
  split
  · rfl
  · split <;> rfl

end

/-! ## Forms -/

section

variable {setting : Setting} {child other : Slot → Conversion Lowered}
variable {grandchild otherGrandchild : Step → Slot → Conversion Lowered}
variable {path : Path} {here : Step} {ready : Slot → Prop}
variable (knowsOnly : setting.model.KnowsOnly lockstep.twinning.tree)
variable (each : ∀ slot, ready slot → lockstep.Matches lockstep.rewording.lowered
  (child slot) (other (lockstep.twinning.shift.slot slot)))

include knowsOnly each

theorem matches_convertBinary {left right : Slot} (operator : BinaryOperator)
    (isReady : ∀ slot ∈ [left, right], ready slot) :
    lockstep.Matches lockstep.rewording.lowered
      (convertBinary setting child path here left operator right)
      (convertBinary setting other (lockstep.twinning.shift.path path)
        (lockstep.twinning.shift.step here) (lockstep.twinning.shift.slot left) operator
        (lockstep.twinning.shift.slot right)) := by
  refine .get fun first second pair => ?_
  have plainly : lockstep.Matches lockstep.rewording.lowered
      (do
        let loweredLeft ← child left
        let loweredRight ← child right
        let unchanged :=
          Expr.binary loweredLeft.expr (convertOperator operator) loweredRight.expr
        if setting.options.lowerNullableLogic && isRestated operator then
          let arena := (← get).arena
          let site : Site := ⟨setting.model, arena, setting.options⟩
          let typeOf (slot : Slot) := setting.model.typeOf (arena.standsFor slot)
          Conversion.naming
            (site.lowerBinary path here (typeOf left) (typeOf right) unchanged
              loweredLeft loweredRight)
        else
          return .plain unchanged)
      (do
        let loweredLeft ← other (lockstep.twinning.shift.slot left)
        let loweredRight ← other (lockstep.twinning.shift.slot right)
        let unchanged :=
          Expr.binary loweredLeft.expr (convertOperator operator) loweredRight.expr
        if setting.options.lowerNullableLogic && isRestated operator then
          let arena := (← get).arena
          let site : Site := ⟨setting.model, arena, setting.options⟩
          let typeOf (slot : Slot) := setting.model.typeOf (arena.standsFor slot)
          Conversion.naming
            (site.lowerBinary (lockstep.twinning.shift.path path)
              (lockstep.twinning.shift.step here)
              (typeOf (lockstep.twinning.shift.slot left))
              (typeOf (lockstep.twinning.shift.slot right)) unchanged
              loweredLeft loweredRight)
        else
          return .plain unchanged) := by
    refine (each left (isReady _ (by simp))).bind fun loweredLeft =>
      (each right (isReady _ (by simp))).bind fun loweredRight => ?_
    refine .ite rfl (fun _ => .get fun first second pair => .naming ?_) fun _ => .pure _ rfl
    dsimp only
    rw [typeOf_standsFor_shift pair.twin pair.sound knowsOnly,
      typeOf_standsFor_shift pair.twin pair.sound knowsOnly]
    exact carries_lowerBinary knowsOnly pair path here _ _ _ loweredLeft loweredRight
  dsimp only
  rw [comparedWithNothing?_shift pair]
  cases isPattern : nothingPattern? operator with
  | none => exact plainly
  | some pattern =>
      cases compared : comparedWithNothing? first.arena left right with
      | none => exact plainly
      | some operand =>
          refine (each operand (isReady _ (comparedWithNothing?_mem compared))).bind
            fun lowered => .pure _ ?_
          have same := rename_nothing isPattern
            (lockstep.captures.respell lockstep.others)
          exact congrArg (fun pattern => Lowered.proven (.test _ pattern)) same.symm

variable (eachDeep : ∀ field slot, ready slot → lockstep.Matches lockstep.rewording.lowered
    (grandchild field slot)
    (otherGrandchild (lockstep.twinning.shift.step field)
      (lockstep.twinning.shift.slot slot)))
  (enters : ∀ field form first second, ready field → lockstep.Pair first second →
    first.arena.form? field = some form → ∀ child ∈ form.slots, ready child)

include eachDeep enters

omit knowsOnly each in
theorem matches_convertField {field : Slot} (isReady : ready field) :
    lockstep.Matches (Prod.map id lockstep.rewording.expr) (convertField grandchild field)
      (convertField otherGrandchild (lockstep.twinning.shift.slot field)) := by
  refine fun first second pair => .formOf pair fun form found => ?_
  have below := enters field form first second isReady pair found
  cases form with
  | namedField name value =>
      exact (eachDeep (.unchanged field) value (below _ (by simp [Form.slots]))).bind
        fun _ => (Matches.nameOf name).bind fun _ => .pure _ rfl
  | inferredField value =>
      exact (eachDeep (.unchanged field) value (below _ (by simp [Form.slots]))).bind
        fun _ => .pure _ rfl
  | _ => exact .refuse field _

variable (here ready) in
/-- A node is converted to the same, whatever its form. -/
theorem matches_convertForm {form : Form} (isReady : ∀ slot ∈ form.slots, ready slot)
    (named : ∀ text, form = .identifier text → ¬ lockstep.captures.Makes text) :
    lockstep.Matches lockstep.rewording.lowered
      (convertForm setting child grandchild path here form)
      (convertForm setting other otherGrandchild (lockstep.twinning.shift.path path)
        (lockstep.twinning.shift.step here) (lockstep.twinning.shift.form form)) := by
  have eachSlot (slot : Slot) (isSlot : slot ∈ form.slots) :=
    each slot (isReady slot isSlot)
  have exprs (results : List Lowered) :
      (results.map lockstep.rewording.lowered).map (·.expr) =
        (results.map (·.expr)).map lockstep.rewording.expr := by
    rw [List.map_map, List.map_map]
    rfl
  cases form with
  | identifier text =>
      refine .pure _ ?_
      have same := CaptureNames.respell_of_not_makes lockstep.others (named text rfl)
      exact congrArg (fun text => Lowered.plain (.identifier text)) same.symm
  | literal value =>
      refine .pure _ ?_
      cases value <;> rfl
  | selfReference kind => cases kind <;> exact .pure _ rfl
  | parenthesized inner => exact eachSlot inner (by simp [Form.slots])
  | memberAccess receiver name kind =>
      refine (eachSlot receiver (by simp [Form.slots])).bind
        fun _ => (Matches.nameOf name).bind fun _ => ?_
      cases kind <;> exact .pure _ rfl
  | conditionalAccess receiver name =>
      exact (eachSlot receiver (by simp [Form.slots])).bind
        fun _ => (Matches.nameOf name).bind fun _ => .pure _ rfl
  | invocation callee arguments =>
      refine (eachSlot callee (by simp [Form.slots])).bind fun called =>
        (Matches.mapM fun argument passed =>
          eachSlot argument (by simp [Form.slots, passed])).bind fun results => .pure _ ?_
      rw [exprs]
      exact congrArg (fun arguments => Lowered.plain (.call _ arguments))
        (Expr.renameAmong_eq_map _ _).symm
  | namedArgument name value =>
      exact (eachSlot value (by simp [Form.slots])).bind
        fun _ => (Matches.nameOf name).bind fun _ => .pure _ rfl
  | objectCreation typeName arguments =>
      refine (Matches.mapM fun argument passed =>
        eachSlot argument (by simp [Form.slots, passed])).bind fun results => .pure _ ?_
      rw [exprs]
      exact congrArg (fun arguments => Lowered.proven (.new typeName arguments))
        (Expr.renameAmong_eq_map _ _).symm
  | anonymousObject initializers =>
      refine (Matches.mapM fun field isField => matches_convertField eachDeep enters
        (isReady field (by simp [Form.slots, isField]))).bind fun fields => .pure _ ?_
      exact congrArg (fun fields => Lowered.proven (.anonymousObject fields))
        (Expr.renameInFields_eq_map _ _).symm
  | unary operator operand =>
      refine (eachSlot operand (by simp [Form.slots])).bind
        fun _ => .get fun first second pair => ?_
      rw [convertUnaryOperator_shift knowsOnly pair]
      exact .pure _ rfl
  | typeTest operand typeName negated =>
      refine (eachSlot operand (by simp [Form.slots])).bind fun _ => .pure _ ?_
      cases negated <;> rfl
  | ternary condition whenTrue whenFalse =>
      refine (eachSlot condition (by simp [Form.slots])).bind
        fun lowered => .get fun first second pair => ?_
      dsimp only
      rw [collapseCondition_shift knowsOnly pair]
      exact (eachSlot whenTrue (by simp [Form.slots])).bind fun _ =>
        (eachSlot whenFalse (by simp [Form.slots])).bind fun _ => .pure _ rfl
  | binary left operator right => exact matches_convertBinary knowsOnly each operator isReady
  | _ => exact .refuse here.effective _

end

/-! ## Slots, statements and requests -/

section

variable {setting : Setting}

theorem Pair.request {first second : Session} (pair : lockstep.Pair first second)
    (name : Option String) : lockstep.Pair (first.request name) (second.request name) where
  twin := by
    rw [arena_request, arena_request]
    exact pair.twin
  sound := by
    rw [arena_request]
    exact pair.sound
  level := by
    rw [captures_request, captures_request]
    exact pair.level
  imports := by
    cases name with
    | none => exact pair.imports
    | some name =>
        rw [Session.request, Session.request, Session.addImport, Session.addImport,
          pair.imports]
        by_cases isAsked : first.imports.contains name = true
        · have isAskedThere := List.contains_iff_mem.mpr
            (mem_importsWith lockstep.asked (List.contains_iff_mem.mp isAsked))
          rw [if_pos isAsked, if_pos isAskedThere]
          exact pair.imports
        · rw [if_neg isAsked]
          dsimp only
          rw [importsWith_append, Session.addImport]
          split
          · exact pair.imports
          · rfl

variable (isNames : setting.expander = names)
variable (wellFormed : WellFormed setting.model lockstep.twinning.tree)
variable (knowsOnly : setting.model.KnowsOnly lockstep.twinning.tree)
variable (known : ∀ text ∈ sourceNames setting.model lockstep.twinning.tree,
  lockstep.twinning.known text)

include isNames wellFormed knowsOnly known

/-- The same is decided in both sessions. -/
theorem Pair.settleAt {first second : Session} (pair : lockstep.Pair first second)
    (path : Path) {qualify : Bool} {slot : Slot}
    (isParsed : qualify = true → IsParsed lockstep.twinning.tree slot)
    (held : first.arena.holds slot = true) :
    let decided := Lowering.settleAt setting path qualify slot first
    let other := Lowering.settleAt setting (lockstep.twinning.shift.path path) qualify
      (lockstep.twinning.shift.slot slot) second
    other.1 = decided.1.move lockstep.twinning.shift ∧
      lockstep.Pair decided.2 other.2 := by
  have soundAfter := ((handsDown_names isNames wellFormed).settles path qualify slot first
    isParsed ⟨pair.twin.grows, pair.sound⟩ held).2.1.2
  unfold Lowering.settleAt at soundAfter ⊢
  split
  · next asked =>
      have heldThere := (isParsed (Bool.and_eq_true_iff.mp asked).1).holds held
      have alike := alike_decision wellFormed known heldThere pair.twin pair.sound knowsOnly
        path
      rw [if_pos asked, isNames] at soundAfter
      dsimp only at soundAfter ⊢
      rw [arena_request] at soundAfter
      rw [isNames, slot_of_held heldThere]
      refine ⟨alike.1, ?_⟩
      have sameImport : (settledOn slot (names.decision setting.model
          (lockstep.twinning.shift.path path) slot second.arena).1).staticImport =
          (settledOn slot
            (names.decision setting.model path slot first.arena).1).staticImport := by
        rw [alike.1]
        cases (names.decision setting.model path slot first.arena).1 <;> rfl
      rw [sameImport]
      have made : lockstep.Pair
          { first with arena := (names.decision setting.model path slot first.arena).2 }
          { second with
            arena := (names.decision setting.model (lockstep.twinning.shift.path path) slot
              second.arena).2 } :=
        ⟨alike.2, soundAfter, pair.level, pair.imports⟩
      exact made.request _
  · exact ⟨rfl, pair⟩

variable (apart : ∀ text, lockstep.twinning.known text → ¬ lockstep.captures.Makes text)

include apart

/-- A slot is converted to the same. -/
theorem matches_convertSlot (levels : Nat) (path : Path) (qualify : Bool) (slot : Slot)
    (isParsed : qualify = true → IsParsed lockstep.twinning.tree slot) :
    lockstep.Matches lockstep.rewording.lowered
      (convertSlot setting levels path qualify slot)
      (convertSlot setting levels (lockstep.twinning.shift.path path) qualify
        (lockstep.twinning.shift.slot slot)) := by
  induction levels using Nat.strongRecOn generalizing path qualify slot with
  | ind levels ih =>
  have handsDown := handsDown_names isNames wellFormed
  unfold convertSlot
  intro first second pair
  rw [bind_of_succeeds (succeeds_get.mpr ⟨rfl, rfl⟩),
    bind_of_succeeds (succeeds_get.mpr ⟨rfl, rfl⟩)]
  dsimp only
  rw [pair.twin.holds]
  cases held : first.arena.holds slot with
  | false => exact .failed _ _ _ _
  | true =>
  cases levels with
  | zero => exact .failed _ _ _ _
  | succ levels =>
      obtain ⟨sameDecision, settled⟩ :=
        pair.settleAt isNames wellFormed knowsOnly known path isParsed held
      obtain ⟨-, -, below⟩ := handsDown.settles path qualify slot first isParsed
        ⟨pair.twin.grows, pair.sound⟩ held
      simp only [if_true]
      rw [bind_of_succeeds (succeeds_settle.mpr ⟨rfl, rfl⟩),
        bind_of_succeeds (succeeds_settle.mpr ⟨rfl, rfl⟩)]
      dsimp only
      generalize Lowering.settleAt setting path qualify slot first = decided at *
      generalize Lowering.settleAt setting _ qualify _ second = other at *
      have sameNode : (settledOn (lockstep.twinning.shift.slot slot) other.1).node =
          lockstep.twinning.shift.slot (settledOn slot decided.1).node := by
        rw [sameDecision]
        cases decided.1 <;> rfl
      have goesOnAlike : goesOn other.1 = goesOn decided.1 := by
        rw [sameDecision]
        cases decided.1 <;> rfl
      rw [sameNode, goesOnAlike]
      refine .formOf settled fun form found => ?_
      refine matches_convertForm ⟨slot, (settledOn slot decided.1).node⟩
        (fun slot => goesOn decided.1 = true → IsParsed lockstep.twinning.tree slot) knowsOnly
        (ih levels (Nat.lt_succ_self levels) _ _) (fun field slot isReady => ?_)
        (fun field form first second isReady pair found =>
          handsDown.enters _ field form first.arena isReady
            ⟨pair.twin.grows, pair.sound⟩ found)
        (below form found) fun text isName => ?_
      · cases levels with
        | zero => exact ih 0 (Nat.lt_succ_self 0) _ _ slot isReady
        | succ levels =>
            exact ih levels (Nat.lt_succ_of_lt (Nat.lt_succ_self levels)) _ _ slot isReady
      · refine apart text (settled.twin.named (settledOn slot decided.1).node text ?_)
        rw [Arena.nameText?, found, isName]

/-- A statement of the tree is converted to the same. -/
theorem matches_convertStatement {statement : Slot}
    (isParsed : IsParsed lockstep.twinning.tree statement) :
    lockstep.Matches (Statement.rename (lockstep.captures.respell lockstep.others))
      (convertStatement setting statement)
      (convertStatement setting (lockstep.twinning.shift.slot statement)) := by
  have each (slot : Slot) (isParsed : IsParsed lockstep.twinning.tree slot) :=
    matches_convertSlot isNames wellFormed knowsOnly known apart (depthLimit - 1)
      [.unchanged statement] true slot fun _ => isParsed
  have samePath : lockstep.twinning.shift.path [.unchanged statement] =
      [.unchanged (lockstep.twinning.shift.slot statement)] := rfl
  rw [samePath] at each
  unfold convertStatement
  -- The limit is a number, which would be unfolded.
  generalize depthLimit - 1 = levels at each ⊢
  refine fun first second pair => .formOf pair fun form found => ?_
  have below := isParsed_slots wellFormed.sound
    ((isParsed.form?_eq pair.twin.grows).symm.trans found)
  cases form with
  | conditionStatement kind condition =>
      refine (each condition (below _ (by simp [Form.slots]))).bind
        fun lowered => .get fun first second pair => ?_
      dsimp only
      rw [collapseCondition_shift knowsOnly pair]
      cases kind <;> exact .pure _ rfl
  | returnStatement value =>
      exact (each value (below _ (by simp [Form.slots]))).optional.bind
        fun _ => .pure _ rfl
  | localDeclaration name initializer =>
      exact (each initializer (below _ (by simp [Form.slots]))).optional.bind
        fun _ => .pure _ rfl
  | assignment target value =>
      exact (each target (below _ (by simp [Form.slots]))).bind fun _ =>
        (each value (below _ (by simp [Form.slots]))).bind fun _ => .pure _ rfl
  | expressionStatement expression =>
      exact (each expression (below _ (by simp [Form.slots]))).bind
        fun _ => .pure _ rfl
  | _ => exact .get fun _ _ _ => .throw _ _

/-- A request for a part of the tree is answered in the same way. -/
theorem matches_convert {request : Request}
    (isParsed : IsParsed lockstep.twinning.tree request.slot) :
    lockstep.Matches (Output.rename (lockstep.captures.respell lockstep.others))
      (request.convert setting) (request.convert setting) := by
  have stays := slot_of_tree isParsed
  cases request with
  | statement slot =>
      have converted := matches_convertStatement isNames wellFormed knowsOnly known apart
        isParsed
      rw [stays] at converted
      rw [Request.convert, map_eq_pure_bind]
      exact converted.bind fun _ => .pure _ rfl
  | expression slot =>
      have converted := matches_convertSlot isNames wellFormed knowsOnly known apart
        depthLimit [] true slot fun _ => isParsed
      rw [show lockstep.twinning.shift.slot slot = slot from stays,
        show lockstep.twinning.shift.path [] = [] from rfl] at converted
      rw [Request.convert, map_eq_pure_bind]
      exact converted.bind fun _ => .pure _ rfl

end

end Lockstep

end BasicLowering.Lowering
