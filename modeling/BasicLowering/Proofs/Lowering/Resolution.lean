import BasicLowering.Proofs.Lowering.Collection
import BasicLowering.Proofs.Lowering.Descent
import BasicLowering.Proofs.Qualification.Modules

/-!
# Resolution of module members

A shared member of a module is read through the name of the module, or it is read by
its bare name and the module is imported. There are a few places to which the rule for
names does not come; these are told apart by what lies above them.
-/

namespace BasicLowering.Target.Expr

/-- The parts of a name that an expression spells with dots between them. -/
def spelled? : Expr → Option (List String)
  | identifier text => some [text]
  | member receiver name => receiver.spelled?.map (· ++ [name])
  | _ => none

end BasicLowering.Target.Expr

namespace BasicLowering.Lowering

open Source Binding Qualification
open Target (Expr)

/-! ## Places that are out of reach -/

/-- Whether the names below a node are left alone where an expression is written out in
full. -/
def isUnsearched : Form → Bool
  | .objectCreation _ _ | .anonymousObject _ | .typeTest _ _ _ => true
  | .namedField _ _ | .inferredField _ => true
  | form => form.isStatement

/-- Whether an expression on a path is qualified as a whole. -/
def IsQualifiedAbove (model : Model) (parsed : Arena) (path : Path) : Prop :=
  ∃ step ∈ path, isExpandableAccess model parsed step.referent = true

/-- Whether a path goes below a node under which no name is decided about: an access on
`Me`, `MyBase`, `MyClass` or a new object, the receiver that the front end has attached
to a reference, an access for which a full name would be wrong, or a part of an
expression that is left alone where the expression is written out in full. -/
inductive OutOfReach (model : Model) (parsed arena : Arena) : Path → Prop
  | onInstance {step : Step} {path : Path}
      (hasReceiver : hasInstanceReceiver parsed step.referent = true) :
      OutOfReach model parsed arena (step :: path)
  | attached {step : Step} {path : Path}
      (isMoved : step.effective ≠ step.referent)
      (isMember : (model.symbol? (parsed.standsFor step.referent)).any
        Symbol.isInstanceMember = true)
      (hasAttached :
        (attachedReceiver? model parsed step.referent).isSome = true) :
      OutOfReach model parsed arena (step :: path)
  | asWritten {step : Step} {path : Path}
      (expands : isExpandableAccess model parsed step.referent = true)
      (isWrong : (model.symbol? (parsed.standsFor step.referent)).any
          Symbol.isGenericMethod = true ∨
        isAnonymousAccess model parsed step.referent = true) :
      OutOfReach model parsed arena (step :: path)
  | unsearched {step : Step} {path : Path} {form : Form}
      (within : IsQualifiedAbove model parsed path)
      (found : arena.form? step.effective = some form)
      (isUnsearched : isUnsearched form = true) :
      OutOfReach model parsed arena (step :: path)
  | further {step : Step} {path : Path}
      (above : OutOfReach model parsed arena path) :
      OutOfReach model parsed arena (step :: path)

/-- Whether a node at the end of a path may stay as it is: it is the value after which a
field of an anonymous object is named, or out of reach. -/
def IsExempt (model : Model) (parsed arena : Arena) (path : Path) : Prop :=
  (∃ parent value, path.head? = some parent ∧
    arena.form? parent.effective = some (.inferredField value)) ∨
  OutOfReach model parsed arena path

/-- Whether an expression reads a name through the name of a module, or by itself where
the module is imported. -/
def Resolves (imports : List String) (module text : String) (expr : Expr) : Prop :=
  (expr = .identifier text ∧ module ∈ imports) ∨
    ∃ receiver, expr = .member receiver text ∧
      receiver.spelled? = some (Text.Dotted.split module)

section

variable {model : Model} {parsed before after : Arena} {path : Path} {slot : Slot}

theorem OutOfReach.grow (above : OutOfReach model parsed before path)
    (grows : before.Grows after) : OutOfReach model parsed after path := by
  induction above with
  | onInstance hasReceiver => exact .onInstance hasReceiver
  | attached isMoved isMember hasAttached =>
      exact .attached isMoved isMember hasAttached
  | asWritten expands isWrong => exact .asWritten expands isWrong
  | unsearched within found isUnsearched =>
      exact .unsearched within (grows.form? found) isUnsearched
  | further _ ih => exact .further ih

theorem IsExempt.grow (exempt : IsExempt model parsed before path)
    (grows : before.Grows after) : IsExempt model parsed after path :=
  exempt.imp
    (fun ⟨parent, value, isParent, found⟩ =>
      ⟨parent, value, isParent, grows.form? found⟩)
    (·.grow grows)

/-! ## Places that are final -/

/-- Whether what is in a slot is not decided about any more: it is out of reach, or a
part of what has been written for an expression. -/
inductive IsFinal (model : Model) (parsed arena : Arena) (path : Path) : Slot → Prop
  | outOfReach {slot : Slot} (above : OutOfReach model parsed arena path) :
      IsFinal model parsed arena path slot
  | written {slot made : Slot}
      (isWritten : Written model parsed arena slot made)
      (within : IsQualifiedAbove model parsed path) :
      IsFinal model parsed arena path made
  | spelled {slot : Slot} {parts : List String}
      (isSpelled : Spells parsed arena slot parts) :
      IsFinal model parsed arena path slot
  | me {slot : Slot} (isMe : IsAddedMe parsed arena slot) :
      IsFinal model parsed arena path slot

theorem IsFinal.grow (final : IsFinal model parsed before path slot)
    (grows : before.Grows after) : IsFinal model parsed after path slot := by
  cases final with
  | outOfReach above => exact .outOfReach (above.grow grows)
  | written isWritten within => exact .written (isWritten.grow grows) within
  | spelled isSpelled => exact .spelled (isSpelled.grow grows)
  | me isMe => exact .me (isMe.grow grows)

theorem IsQualifiedAbove.below (within : IsQualifiedAbove model parsed path)
    (step : Step) : IsQualifiedAbove model parsed (step :: path) := by
  obtain ⟨other, isStep, expands⟩ := within
  exact ⟨other, List.mem_cons_of_mem _ isStep, expands⟩

theorem isUnsearched_withOperands (form : Form) (operands : List Slot) :
    isUnsearched (withOperands form operands) = isUnsearched form := by
  cases form <;> rfl

/-- The slots of a form over other operands are these. -/
theorem mem_of_valueSlots_withOperands {form : Form} {operands : List Slot}
    (searched : isUnsearched form = false)
    (sameLength : operands.length = (operandsOf form).length) {child : Slot}
    (isSlot : child ∈ valueSlots (withOperands form operands)) :
    child ∈ operands := by
  have operand (index : Nat) (inside : index < (operandsOf form).length) :
      operands[index]?.join ∈ operands := by
    rw [← sameLength] at inside
    rw [List.getElem?_eq_getElem inside, Option.join_some]
    exact List.getElem_mem inside
  cases form with
  | memberAccess | conditionalAccess | namedArgument | unary | parenthesized =>
      rw [List.mem_singleton.mp isSlot]
      exact operand 0 Nat.one_pos
  | binary | ternary =>
      simp only [valueSlots, withOperands, Form.slots, List.mem_cons,
        List.not_mem_nil, or_false] at isSlot
      rcases isSlot with rfl | rfl | rfl <;> exact operand _ (by simp [operandsOf])
  | invocation =>
      rcases List.mem_cons.mp isSlot with rfl | isArgument
      · exact operand 0 (Nat.succ_pos _)
      · exact List.mem_of_mem_tail isArgument
  | identifier | literal | selfReference => cases isSlot
  | _ => cases searched

/-- What is below a node that has been written out is written out as well, or it is left
alone. -/
theorem IsFinal.of_written {made : Slot} {form : Form} {step : Step}
    (isWritten : Written model parsed after slot made)
    (grows : parsed.Grows after) (isStep : step.effective = made)
    (found : after.form? made = some form)
    (within : parsed.isSimpleName slot = false →
      IsQualifiedAbove model parsed (step :: path))
    (unsearchedWithin : isUnsearched form = true →
      parsed.isSimpleName slot = false → IsQualifiedAbove model parsed path)
    {child : Slot} (isSlot : child ∈ valueSlots form) :
    IsFinal model parsed after (step :: path) child := by
  cases isWritten with
  | qualified _ _ isSpelled inPlace =>
      obtain ⟨-, _, isAccess, -⟩ := inPlace
      cases found.symm.trans isAccess
      rw [List.mem_singleton.mp isSlot]
      exact .spelled isSpelled
  | throughMe _ _ isMe inPlace =>
      obtain ⟨-, _, isAccess, -⟩ := inPlace
      cases found.symm.trans isAccess
      rw [List.mem_singleton.mp isSlot]
      exact .me isMe
  | bare isName _ =>
      cases found.symm.trans (grows.form? (Arena.form?_of_nameText? isName))
      cases isSlot
  | operator isForm notName sameLength written isCopy _ =>
      have noName : parsed.isSimpleName slot = false := by
        simp [Arena.isSimpleName, isForm, notName]
      cases found.symm.trans isCopy
      rw [isUnsearched_withOperands] at unsearchedWithin
      cases searched : isUnsearched _ with
      | true =>
          refine .outOfReach (.unsearched (unsearchedWithin searched noName)
            (isStep ▸ found) ?_)
          rw [isUnsearched_withOperands, searched]
      | false =>
          have isOperand :=
            mem_of_valueSlots_withOperands searched sameLength isSlot
          obtain ⟨operand, -, isPair⟩ := exists_zip_of_mem sameLength isOperand
          exact .written (written _ isPair) (within noName)
  | absent => cases found

/-- What is below a final node is final. -/
theorem IsFinal.child {form : Form} (final : IsFinal model parsed after path slot)
    (grows : parsed.Grows after) (found : after.form? slot = some form)
    {child : Slot} (isSlot : child ∈ valueSlots form) :
    IsFinal model parsed after (.unchanged slot :: path) child := by
  cases final with
  | outOfReach above => exact .outOfReach (.further above)
  | written isWritten within =>
      exact .of_written isWritten grows rfl found (fun _ => within.below _)
        (fun _ _ => within) isSlot
  | spelled isSpelled =>
      cases isSpelled with
      | name _ isName =>
          cases found.symm.trans (Arena.form?_of_nameText? isName)
          cases isSlot
      | access _ isAccess isReceiver _ =>
          cases found.symm.trans isAccess
          rw [List.mem_singleton.mp isSlot]
          exact .spelled isReceiver
  | me isMe =>
      cases found.symm.trans isMe.2
      cases isSlot

/-! ## Places that are reached -/

/-- Whether a slot is not the name of the argument or of the field around it. -/
def IsNoName (arena : Arena) (path : Path) (slot : Slot) : Prop :=
  ∀ parent ∈ path.head?, ∃ form, arena.form? parent.effective = some form ∧
    ∀ name value,
      form = .namedArgument name value ∨ form = .namedField name value →
        name ≠ slot

theorem IsNoName.grow (noName : IsNoName before path slot)
    (grows : before.Grows after) : IsNoName after path slot :=
  fun parent isParent =>
    have ⟨form, found, apart⟩ := noName parent isParent
    ⟨form, grows.form? found, apart⟩

/-- A bare name is decided about unless it is the value after which a field is
named. -/
theorem IsNoName.inferred (noName : IsNoName before path slot)
    (isName : before.isSimpleName slot = true)
    (notExpandable : isExpandableName before path slot = false) :
    ∃ parent value, path.head? = some parent ∧
      before.form? parent.effective = some (.inferredField value) := by
  rw [isExpandableName, isName, Bool.true_and] at notExpandable
  cases isParent : path.head? with
  | none => simp [isParent] at notExpandable
  | some parent =>
      obtain ⟨form, found, apart⟩ := noName parent isParent
      rw [isParent, Option.bind_some, found] at notExpandable
      cases form with
      | inferredField value => exact ⟨parent, value, rfl, found⟩
      | namedArgument name value =>
          exact absurd (by simpa using notExpandable)
            (apart name value (.inl rfl))
      | namedField name value =>
          exact absurd (by simpa using notExpandable)
            (apart name value (.inr rfl))
      | _ => cases notExpandable

/-- What is known about a slot that a conversion comes to. -/
structure IsReached (model : Model) (parsed : Arena) (path : Path)
    (qualify : Bool) (slot : Slot) (arena : Arena) : Prop where
  grows : parsed.Grows arena
  asked : qualify = true → IsParsed parsed slot ∧ IsNoName arena path slot
  final : qualify = false → IsFinal model parsed arena path slot

theorem IsReached.grow {qualify : Bool}
    (reached : IsReached model parsed path qualify slot before)
    (grows : before.Grows after) :
    IsReached model parsed path qualify slot after where
  grows := reached.grows.trans grows
  asked isAsked := (reached.asked isAsked).imp_right (·.grow grows)
  final isFinal := (reached.final isFinal).grow grows

/-- The slots of a parsed node are no names of it. -/
theorem isNoName_of_parsed {form : Form} (untouched : IsUntouched parsed)
    (found : parsed.form? slot = some form) (isThere : after.form? slot = some form)
    {child : Slot} (isSlot : child ∈ valueSlots form) :
    IsNoName after (.unchanged slot :: path) child := by
  rintro _ ⟨⟩
  refine ⟨form, isThere, ?_⟩
  rintro name value (rfl | rfl)
  · rw [List.mem_singleton.mp isSlot]
    exact untouched.apart slot name value (.inl found)
  · rw [List.mem_singleton.mp isSlot]
    exact untouched.apart slot name value (.inr found)

theorem IsReached.child {qualify : Bool} {form : Form}
    (reached : IsReached model parsed path qualify slot after)
    (soundParsed : parsed.Sound) (untouched : IsUntouched parsed)
    (found : after.form? slot = some form) {child : Slot}
    (isSlot : child ∈ valueSlots form) :
    IsReached model parsed (.unchanged slot :: path) qualify child after where
  grows := reached.grows
  asked isAsked := by
    have isForm := ((reached.asked isAsked).1.form?_eq reached.grows).symm.trans
      found
    exact ⟨isParsed_slots soundParsed isForm child
      (valueSlots_subset_slots _ isSlot),
      isNoName_of_parsed untouched isForm found isSlot⟩
  final isFinal := (reached.final isFinal).child reached.grows found isSlot

section

variable {setting : Setting} {qualify : Bool} {decision : Decision}

/-- What is below a node that replaces another one is final. -/
theorem isFinal_of_access {access receiver : Slot} {text : String} {form : Form}
    (inPlace : AccessInPlace after slot receiver text access)
    (found : after.form? access = some form)
    (final : IsFinal model parsed after (⟨slot, access⟩ :: path) receiver)
    {child : Slot} (isSlot : child ∈ valueSlots form) :
    IsFinal model parsed after (⟨slot, access⟩ :: path) child := by
  obtain ⟨-, _, isAccess, -⟩ := inPlace
  cases found.symm.trans isAccess
  rwa [List.mem_singleton.mp isSlot]

/-- What replaces a parsed node is another one. -/
theorem ne_of_inPlace {access receiver : Slot} {text : String}
    (untouched : IsUntouched parsed) (grows : parsed.Grows after)
    (held : parsed.holds slot = true)
    (inPlace : AccessInPlace after slot receiver text access) : access ≠ slot := by
  rintro rfl
  have isOrigin := inPlace.1
  rw [grows.origin?_eq held, untouched.original] at isOrigin
  cases isOrigin
  cases held

/-- Names and accesses are searched where they are written out. -/
theorem isSearched_of_isExpandable {made : Slot} {form : Form}
    (isWritten : Written model parsed after slot made)
    (expands : isExpandableAccess model parsed slot = true)
    (found : after.form? made = some form) : isUnsearched form = false := by
  have isAccess : ∃ receiver name, parsed.form? slot =
      some (.memberAccess receiver name .simple) := by
    unfold isExpandableAccess at expands
    split at expands
    · next receiver name isAccess => exact ⟨receiver, name, isAccess⟩
    · cases expands
  obtain ⟨receiver, name, isAccess⟩ := isAccess
  cases isWritten with
  | qualified isName | throughMe isName | bare isName =>
      cases isAccess.symm.trans (Arena.form?_of_nameText? isName)
  | operator isForm _ _ _ isCopy _ =>
      cases isAccess.symm.trans isForm
      cases found.symm.trans isCopy
      rfl
  | absent => cases found

/-- What is known about the slots of the node on which a conversion settles. -/
theorem Settles.isReached {form : Form}
    (settles : Settles setting parsed path qualify slot before after decision)
    (qualifies : setting.options.qualifyNames = true)
    (wellFormed : WellFormed setting.model parsed)
    (untouched : IsUntouched parsed)
    (reached : IsReached setting.model parsed path qualify slot before)
    (isParsed : qualify = true → parsed.holds slot = true)
    (found : after.form? (settledOn slot decision).node = some form)
    {child : Slot} (isSlot : child ∈ valueSlots form) :
    IsReached setting.model parsed
      (⟨slot, (settledOn slot decision).node⟩ :: path) (goesOn decision) child
      after := by
  have growsAfter := reached.grows.trans settles.grows
  have onward := settles.isParsed_onward wellFormed.sound reached.grows isParsed
  have finish (isLast : goesOn decision = false)
      (isFinal : IsFinal setting.model parsed after
        (⟨slot, (settledOn slot decision).node⟩ :: path) child) :
      IsReached setting.model parsed
        (⟨slot, (settledOn slot decision).node⟩ :: path) (goesOn decision) child
        after :=
    ⟨growsAfter, fun goes => absurd (isLast.symm.trans goes) Bool.false_ne_true,
      fun _ => isFinal⟩
  cases settles with
  | asItIs notAsked unchanged =>
      rw [qualifies, Bool.and_true] at notAsked
      subst unchanged
      exact finish rfl ((reached.final notAsked).child reached.grows found isSlot)
  | byRule isAsked decides =>
      subst isAsked
      have held := isParsed rfl
      cases decides with
      | keep unchanged =>
          subst unchanged
          exact reached.child wellFormed.sound untouched found isSlot
      | skip unchanged hasReceiver =>
          subst unchanged
          rw [hasInstanceReceiver_eq growsAfter wellFormed.sound
            (isParsed_of_holds held)] at hasReceiver
          exact finish rfl (.outOfReach (.onInstance hasReceiver))
      | shortCircuit isBinary adds =>
          refine ⟨growsAfter, fun _ => ⟨onward rfl found child
            (valueSlots_subset_slots _ isSlot), ?_⟩, nofun⟩
          rintro _ ⟨⟩
          exact ⟨_, adds.form?, by rintro _ _ (same | same) <;> cases same⟩
      | implicit binds isMember reads =>
          obtain ⟨text, receiver, isName, inPlace, from'⟩ := reads.reads
          refine finish rfl (isFinal_of_access inPlace found ?_ isSlot)
          obtain isMe | ⟨attached, member, isAttached, -⟩ := from'
          · exact .me isMe
          · exact .outOfReach (.attached
              (ne_of_inPlace untouched growsAfter held inPlace)
              (by simp [binds, isMember])
              (Option.isSome_iff_exists.mpr ⟨_, isAttached⟩))
      | elsewhere binds isMember reads =>
          obtain ⟨receiver, member, symbol, _, _, _, -, isAttached, -, inPlace⟩ :=
            reads.reads
          exact finish rfl (.outOfReach (.attached
            (ne_of_inPlace untouched growsAfter held inPlace)
            (by simp [binds, isMember])
            (Option.isSome_iff_exists.mpr ⟨_, isAttached⟩)))
      | asWritten unchanged expands isWrong =>
          subst unchanged
          obtain isSimple | expandsAccess := expands
          · replace found := (growsAfter.form?_eq held).symm.trans found
            rw [Arena.isSimpleName, found] at isSimple
            cases form <;> cases isSimple
            cases isSlot
          · exact finish rfl (.outOfReach (.asWritten expandsAccess isWrong))
      | inFull expands writes =>
          refine finish rfl (.of_written writes.written growsAfter rfl found
            (fun notName => ?_) (fun unsearched notName => ?_) isSlot)
          · have expandsAccess := expands.resolve_left (by simp [notName])
            exact ⟨_, List.mem_cons_self, expandsAccess⟩
          · have expandsAccess := expands.resolve_left (by simp [notName])
            rw [isSearched_of_isExpandable writes.written expandsAccess found]
              at unsearched
            cases unsearched

end

/-! ## Names that are come by -/

/-- Whether a name of a module member at a node resolves, if it is not exempt. -/
def NodeResolves (model : Model) (parsed arena : Arena) (imports : List String)
    (path : Path) (node : Slot) (expr : Expr) : Prop :=
  ∀ name text module, arena.standsFor node = name →
    parsed.nameText? name = some text →
    moduleOf? model parsed name = some module →
    ¬ IsExempt model parsed arena path → Resolves imports module text expr

section

variable {setting : Setting} {qualify : Bool} {decision : Decision}
variable {imports : List String} {lowered : Lowered}

theorem mem_request (session : Session) (name : String) :
    name ∈ (session.request (some name)).imports := by
  unfold Session.request Session.addImport
  dsimp only
  split
  · next known => exact List.contains_iff_mem.mp known
  · simp

/-- An import that is asked for is recorded. -/
theorem import_settleAt (qualifies : setting.options.qualifyNames = true)
    (session : Session) {name : String}
    (asksFor : (settledOn slot
      (settleAt setting path true slot session).1).staticImport = some name) :
    name ∈ (settleAt setting path true slot session).2.imports := by
  unfold settleAt at asksFor ⊢
  simp only [qualifies, Bool.and_self, if_true] at asksFor ⊢
  rw [asksFor]
  exact mem_request _ name

/-- What becomes of an access through a chain of names. -/
theorem FormRun.reads_access {child : Slot → Passage Lowered}
    {grandchild : Step → Slot → Passage Lowered} {here : Step} {form : Form}
    {issued : Nat} {session later : Session} {visits : List Visit}
    {access receiver : Slot} {text : String} {parts : List String}
    (run : FormRun setting child grandchild path here form issued session lowered
      later visits)
    (found : session.arena.form? access = some form)
    (inPlace : AccessInPlace session.arena slot receiver text access)
    (grows : session.arena.Grows later.arena)
    (spelled : ∀ {lowered later visits},
      child receiver session lowered later visits →
        lowered.expr.spelled? = some parts) :
    ∃ expr, lowered.expr = .member expr text ∧ expr.spelled? = some parts := by
  obtain ⟨-, name, isAccess, isName⟩ := inPlace
  cases found.symm.trans isAccess
  cases run with
  | memberAccess converted named =>
      cases named.symm.trans (grows.nameText? isName)
      exact ⟨_, rfl, spelled converted⟩

/-- What becomes of a chain of names. -/
theorem FormRun.spells {child : Slot → Passage Lowered}
    {grandchild : Step → Slot → Passage Lowered} {here : Step} {form : Form}
    {issued : Nat} {session later : Session} {visits : List Visit}
    {parts : List String}
    (run : FormRun setting child grandchild path here form issued session lowered
      later visits)
    (found : session.arena.form? slot = some form)
    (isSpelled : Spells parsed session.arena slot parts)
    (grows : session.arena.Grows later.arena)
    (spelled : ∀ {receiver parts lowered later visits},
      Spells parsed session.arena receiver parts →
        child receiver session lowered later visits →
          lowered.expr.spelled? = some parts) :
    lowered.expr.spelled? = some parts := by
  cases isSpelled with
  | name _ isName =>
      cases found.symm.trans (Arena.form?_of_nameText? isName)
      cases run with
      | identifier => rfl
  | access _ isAccess isReceiver isName =>
      cases found.symm.trans isAccess
      cases run with
      | memberAccess converted named =>
          cases named.symm.trans (grows.nameText? isName)
          simp [convertAccess, Lowered.plain, Expr.spelled?,
            spelled isReceiver converted]

/-- Where names are not qualified, nothing is decided. -/
theorem Settles.eq_skip
    (settles : Settles setting parsed path false slot before after decision) :
    decision = .skip := by
  cases settles with
  | asItIs => rfl
  | byRule isAsked => cases isAsked

/-- A name of a module member resolves at the node on which a conversion settles. -/
theorem Settles.nodeResolves {session later : Session} {form : Form} {issued : Nat}
    {below : List Visit} {child : Slot → Passage Lowered}
    {grandchild : Step → Slot → Passage Lowered}
    {after : Session}
    (isDecided : settleAt setting path qualify slot session = (decision, after))
    (settles : Settles setting parsed path qualify slot session.arena after.arena
      decision)
    (qualifies : setting.options.qualifyNames = true)
    (wellFormed : WellFormed setting.model parsed)
    (untouched : IsUntouched parsed)
    (reached : IsReached setting.model parsed path qualify slot session.arena)
    (isParsed : qualify = true → parsed.holds slot = true)
    (sound : after.arena.Sound)
    (found : after.arena.form? (settledOn slot decision).node = some form)
    (run : FormRun setting child grandchild path
      ⟨slot, (settledOn slot decision).node⟩ form issued after lowered later
      below)
    (growsLater : after.arena.Grows later.arena)
    (importsLater : after.imports ⊆ later.imports)
    (spelled : ∀ {receiver parts lowered later visits},
      goesOn decision = false → Spells parsed after.arena receiver parts →
        child receiver after lowered later visits →
          lowered.expr.spelled? = some parts) :
    NodeResolves setting.model parsed after.arena later.imports path
      (settledOn slot decision).node lowered.expr := by
  intro name text module standsFor isName inModule notExempt
  have onward := settles.grows
  have growsAfter := reached.grows.trans onward
  have throughModule {origin made : Slot} (isLast : goesOn decision = false)
      (isEffective : (settledOn slot decision).node = made)
      (isWritten : Written setting.model parsed after.arena origin made)
      (held : parsed.holds origin = true) :
      Resolves later.imports module text lowered.expr := by
    subst isEffective
    obtain rfl : origin = name :=
      (isWritten.standsFor_eq untouched growsAfter sound held).symm.trans standsFor
    obtain ⟨receiver, isSpelled, inPlace⟩ :=
      isWritten.throughModule isName inModule
    exact .inr (run.reads_access found inPlace growsLater
      (spelled isLast isSpelled))
  have notForm {form : Form} (isForm : parsed.form? slot = some form)
      (isSlot : name = slot) : form = .identifier text := by
    subst isSlot
    exact Option.some.inj
      (isForm.symm.trans (Arena.form?_of_nameText? isName))
  -- Either nothing is decided here any more, or the rule has a case for the node; it
  -- keeps or skips a node only where no name of a module stands.
  cases settles with
  | asItIs notAsked unchanged =>
      rw [qualifies, Bool.and_true] at notAsked
      cases (reached.final notAsked).grow onward with
      | outOfReach above => exact absurd (.inr above) notExempt
      | written isWritten _ =>
          exact throughModule rfl rfl isWritten
            (isWritten.holds_parsed (Arena.holds_of_form? found))
      | spelled isSpelled =>
          rw [← standsFor] at isName
          cases isSpelled with
          | name isNew _ => exact absurd isName isNew.not_isName
          | access isNew _ _ _ => exact absurd isName isNew.not_isName
      | me isMe =>
          rw [← standsFor] at isName
          exact absurd isName isMe.1.not_isName
  | byRule isAsked decides =>
      subst isAsked
      have held := isParsed rfl
      have standsForSlot := untouched.standsFor_eq growsAfter held
      have ofOrigin {made : Slot} (replaces : after.arena.origin? made = slot) :
          after.arena.standsFor made = slot :=
        untouched.standsFor_of_origin growsAfter sound held replaces
      cases decides with
      | keep unchanged noName _ =>
          obtain rfl : slot = name := standsForSlot.symm.trans standsFor
          obtain ⟨parent, value, isParent, isField⟩ :=
            (reached.asked rfl).2.inferred
              (by simp [Arena.isSimpleName, reached.grows.form?
                (Arena.form?_of_nameText? isName), Form.isSimpleName]) noName
          exact absurd (.inl ⟨parent, value, isParent,
            onward.form? isField⟩) notExempt
      | skip unchanged hasReceiver =>
          rw [hasInstanceReceiver_eq reached.grows wellFormed.sound
            (isParsed_of_holds held)] at hasReceiver
          have isAccess : ∃ receiver name kind,
              parsed.form? slot = some (.memberAccess receiver name kind) := by
            unfold hasInstanceReceiver at hasReceiver
            split at hasReceiver
            · next receiver name kind isAccess =>
                exact ⟨receiver, name, kind, isAccess⟩
            · cases hasReceiver
          obtain ⟨_, _, _, isAccess⟩ := isAccess
          cases notForm isAccess (standsFor.symm.trans standsForSlot)
      | shortCircuit isBinary adds =>
          cases notForm isBinary (standsFor.symm.trans (ofOrigin adds.origin?))
      | implicit binds isMember reads =>
          obtain ⟨_, _, _, inPlace, -⟩ := reads.reads
          obtain rfl : slot = name :=
            (ofOrigin inPlace.1).symm.trans standsFor
          rw [not_isInstanceMember_of_moduleOf? inModule binds] at isMember
          cases isMember
      | elsewhere _ _ reads =>
          obtain ⟨_, _, _, _, _, _, isAccess, -, -, inPlace⟩ := reads.reads
          cases notForm isAccess (standsFor.symm.trans (ofOrigin inPlace.1))
      | asWritten unchanged =>
          obtain rfl : slot = name := standsForSlot.symm.trans standsFor
          have isForm := Arena.form?_of_nameText? isName
          cases found.symm.trans (growsAfter.form? isForm)
          have isImport := importOf_of_moduleOf? inModule
            (by simp [Arena.isSimpleName, isForm, Form.isSimpleName])
          have asksFor : (settledOn slot
              (settleAt setting path true slot session).1).staticImport =
                some module := by
            rw [isDecided]
            exact isImport
          have recorded := import_settleAt qualifies session asksFor
          rw [isDecided] at recorded
          cases run with
          | identifier => exact .inl ⟨rfl, importsLater recorded⟩
      | inFull _ writes => exact throughModule rfl rfl writes.written held

end

/-- Whether a visit has been made in an arena of its own time, where the name at its node
resolves. -/
def Noted (model : Model) (parsed : Arena) (later : Session) (visit : Visit) :
    Prop :=
  ∃ arena, arena.Sound ∧ arena.Grows later.arena ∧
    arena.holds visit.here.effective = true ∧
    NodeResolves model parsed arena later.imports visit.path visit.here.effective
      visit.lowered.expr

/-- What is said about the visits between two sessions. -/
structure Notes (model : Model) (parsed : Arena) (session later : Session)
    (visits : List Visit) : Prop where
  grows : session.arena.Grows later.arena
  imports : session.imports ⊆ later.imports
  noted : ∀ visit ∈ visits, Noted model parsed later visit

theorem NodeResolves.mono {imports more : List String} {node : Slot} {expr : Expr}
    (resolves : NodeResolves model parsed after imports path node expr)
    (fewer : imports ⊆ more) :
    NodeResolves model parsed after more path node expr :=
  fun name text module standsFor isName inModule notExempt =>
    (resolves name text module standsFor isName inModule notExempt).imp_left
      fun bare => ⟨bare.1, fewer bare.2⟩

theorem Noted.onward {session later : Session} {visit : Visit}
    (noted : Noted model parsed session visit)
    (grows : session.arena.Grows later.arena)
    (imports : session.imports ⊆ later.imports) :
    Noted model parsed later visit := by
  obtain ⟨arena, sound, growsThere, held, resolves⟩ := noted
  exact ⟨arena, sound, growsThere.trans grows, held, resolves.mono imports⟩

theorem Notes.gathering (model : Model) (parsed : Arena) :
    Gathering (Notes model parsed) where
  nothing session :=
    ⟨.refl session.arena, List.Subset.refl _, List.forall_mem_nil _⟩
  append first second :=
    ⟨first.grows.trans second.grows,
      List.Subset.trans first.imports second.imports,
      List.forall_mem_append.mpr
        ⟨fun visit isVisit =>
          (first.noted visit isVisit).onward second.grows second.imports,
          second.noted⟩⟩
  renamed notes := ⟨notes.grows, notes.imports, notes.noted⟩

section

variable {setting : Setting} {qualify : Bool} {session later : Session}
variable {visits : List Visit}

theorem SlotRun.notes {levels : Nat} {lowered : Lowered}
    (run : SlotRun setting levels path qualify slot session lowered later visits)
    (isNames : setting.expander = names)
    (qualifies : setting.options.qualifyNames = true)
    (wellFormed : WellFormed setting.model parsed)
    (untouched : IsUntouched parsed) (sound : session.arena.Sound)
    (reached : IsReached setting.model parsed path qualify slot session.arena) :
    Notes setting.model parsed session later visits := by
  refine (run.nameInduction isNames wellFormed (IsReached setting.model parsed)
    (fun _ qualify slot session lowered later visits =>
      Notes setting.model parsed session later visits ∧
        (qualify = false → ∀ parts, Spells parsed session.arena slot parts →
          lowered.expr.spelled? = some parts))
    ?_ ?_ ?_ ?_ reached.grows sound (fun asked => (reached.asked asked).1)
    reached).1.1
  · exact fun _ _ _ _ _ reached grows => reached.grow grows
  · exact fun _ _ _ _ _ _ reached found isSlot =>
      reached.child wellFormed.sound untouched found isSlot
  · exact fun _ _ _ _ _ _ _ reached _ isParsed settles found _ isSlot =>
      settles.isReached qualifies wellFormed untouched reached isParsed found
        isSlot
  · intro path qualify slot session form issued lowered later below decided here
      passages reached held growsFrom sound isParsed settles found run growsLater
      soundLater
    have soundDecided := settles.sound wellFormed.sound growsFrom sound
    have notes := run.gather (Notes.gathering setting.model parsed)
      (fun _ _ _ _ _ passage => passage.1.1)
      (fun _ _ _ _ _ _ passage => passage.1.1)
    have early := (extends_settleAt settles.grows).imports.subset
    refine ⟨⟨settles.grows.trans growsLater,
      List.Subset.trans early notes.imports, ?_⟩, ?_⟩
    · rw [List.forall_mem_append, List.forall_mem_singleton]
      refine ⟨notes.noted, decided.2.arena, soundDecided, growsLater,
        Arena.holds_of_form? found, ?_⟩
      exact settles.nodeResolves rfl qualifies wellFormed untouched reached isParsed
        soundDecided found run growsLater notes.imports
        fun isLast isSpelled passage => passage.1.2 isLast _ isSpelled
    · rintro rfl parts isSpelled
      have isSkip := settles.eq_skip
      have isSlot : here.effective = slot := by
        simp only [here, isSkip, settledOn]
      refine run.spells (isSlot ▸ found) (isSpelled.grow settles.grows) growsLater
        fun isSpelled passage => passage.1.2 ?_ _ isSpelled
      rw [isSkip]
      rfl

end

end

/-! ## Requests -/

section

variable {setting : Setting} {parsed : Arena} {session later : Session}
variable {request : Request} {output : Output} {visits : List Visit}

theorem Request.Run.notes (run : request.Run setting session output later visits)
    (isNames : setting.expander = names)
    (qualifies : setting.options.qualifyNames = true)
    (wellFormed : WellFormed setting.model parsed)
    (untouched : IsUntouched parsed)
    (isParsed : parsed.holds request.slot = true)
    (grows : parsed.Grows session.arena) (sound : session.arena.Sound) :
    Notes setting.model parsed session later visits ∧ later.arena.Sound := by
  cases run with
  | expression run =>
      have known := isParsed_of_holds isParsed
      have reached : IsReached setting.model parsed [] true _ session.arena :=
        ⟨grows, fun _ => ⟨known, nofun⟩, nofun⟩
      exact ⟨run.notes isNames qualifies wellFormed untouched sound reached,
        (SlotRun.keeps isNames wellFormed _ _ run
          ⟨⟨grows, sound⟩, fun _ => known⟩).2.2⟩
  | statement run =>
      obtain ⟨form, found, run, -, soundLater⟩ :=
        run.handDown isNames wellFormed isParsed grows sound
      have isStatement : form.isStatement = true := by cases run <;> rfl
      refine ⟨run.gather (Notes.gathering setting.model parsed) ?_, soundLater⟩
      rintro slot session lowered later visits ⟨run, ⟨grows, sound⟩, isSlot, known⟩
      refine run.notes isNames qualifies wellFormed untouched sound
        ⟨grows, fun _ => ⟨known, ?_⟩, nofun⟩
      rintro _ ⟨⟩
      refine ⟨form, grows.form? found, ?_⟩
      rintro name value (rfl | rfl) <;> cases isStatement

/-- A name that refers to a shared member of a module comes out as an access through the
name of the module, or as a bare name, and then the module is imported. This holds of
all names at which a conversion comes by, but for the values after which fields of
anonymous objects are named, and for what is out of reach. -/
theorem Request.Run.module_members_resolve
    (run : request.Run setting session output later visits)
    (isNames : setting.expander = names)
    (qualifies : setting.options.qualifyNames = true)
    (wellFormed : WellFormed setting.model parsed)
    (untouched : IsUntouched parsed)
    (isParsed : parsed.holds request.slot = true)
    (grows : parsed.Grows session.arena) (sound : session.arena.Sound) :
    ∀ visit ∈ visits,
      NodeResolves setting.model parsed later.arena later.imports visit.path
        visit.here.effective visit.lowered.expr := by
  obtain ⟨notes, soundLater⟩ :=
    run.notes isNames qualifies wellFormed untouched isParsed grows sound
  intro visit isVisit name text module standsFor isName inModule notExempt
  obtain ⟨arena, soundThen, growsThen, held, resolves⟩ := notes.noted visit isVisit
  refine resolves name text module ?_ isName inModule
    fun exempt => notExempt (exempt.grow growsThen)
  rw [← standsFor, growsThen.standsFor_eq soundThen held]

end

/-! ## A module with a shared property -/

/-- A tree in which the first node refers to the property `Version` of the module
`App.Helpers`. -/
def versionOfHelpers (nodes : Array Node) : Setting × Session where
  fst :=
    { model :=
        { ({} : Model).bindSymbol (some ⟨0⟩) ⟨2⟩ with
          types := (TypeTable.standard.add "Helpers" .moduleType).2
          symbols := ⟨#[
            ⟨⟨0⟩, "App", .namespaceName, {}, none, none, none, none⟩,
            ⟨⟨1⟩, "Helpers", .namedType, {}, some ⟨0⟩, none, none, some ⟨6⟩⟩,
            ⟨⟨2⟩, "Version", .property, ⟨true, false, false, false⟩, some ⟨1⟩,
              some ⟨6⟩, none, none⟩]⟩ }
      expander := names }
  snd := { arena := { nodes } }

/-- `Return New With {Version}`: the field is named after its value, so the name is left
as it is, and the module is not imported. -/
theorem inferredField_unresolved :
    let (setting, session) := versionOfHelpers #[
      { form := .identifier "Version" },
      { form := .inferredField (some ⟨0⟩) },
      { form := .anonymousObject [some ⟨1⟩] },
      { form := .returnStatement (some ⟨2⟩) }]
    let answer := (Request.statement (some ⟨3⟩)).convert setting session
    setting.options.qualifyNames = true ∧
      moduleOf? setting.model session.arena (some ⟨0⟩) = some "App.Helpers" ∧
      answer.1.toOption.map Output.occurrences = some [.reads "Version"] ∧
      answer.2.imports = [] := by
  decide +kernel

/-- `Return Version` reads the property through the name of its module. -/
theorem version_resolves :
    let (setting, session) := versionOfHelpers #[
      { form := .identifier "Version" },
      { form := .returnStatement (some ⟨0⟩) }]
    ∃ output later visits,
      (Request.statement (some ⟨1⟩)).Run setting session output later visits ∧
      ∀ visit ∈ visits,
        NodeResolves setting.model session.arena later.arena later.imports
          visit.path visit.here.effective visit.lowered.expr := by
  let nodes : Array Node := #[
    { form := .identifier "Version" },
    { form := .returnStatement (some ⟨0⟩) }]
  have sound : (versionOfHelpers nodes).2.arena.Sound :=
    Arena.sound_of_earlier (by decide)
  have wellFormed : WellFormed (versionOfHelpers nodes).1.model
      (versionOfHelpers nodes).2.arena := by
    refine ⟨sound, fun slot receiver member known => ?_⟩
    have none : (versionOfHelpers nodes).1.model.operation? slot = none := by
      simp [versionOfHelpers, Model.operation?, Model.bindSymbol]
    cases none.symm.trans known
  have untouched : IsUntouched (versionOfHelpers nodes).2.arena :=
    isUntouched_of_nodes (by simp [versionOfHelpers, nodes])
      (by simp [versionOfHelpers, nodes])
  have answered : ((Request.statement (some ⟨1⟩)).convert
      (versionOfHelpers nodes).1 (versionOfHelpers nodes).2).1.toOption.isSome =
        true := by
    decide +kernel
  obtain ⟨output, later, converted⟩ := exists_succeeds answered
  obtain ⟨visits, run⟩ :=
    (Request.describes_convert (versionOfHelpers nodes).1 _ _ _ _).mp converted
  exact ⟨output, later, visits, run, run.module_members_resolve rfl rfl wellFormed
    untouched rfl (.refl _) sound⟩

end BasicLowering.Lowering
