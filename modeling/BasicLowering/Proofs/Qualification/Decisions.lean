import BasicLowering.Proofs.Qualification.FullNames
import BasicLowering.Proofs.Qualification.ImplicitReceiver

/-!
# Decisions about parsed nodes

All that the rule for names can decide about a parsed node, together with what it
builds for that. Whoever relies on a decision goes through these cases and need
not look at the rule again.
-/

namespace BasicLowering.Qualification

open Source Binding Analysis

/-- Whether a slot is absent or holds a parsed node. -/
def IsParsed (parsed : Arena) (slot : Slot) : Prop :=
  ∀ node, slot = some node → parsed.holds (some node) = true

section

variable {parsed before : Arena} {slot : Slot}

theorem isParsed_of_holds (held : parsed.holds slot = true) :
    IsParsed parsed slot := by
  rintro node rfl
  exact held

theorem IsParsed.holds (isParsed : IsParsed parsed slot)
    (held : before.holds slot = true) : parsed.holds slot = true := by
  cases slot with
  | none => cases held
  | some node => exact isParsed node rfl

theorem IsParsed.form?_eq (isParsed : IsParsed parsed slot)
    (grows : parsed.Grows before) : before.form? slot = parsed.form? slot := by
  cases slot with
  | none => rfl
  | some node => exact grows.form?_eq (isParsed node rfl)

theorem IsParsed.standsFor_eq (isParsed : IsParsed parsed slot)
    (grows : parsed.Grows before) (soundParsed : parsed.Sound) :
    before.standsFor slot = parsed.standsFor slot := by
  cases slot with
  | none =>
      rw [Arena.standsFor_of_parsed rfl, Arena.standsFor_of_parsed rfl]
  | some node => exact grows.standsFor_eq soundParsed (isParsed node rfl)

/-- The slots of a parsed node are absent or parsed nodes. -/
theorem isParsed_slots (sound : parsed.Sound) {form : Form}
    (found : parsed.form? slot = some form) :
    ∀ child ∈ form.slots, IsParsed parsed child := by
  rintro _ isSlot node rfl
  exact sound.children slot form found node
    (List.mem_filterMap.mpr ⟨_, isSlot, rfl⟩)

end

/-! ## The cases of a decision -/

section

variable {model : Model} {arena : Arena} {path : Path} {slot : Slot}

variable (model path)

/-- The decision about an eager operator. -/
theorem decision_operator (isEager : isEagerLogical arena slot = true) :
    names.decision model path slot arena =
      let made := shortCircuit? model path slot arena
      (match made.1 with
        | some changed => .replaceAndEnter ⟨changed, none⟩
        | none => .keep, made.2) := by
  change (if isEagerLogical arena slot then _ else _ : Building Decision) arena =
    _
  rw [if_pos isEager, Building.run_bind]
  dsimp only
  cases (shortCircuit? model path slot arena).1 <;> rfl

/-- The decision about any other node. -/
theorem decision_other (noOperator : isEagerLogical arena slot = false) :
    names.decision model path slot arena =
      if expandsNode model arena path slot then
        let made := expand model path slot arena
        (.replace made.1, made.2)
      else if expandsWithin model arena path slot then (.keep, arena)
      else (.skip, arena) := by
  change (if isEagerLogical arena slot then _ else _ : Building Decision) arena =
    _
  rw [noOperator, if_neg Bool.false_ne_true]
  change (if expandsNode model arena path slot then _ else _ :
    Building Decision) arena = _
  split
  · rfl
  · split <;> rfl

end

/-- Whether parsed nodes and the receivers that the front end attaches to them are
all there, and lead nowhere in a circle. -/
structure WellFormed (model : Model) (parsed : Arena) : Prop where
  sound : parsed.Sound
  receivers : ∀ slot receiver member,
    model.operation? slot = some (.memberReference (some receiver) member) →
      parsed.holds receiver = true

/-- Whether an access reads a bare name of an instance member from `Me`, or from the
receiver that the front end has attached. The trivia of the name come before those of
the receiver. -/
structure ReadsImplicitly (model : Model) (parsed : Arena) (slot : Slot)
    (before after : Arena) (access : Slot) : Prop
    extends Builds before after access where
  replaces : ∃ text receiver trivia, parsed.nameText? slot = some text ∧
    TakesPlace before after slot receiver text access ∧
    TriviaInFront after receiver (before.trivia slot ++ trivia) ∧
    (IsAddedMe parsed after receiver ∧ trivia = "" ∨
      ∃ attached member,
        attachedReceiver? model parsed slot = some (attached, member) ∧
          IsReceiver before after slot attached receiver ∧
          TriviaInFront before attached trivia)

/-- The names and the receivers alone. -/
theorem ReadsImplicitly.reads {model : Model} {parsed before after : Arena}
    {slot access : Slot} (reads : ReadsImplicitly model parsed slot before after access) :
    ∃ text receiver, parsed.nameText? slot = some text ∧
      AccessInPlace after slot receiver text access ∧
      (IsAddedMe parsed after receiver ∨
        ∃ attached member,
          attachedReceiver? model parsed slot = some (attached, member) ∧
            IsReceiver before after slot attached receiver) := by
  obtain ⟨text, receiver, _, isName, takesPlace, -, from'⟩ := reads.replaces
  refine ⟨text, receiver, isName, takesPlace.inPlace, from'.imp And.left ?_⟩
  rintro ⟨attached, member, isAttached, isReceiver, -⟩
  exact ⟨attached, member, isAttached, isReceiver⟩

/-- Whether an access reads a member from the receiver that the front end has
attached to another access. -/
structure ReadsElsewhere (model : Model) (parsed : Arena) (slot : Slot)
    (before after : Arena) (access : Slot) : Prop
    extends Builds before after access where
  reads : ∃ receiver member symbol written name kind,
    parsed.form? slot = some (.memberAccess written name kind) ∧
    attachedReceiver? model parsed slot = some (receiver, member) ∧
    model.symbols.symbol? member = some symbol ∧
    AccessInPlace after slot receiver symbol.name access

/-- The import that a reference asks for. -/
def importOf (model : Model) (parsed : Arena) (slot : Slot) : Option String :=
  (model.symbol? (parsed.standsFor slot)).bind (staticImport? model parsed slot)

/-- Whether a parsed slot holds a bare name, or an access that is qualified as a
whole. -/
def IsExpandable (model : Model) (parsed : Arena) (slot : Slot) : Prop :=
  parsed.isSimpleName slot = true ∨ isExpandableAccess model parsed slot = true

/-- Whether the rule may decide in this way about a node of a parsed arena that has
the given path above it. -/
inductive Decides (model : Model) (parsed : Arena) (path : Path) (slot : Slot)
    (before after : Arena) : Decision → Prop
  | keep (unchanged : after = before)
      (noName : isExpandableName before path slot = false)
      (noReceiver : hasInstanceReceiver before slot = false) :
      Decides model parsed path slot before after .keep
  | skip (unchanged : after = before)
      (hasReceiver : hasInstanceReceiver before slot = true) :
      Decides model parsed path slot before after .skip
  | shortCircuit {left right : Slot} {operator other : BinaryOperator}
      {changed : NodeId}
      (found : parsed.form? slot = some (.binary left operator right))
      (adds : before.Adds after changed (.binary left other right) slot) :
      Decides model parsed path slot before after
        (.replaceAndEnter ⟨some changed, none⟩)
  | implicit {symbol : Symbol} {access : Slot}
      (binds : model.symbol? (parsed.standsFor slot) = some symbol)
      (isMember : symbol.isInstanceMember = true)
      (reads : ReadsImplicitly model parsed slot before after access) :
      Decides model parsed path slot before after (.replace ⟨access, none⟩)
  | elsewhere {symbol : Symbol} {access : Slot}
      (binds : model.symbol? (parsed.standsFor slot) = some symbol)
      (isMember : symbol.isInstanceMember = true)
      (reads : ReadsElsewhere model parsed slot before after access) :
      Decides model parsed path slot before after (.replace ⟨access, none⟩)
  | asWritten (unchanged : after = before)
      (expands : IsExpandable model parsed slot)
      (isWrong : (model.symbol? (parsed.standsFor slot)).any
          Symbol.isGenericMethod = true ∨
        isAnonymousAccess model parsed slot = true) :
      Decides model parsed path slot before after
        (.replace ⟨slot, importOf model parsed slot⟩)
  | inFull {made : Slot} (expands : IsExpandable model parsed slot)
      (writes : BuildsWritten model parsed slot before (made, after)) :
      Decides model parsed path slot before after
        (.replace ⟨made, importOf model parsed slot⟩)

section

variable {model : Model} {parsed arena : Arena} {path : Path} {slot : Slot}
variable {symbol : Symbol} {text : String}

section

variable (wellFormed : WellFormed model parsed)
  (held : parsed.holds slot = true) (grows : parsed.Grows arena)
  (sound : arena.Sound)

include wellFormed held grows sound

omit sound in
theorem attachedReceiver?_eq :
    attachedReceiver? model arena slot = attachedReceiver? model parsed slot := by
  rw [attachedReceiver?, attachedReceiver?,
    grows.standsFor_eq wellFormed.sound held]

omit wellFormed held sound in
theorem hasInstanceReceiver_eq (soundParsed : parsed.Sound)
    (isParsed : IsParsed parsed slot) :
    hasInstanceReceiver arena slot = hasInstanceReceiver parsed slot := by
  unfold hasInstanceReceiver
  rw [isParsed.form?_eq grows]
  cases found : parsed.form? slot with
  | none => rfl
  | some form =>
      have below := isParsed_slots soundParsed found
      cases form with
      | memberAccess receiver name kind =>
          dsimp only
          rw [(below receiver (by simp [Form.slots])).form?_eq grows]
      | _ => rfl

omit sound in
theorem isPromoted_eq (symbol : Symbol) :
    isPromoted model arena slot symbol = isPromoted model parsed slot symbol := by
  unfold isPromoted
  rw [grows.form?_eq held]
  cases found : parsed.form? slot with
  | none => rfl
  | some form =>
      have below := isParsed_slots wellFormed.sound found
      cases form with
      | memberAccess receiver name kind =>
          cases receiver with
          | none => rfl
          | some node =>
              dsimp only
              rw [(below (some node) (by simp [Form.slots])).standsFor_eq grows
                wellFormed.sound]
      | _ => rfl

omit sound in
theorem isExpandableAccess_eq :
    isExpandableAccess model arena slot =
      isExpandableAccess model parsed slot := by
  unfold isExpandableAccess
  rw [hasInstanceReceiver_eq grows wellFormed.sound (isParsed_of_holds held),
    grows.form?_eq held, grows.standsFor_eq wellFormed.sound held]
  simp only [isPromoted_eq wellFormed held grows]

omit sound in
theorem isAnonymousAccess_eq :
    isAnonymousAccess model arena slot = isAnonymousAccess model parsed slot := by
  unfold isAnonymousAccess
  rw [grows.form?_eq held]
  cases found : parsed.form? slot with
  | none => rfl
  | some form =>
      have below := isParsed_slots wellFormed.sound found
      cases form with
      | memberAccess receiver name kind =>
          dsimp only
          rw [(below receiver (by simp [Form.slots])).standsFor_eq grows
            wellFormed.sound]
      | _ => rfl

omit held grows sound in
theorem holds_attachedReceiver {receiver : Slot} {member : SymbolId}
    (isAttached :
      attachedReceiver? model parsed slot = some (receiver, member)) :
    parsed.holds receiver = true := by
  unfold attachedReceiver? at isAttached
  split at isAttached
  · next isOperation =>
      cases isAttached
      exact wellFormed.receivers _ _ _ isOperation
  · cases isAttached

/-- A name gets an implicit receiver or is left alone. -/
theorem throughImplicitInstance?_cases (symbol : Symbol) (enclosing : TypeId)
    (isName : parsed.nameText? slot = some text) :
    throughImplicitInstance? model slot symbol enclosing arena = (none, arena) ∨
      ∃ access after,
        throughImplicitInstance? model slot symbol enclosing arena =
          (some access, after) ∧
        ReadsImplicitly model parsed slot arena after access := by
  have isNameNow := grows.nameText? isName
  have throughMe : ∃ access after,
      (accessThroughMe slot arena) = (access, after) ∧
        ReadsImplicitly model parsed slot arena after access := by
    obtain ⟨builds, receiver, isMe, inFront, takesPlace⟩ :=
      builds_accessThroughMe grows sound isNameNow
    rw [← String.append_empty (s := arena.trivia slot)] at inFront
    exact ⟨_, _, rfl, builds, text, receiver, "", isName, takesPlace, inFront,
      .inl ⟨isMe, rfl⟩⟩
  obtain ⟨access, after, isAccess, reads⟩ := throughMe
  unfold throughImplicitInstance?
  simp only [Building.run_bind, Building.run_get]
  split
  · refine .inr ⟨access, after, ?_, reads⟩
    simp [isAccess]
  · rw [attachedReceiver?_eq wellFormed held grows]
    cases isAttached : attachedReceiver? model parsed slot with
    | some attached =>
        obtain ⟨receiver, member⟩ := attached
        have heldReceiver := grows.holds
          (holds_attachedReceiver wellFormed isAttached)
        have copied := Building.isCopy_withPrependedTrivia arena receiver
          (arena.trivia slot)
        have isReceiver :=
          (isReceiver_withPrependedTrivia arena slot receiver).2
        obtain ⟨trivia, inFront⟩ := sound.exists_triviaInFront heldReceiver
        have inFrontCopy := inFront.withPrependedTrivia (arena.trivia slot)
        generalize isStep : Building.withPrependedTrivia receiver
          (arena.trivia slot) arena = step at copied isReceiver inFrontCopy
        obtain ⟨builds, takesPlace⟩ := builds_accessThrough (copied.sound sound)
          (copied.grows.nameText? isNameNow)
          fun _ _ => copied.holds heldReceiver
        refine .inr ⟨_, _, ?_, ⟨copied.grows.trans builds.grows, builds.sound,
          builds.held⟩, text, step.1, trivia, isName,
          takesPlace.ofEarlier copied.grows (grows.holds (holds_of_nameText? isName)),
          inFrontCopy.grow builds.grows, .inr ⟨receiver, member, isAttached,
            isReceiver.grow builds.grows, inFront⟩⟩
        simp [isStep]
    | none =>
        dsimp only
        split
        · refine .inr ⟨access, after, ?_, reads⟩
          simp [isAccess]
        · exact .inl rfl

/-- A promoted access is moved to the receiver that the front end has attached, or
left alone. -/
theorem throughAttachedReceiver?_cases (symbol : Symbol) :
    throughAttachedReceiver? model slot symbol arena = (none, arena) ∨
      ∃ access after,
        throughAttachedReceiver? model slot symbol arena = (some access, after) ∧
        symbol.isInstanceMember = true ∧
        ReadsElsewhere model parsed slot arena after access := by
  rw [throughAttachedReceiver?, Building.run_bind, Building.run_get]
  dsimp only
  rw [attachedReceiver?_eq wellFormed held grows]
  cases promoted : isPromoted model arena slot symbol with
  | false => exact .inl rfl
  | true =>
      have isAccess : ∃ written name kind,
          parsed.form? slot = some (.memberAccess written name kind) := by
        unfold isPromoted at promoted
        rw [← grows.form?_eq held]
        cases found : arena.form? slot with
        | none => simp [found] at promoted
        | some form => cases form <;> simp [found] at promoted ⊢
      obtain ⟨written, accessed, kind, found⟩ := isAccess
      have isMember := (Bool.and_eq_true_iff.mp promoted).1
      cases isAttached : attachedReceiver? model parsed slot with
      | none => exact .inl rfl
      | some attached =>
          obtain ⟨receiver, member⟩ := attached
          have heldReceiver := grows.holds
            (holds_attachedReceiver wellFormed isAttached)
          dsimp only
          cases known : model.symbols.symbol? member with
          | none => exact .inl rfl
          | some target =>
              have name := Building.adds_parsed arena (.identifier target.name)
              generalize isNamed : Building.identifier target.name arena = named
              have isParsed :
                  Building.parsed (.identifier target.name) arena = named :=
                isNamed
              rw [isParsed] at name
              have access := Building.adds_synthesize named.2 slot
                (.memberAccess receiver (some named.1) .simple)
              have soundNamed := name.sound_of_leaf sound rfl
              refine .inr ⟨_, _, by simp [isNamed], isMember,
                ⟨name.grows.trans access.grows, ?_, access.holds⟩, receiver,
                member, target, written, accessed, kind, found, isAttached, known,
                access.origin?, _, access.form?, access.grows.nameText?
                  (nameText?_of_form? name.form?)⟩
              refine access.sound soundNamed (forall_mem_children_access
                (fun _ _ => name.grows.holds heldReceiver) name.holds) ?_
              rintro origin rfl
              exact name.grows.holds (grows.holds held)

variable (path) in
/-- A reference stays as it is where a full name would be wrong, and is written out
otherwise. The step that writes it out has a name of its own here, which keeps
its depth closed. -/
theorem throughFullName_cases {writeOut : Building Slot}
    (expands : IsExpandable model parsed slot)
    (isWriteOut : fullNames model slot = writeOut) :
    let symbol := model.symbol? (parsed.standsFor slot)
    ∃ after node, throughFullName model slot symbol arena =
        (⟨node, importOf model parsed slot⟩, after) ∧
      Decides model parsed path slot arena after
        (.replace ⟨node, importOf model parsed slot⟩) := by
  intro symbol
  have sameName : arena.isSimpleName slot = parsed.isSimpleName slot := by
    rw [Arena.isSimpleName, grows.form?_eq held, Arena.isSimpleName]
  have sameImport : symbol.bind (staticImport? model arena slot) =
      importOf model parsed slot := by
    unfold importOf staticImport?
    rw [sameName]
  have writes : BuildsWritten model parsed slot arena (writeOut arena) :=
    isWriteOut ▸ written_fullNames wellFormed.sound held grows sound
  have sameAccess := isAnonymousAccess_eq wellFormed held grows
  unfold throughFullName
  rw [isWriteOut]
  by_cases wrong : (symbol.any Symbol.isGenericMethod ||
    isAnonymousAccess model arena slot) = true
  · refine ⟨arena, slot, ?_, .asWritten rfl expands ?_⟩
    · simp only [Building.run_bind, Building.run_get, wrong, ↓reduceIte,
        Building.run_pure, sameImport]
    · rwa [sameAccess, Bool.or_eq_true_iff] at wrong
  · refine ⟨(writeOut arena).2, (writeOut arena).1, ?_, .inFull expands writes⟩
    simp only [Building.run_bind, Building.run_get, wrong, Bool.false_eq_true,
      ↓reduceIte, Building.run_pure, sameImport]

variable (path) in
/-- What becomes of a reference that has no implicit receiver. -/
theorem withoutImplicit_cases (expands : IsExpandable model parsed slot)
    (binds : model.symbol? (parsed.standsFor slot) = some symbol) :
    let step : Building Expansion := do
      match ← throughAttachedReceiver? model slot symbol with
      | some access => return ⟨access, none⟩
      | none => throughFullName model slot (some symbol)
    ∃ after expansion, step arena = (expansion, after) ∧
      Decides model parsed path slot arena after (.replace expansion) := by
  obtain ⟨after, node, isFull, inFull⟩ :=
    throughFullName_cases path wellFormed held grows sound expands rfl
  rw [binds] at isFull
  dsimp only
  rw [Building.run_bind]
  obtain alone | ⟨access, later, isStep, isMember, reads⟩ :=
    throughAttachedReceiver?_cases wellFormed held grows sound symbol
  · rw [alone]
    exact ⟨after, _, isFull, inFull⟩
  · rw [isStep]
    exact ⟨later, _, rfl, .elsewhere binds isMember reads⟩

/-- Only a bare name of an instance member gets an implicit receiver. -/
theorem expandReference_cases (expands : IsExpandable model parsed slot)
    (binds : model.symbol? (parsed.standsFor slot) = some symbol) :
    ∃ after expansion,
      expandReference model path slot symbol arena = (expansion, after) ∧
        Decides model parsed path slot arena after (.replace expansion) := by
  have rest := withoutImplicit_cases path wellFormed held grows sound expands binds
  rw [expandReference, Building.run_bind, Building.run_get]
  dsimp only at rest ⊢
  cases isSimple : arena.isSimpleName slot with
  | false =>
      rw [if_neg Bool.false_ne_true, Building.run_bind, Building.run_pure]
      exact rest
  | true =>
      rw [if_pos rfl]
      cases isEnclosing : implicitInstance? model arena path slot symbol with
      | none =>
          dsimp only
          rw [Building.run_bind, Building.run_pure]
          exact rest
      | some enclosing =>
          have isMember : symbol.isInstanceMember = true := by
            unfold implicitInstance? at isEnclosing
            split at isEnclosing
            · next both => exact (Bool.and_eq_true_iff.mp both).1
            · cases isEnclosing
          rw [Arena.isSimpleName, grows.form?_eq held] at isSimple
          obtain ⟨form, found, isName⟩ :=
            (Option.any_eq_true _ _).mp isSimple
          cases form <;> cases isName
          dsimp only
          rw [Building.run_bind]
          obtain alone | ⟨access, after, isStep, reads⟩ :=
            throughImplicitInstance?_cases wellFormed held grows sound symbol
              enclosing (nameText?_of_form? found)
          · rw [alone]
            exact rest
          · rw [isStep]
            exact ⟨after, _, rfl, .implicit binds isMember reads⟩

variable (path) in
/-- All that becomes of a node that is expanded. -/
theorem expand_cases (expands : IsExpandable model parsed slot)
    (noOperator : isEagerLogical arena slot = false) :
    ∃ after expansion, expand model path slot arena = (expansion, after) ∧
      Decides model parsed path slot arena after (.replace expansion) := by
  obtain ⟨after, node, isFull, inFull⟩ :=
    throughFullName_cases path wellFormed held grows sound expands rfl
  rw [expand, Building.run_bind, Building.run_get]
  dsimp only
  rw [noOperator, if_neg Bool.false_ne_true,
    grows.standsFor_eq wellFormed.sound held]
  cases binds : model.symbol? (parsed.standsFor slot) with
  | none =>
      rw [binds] at isFull
      exact ⟨after, _, isFull, inFull⟩
  | some symbol =>
      exact expandReference_cases wellFormed held grows sound expands binds

variable (model path) in
omit wellFormed sound in
/-- Only the operator changes. -/
theorem shortCircuit?_cases :
    shortCircuit? model path slot arena = (none, arena) ∨
      ∃ changed after, shortCircuit? model path slot arena =
          (some (some changed), after) ∧
        Decides model parsed path slot arena after
          (.replaceAndEnter ⟨some changed, none⟩) := by
  rw [shortCircuit?, Building.run_bind, Building.run_get]
  dsimp only
  cases isBinary : arena.binary? slot with
  | none => exact .inl rfl
  | some parts =>
      obtain ⟨left, operator, right⟩ := parts
      dsimp only
      cases operator.shortCircuitForm? with
      | none => exact .inl rfl
      | some other =>
          dsimp only
          split
          · have found : parsed.form? slot =
                some (.binary left operator right) := by
              rw [← grows.form?_eq held]
              unfold Arena.binary? at isBinary
              split at isBinary
              · next found =>
                  cases isBinary
                  exact found
              · cases isBinary
            exact .inr ⟨_, _, rfl, .shortCircuit found
              (Building.adds_synthesize arena slot (.binary left other right))⟩
          · exact .inl rfl

end

/-- Whether a slot holds an operator. -/
theorem binary?_of_isEagerLogical
    (isEager : isEagerLogical arena slot = true) :
    ∃ left operator right,
      arena.form? slot = some (.binary left operator right) := by
  unfold isEagerLogical Arena.binary? at isEager
  split at isEager
  · next same =>
      split at same
      · next left operator right found => exact ⟨left, operator, right, found⟩
      · cases same
  · cases isEager

/-- All that can be decided about a parsed node. -/
theorem decides_names (wellFormed : WellFormed model parsed)
    (held : parsed.holds slot = true) (grows : parsed.Grows arena)
    (sound : arena.Sound) :
    Decides model parsed path slot arena
      (names.decision model path slot arena).2
      (names.decision model path slot arena).1 := by
  cases isEager : isEagerLogical arena slot with
  | true =>
      obtain ⟨left, operator, right, found⟩ := binary?_of_isEagerLogical isEager
      obtain alone | ⟨changed, after, isStep, decides⟩ :=
        shortCircuit?_cases model path held grows
      · rw [decision_operator _ _ isEager, alone]
        refine .keep rfl ?_ ?_
        · simp [isExpandableName, Arena.isSimpleName, found, Form.isSimpleName]
        · simp [hasInstanceReceiver, found]
      · rw [decision_operator _ _ isEager, isStep]
        exact decides
  | false =>
      rw [decision_other _ _ isEager]
      split
      · next expands =>
          have isExpandable : IsExpandable model parsed slot := by
            rw [expandsNode, isEager, Bool.or_false, Bool.or_eq_true_iff,
              isExpandableAccess_eq wellFormed held grows] at expands
            refine expands.imp_left fun isName => ?_
            have isSimple := (Bool.and_eq_true_iff.mp isName).1
            rwa [Arena.isSimpleName, grows.form?_eq held] at isSimple
          obtain ⟨after, expansion, isStep, decides⟩ :=
            expand_cases path wellFormed held grows sound isExpandable isEager
          rw [isStep]
          exact decides
      · next kept =>
          have noName : isExpandableName arena path slot = false := by
            simp_all [expandsNode]
          rw [expandsWithin, Bool.eq_false_of_not_eq_true kept, Bool.not_false,
            Bool.true_and]
          cases hasReceiver : hasInstanceReceiver arena slot with
          | true => exact .skip rfl hasReceiver
          | false => exact .keep rfl noName hasReceiver

end

end BasicLowering.Qualification
