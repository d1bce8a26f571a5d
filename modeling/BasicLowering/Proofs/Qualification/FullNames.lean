import BasicLowering.Proofs.Source.Trivia
import BasicLowering.Qualification.FullName

/-!
# What full names are made of

Writing out the names of an expression makes a tree beside the parsed one. Each name
becomes an access through the spelled name of its container, an access on `Me`, or
stays as it is; each other node stays as it is or is copied over its new operands.
The parsed nodes are left alone, and the arena stays sound.
-/

namespace BasicLowering.Qualification

open Source Binding

/-- Whether a step that has run has only added nodes, keeps the arena sound and
refers to a node of it. -/
structure Builds (before after : Arena) (made : Slot) : Prop where
  grows : before.Grows after
  sound : after.Sound
  held : after.holds made = true

/-! ## Accesses in place of names -/

/-- Whether a node reads a member of the given name from a receiver and replaces
the node in a slot. -/
def AccessInPlace (arena : Arena) (slot receiver : Slot) (text : String)
    (access : Slot) : Prop :=
  arena.origin? access = slot ∧ ∃ name,
    arena.form? access = some (.memberAccess receiver name .simple) ∧
      arena.nameText? name = some text

/-- Whether a new node takes the place of a bare name that is now read from a receiver.
It has the range of the name, and the name follows the receiver without its trivia. -/
def TakesPlace (before after : Arena) (slot receiver : Slot) (text : String)
    (access : Slot) : Prop :=
  before.holds access = false ∧ ∃ named name, before.node? slot = some named ∧
    after.node? access = some
      { span := named.span, origin := slot,
        form := .memberAccess receiver name .simple } ∧
    after.nameText? name = some text ∧ after.trivia name = ""

/-- Whether a slot holds a node that has been added and replaces no other one. -/
def IsNew (parsed arena : Arena) (slot : Slot) : Prop :=
  parsed.holds slot = false ∧ arena.origin? slot = none

/-- Whether a slot holds a new chain of accesses that spells the given parts. -/
inductive Spells (parsed arena : Arena) : Slot → List String → Prop
  | name {slot : Slot} {text : String} (isNew : IsNew parsed arena slot)
      (isName : arena.nameText? slot = some text) :
      Spells parsed arena slot [text]
  | access {slot receiver name : Slot} {parts : List String} {text : String}
      (isNew : IsNew parsed arena slot)
      (found :
        arena.form? slot = some (.memberAccess receiver name .simple))
      (spelled : Spells parsed arena receiver parts)
      (isName : arena.nameText? name = some text) :
      Spells parsed arena slot (parts ++ [text])

/-- Whether a slot holds a new `Me`. -/
def IsAddedMe (parsed arena : Arena) (slot : Slot) : Prop :=
  IsNew parsed arena slot ∧ arena.form? slot = some (.selfReference .me)

section

variable {parsed arena before after : Arena} {slot receiver access : Slot}
variable {text : String} {parts : List String}

theorem IsNew.grow (isNew : IsNew parsed before slot) (grows : before.Grows after)
    (held : before.holds slot = true) : IsNew parsed after slot :=
  ⟨isNew.1, (grows.origin?_eq held).trans isNew.2⟩

/-- What is added was not held before. -/
theorem not_holds_of_adds {added : NodeId} {form : Form} {origin : Slot}
    (grows : parsed.Grows before) (adds : before.Adds after added form origin) :
    parsed.holds (some added) = false := by
  refine Bool.eq_false_iff.mpr fun held => ?_
  cases adds.not_holds.symm.trans (grows.holds held)

theorem isNew_of_adds {added : NodeId} {form : Form} (grows : parsed.Grows before)
    (adds : before.Adds after added form none) : IsNew parsed after (some added) :=
  ⟨not_holds_of_adds grows adds, adds.origin?⟩

theorem IsAddedMe.grow (isMe : IsAddedMe parsed before slot)
    (grows : before.Grows after) : IsAddedMe parsed after slot :=
  ⟨isMe.1.grow grows (Arena.holds_of_form? isMe.2), grows.form? isMe.2⟩

theorem Spells.grow (spelled : Spells parsed before slot parts)
    (grows : before.Grows after) : Spells parsed after slot parts := by
  induction spelled with
  | name isNew isName =>
      exact .name (isNew.grow grows
        (Arena.holds_of_form? (Arena.form?_of_nameText? isName)))
        (grows.nameText? isName)
  | access isNew found _ isName ih =>
      exact .access (isNew.grow grows (Arena.holds_of_form? found))
        (grows.form? found) ih (grows.nameText? isName)

theorem AccessInPlace.grow (inPlace : AccessInPlace before slot receiver text access)
    (grows : before.Grows after) :
    AccessInPlace after slot receiver text access := by
  obtain ⟨isOrigin, name, found, isName⟩ := inPlace
  exact ⟨(grows.origin?_eq (Arena.holds_of_form? found)).trans isOrigin, name,
    grows.form? found, grows.nameText? isName⟩

theorem TakesPlace.inPlace (takesPlace : TakesPlace before after slot receiver text access) :
    AccessInPlace after slot receiver text access := by
  obtain ⟨-, named, name, -, isNode, isName, -⟩ := takesPlace
  refine ⟨?_, name, ?_, isName⟩
  · rw [Arena.origin?, isNode, Option.bind_some]
  · rw [Arena.form?, isNode, Option.map_some]

theorem TakesPlace.grow {later : Arena}
    (takesPlace : TakesPlace before after slot receiver text access)
    (grows : after.Grows later) : TakesPlace before later slot receiver text access := by
  obtain ⟨isAdded, named, name, wasNamed, isNode, isName, noTrivia⟩ := takesPlace
  have isThere := Arena.form?_of_nameText? isName
  obtain ⟨spelled, isSpelled, -⟩ := Option.map_eq_some_iff.mp isThere
  exact ⟨isAdded, named, name, wasNamed, grows _ _ isNode, grows.nameText? isName,
    (grows.trivia_eq isSpelled).trans noTrivia⟩

theorem ne_of_not_holds {held other : Slot} (isHeld : arena.holds held = true)
    (missing : arena.holds other = false) : other ≠ held := by
  rintro rfl
  rw [missing] at isHeld
  cases isHeld

theorem TakesPlace.ne_slot (takesPlace : TakesPlace before after slot receiver text access)
    (held : before.holds slot = true) : access ≠ slot :=
  ne_of_not_holds held takesPlace.1

/-- A name that was there earlier was the same. -/
theorem TakesPlace.ofEarlier
    (takesPlace : TakesPlace before after slot receiver text access)
    (grows : parsed.Grows before) (held : parsed.holds slot = true) :
    TakesPlace parsed after slot receiver text access := by
  obtain ⟨isAdded, named, name, wasNamed, rest⟩ := takesPlace
  obtain ⟨earlier, isEarlier⟩ := Arena.exists_node held
  cases wasNamed.symm.trans (grows _ _ isEarlier)
  refine ⟨Bool.eq_false_iff.mpr fun wasHeld => ?_, named, name, isEarlier, rest⟩
  rw [grows.holds wasHeld] at isAdded
  cases isAdded

theorem nameText?_of_form? (found : arena.form? slot = some (.identifier text)) :
    arena.nameText? slot = some text := by
  simp [Arena.nameText?, found]

theorem holds_of_nameText? (isName : arena.nameText? slot = some text) :
    arena.holds slot = true :=
  Arena.holds_of_form? (Arena.form?_of_nameText? isName)

/-- Children that are held or absent. -/
theorem forall_mem_children {form : Form}
    (held : ∀ slot ∈ form.slots, ∀ node, slot = some node →
      arena.holds slot = true) :
    ∀ child ∈ form.children, arena.holds (some child) = true := by
  intro child isChild
  obtain ⟨slot, isSlot, isSome⟩ := List.mem_filterMap.mp isChild
  obtain rfl : slot = some child := isSome
  exact held _ isSlot child rfl

theorem forall_mem_children_access {receiver name : Slot} {kind : AccessKind}
    (heldReceiver : ∀ node, receiver = some node → arena.holds receiver = true)
    (heldName : arena.holds name = true) :
    ∀ child ∈ (Form.memberAccess receiver name kind).children,
      arena.holds (some child) = true := by
  have held : ∀ slot ∈ [receiver, name], ∀ node, slot = some node →
      arena.holds slot = true :=
    List.forall_mem_cons.mpr ⟨heldReceiver, List.forall_mem_cons.mpr
      ⟨fun _ _ => heldName, List.forall_mem_nil _⟩⟩
  exact forall_mem_children held

/-- The trivia of a word that has just been added stand in front of it. -/
theorem triviaInFront_labelled (arena : Arena) (trivia : String) {form : Form}
    (isWord : form.leftmost = none) :
    TriviaInFront
      ((Building.parsed form arena).2.setTrivia
        (some (Building.parsed form arena).1) trivia)
      (some (Building.parsed form arena).1) trivia := by
  let word : Node := { span := ⟨arena.cursor, arena.cursor + 1⟩, trivia, form }
  have isNode : ((Building.parsed form arena).2.setTrivia
      (some (Building.parsed form arena).1) trivia).node?
      (some (Building.parsed form arena).1) = some word := by
    rw [Arena.node?_setTrivia, if_pos rfl, Building.parsed, Arena.node?_add_self]
    rfl
  exact .word isNode isWord

theorem builds_accessThrough (sound : arena.Sound)
    (isName : arena.nameText? slot = some text)
    (held : ∀ node, receiver = some node → arena.holds receiver = true) :
    let made := accessThrough receiver slot arena
    Builds arena made.2 made.1 ∧
      TakesPlace arena made.2 slot receiver text made.1 := by
  have copied := Building.isCopy_withoutTrivia arena slot
  have noTrivia := Building.trivia_withoutTrivia arena slot
  generalize made : Building.withoutTrivia slot arena = step at copied noTrivia
  have access := Building.adds_synthesize step.2 slot
    (.memberAccess receiver step.1 .simple)
  have built : accessThrough receiver slot arena =
      (some (Building.synthesize slot
          (.memberAccess receiver step.1 .simple) step.2).1,
        (Building.synthesize slot
          (.memberAccess receiver step.1 .simple) step.2).2) := by
    rw [← made]
    rfl
  rw [built]
  have heldName := copied.holds (holds_of_nameText? isName)
  have sameText : step.2.nameText? step.1 = some text := by
    rw [Arena.nameText?, copied.form?_eq]
    exact isName
  obtain ⟨named, isNamed⟩ := Arena.exists_node (holds_of_nameText? isName)
  obtain ⟨spelled, isSpelled⟩ := Arena.exists_node heldName
  refine ⟨⟨copied.grows.trans access.grows, ?_, access.holds⟩,
    not_holds_of_adds copied.grows access, named, step.1, isNamed,
    Building.node?_synthesize (copied.grows _ _ isNamed) _,
    access.grows.nameText? sameText, (access.grows.trivia_eq isSpelled).trans noTrivia⟩
  refine access.sound (copied.sound sound) (forall_mem_children_access ?_ heldName) ?_
  · exact fun node isSome => copied.grows.holds (held node isSome)
  · rintro other rfl
    exact copied.grows.holds (holds_of_nameText? isName)

theorem builds_accessThroughMe (grows : parsed.Grows arena) (sound : arena.Sound)
    (isName : arena.nameText? slot = some text) :
    let made := accessThroughMe slot arena
    Builds arena made.2 made.1 ∧ ∃ receiver,
      IsAddedMe parsed made.2 receiver ∧
        TriviaInFront made.2 receiver (arena.trivia slot) ∧
        TakesPlace arena made.2 slot receiver text made.1 := by
  let self := (Building.selfReference .me arena).1
  have added := (Building.adds_parsed arena (.selfReference .me)).setTrivia
    (arena.trivia slot)
  have inFront := triviaInFront_labelled arena (arena.trivia slot)
    (show (Form.selfReference .me).leftmost = none from rfl)
  have middleSound := added.sound_of_leaf sound rfl
  obtain ⟨built, access⟩ := builds_accessThrough middleSound
    (added.grows.nameText? isName) fun _ _ => added.holds
  have isMe : IsAddedMe parsed _ (some self) :=
    ⟨isNew_of_adds grows added, added.form?⟩
  exact ⟨⟨added.grows.trans built.grows, built.sound, built.held⟩, some self,
    isMe.grow built.grows, inFront.grow built.grows,
    access.ofEarlier added.grows (holds_of_nameText? isName)⟩

/-! ## Chains of names -/

theorem builds_link {chain : NodeId} {trivia : String} (growsTo : parsed.Grows arena)
    (sound : arena.Sound) (held : arena.holds (some chain) = true)
    (spelled : Spells parsed arena (some chain) parts)
    (inFront : TriviaInFront arena (some chain) trivia) (text : String) :
    let made := Building.memberAccess (some chain) text arena
    Builds arena made.2 (some made.1) ∧
      Spells parsed made.2 (some made.1) (parts ++ [text]) ∧
      TriviaInFront made.2 (some made.1) trivia := by
  have name := Building.adds_parsed arena (.identifier text)
  have access := Building.adds_parsed (Building.identifier text arena).2
    (.memberAccess (some chain) (some (Building.identifier text arena).1) .simple)
  have grows := name.grows.trans access.grows
  have isNew := isNew_of_adds (growsTo.trans name.grows) access
  refine ⟨⟨grows, ?_, access.holds⟩, .access isNew access.form?
    (spelled.grow grows) (access.grows.nameText? (nameText?_of_form? name.form?)), ?_⟩
  · refine access.sound (name.sound_of_leaf sound rfl)
      (forall_mem_children_access (fun _ _ => name.grows.holds held) name.holds) ?_
    rintro _ ⟨⟩
  · rw [← String.empty_append (s := trivia)]
    exact .before (Arena.node?_add_self _ _) rfl (inFront.grow grows)

theorem builds_links {chain : NodeId} {trivia : String} (more : List String)
    (growsTo : parsed.Grows arena) (sound : arena.Sound)
    (held : arena.holds (some chain) = true)
    (spelled : Spells parsed arena (some chain) parts)
    (inFront : TriviaInFront arena (some chain) trivia) :
    let made := more.foldlM (fun chain part =>
      Building.memberAccess (some chain) part) chain arena
    Builds arena made.2 (some made.1) ∧
      Spells parsed made.2 (some made.1) (parts ++ more) ∧
      TriviaInFront made.2 (some made.1) trivia := by
  induction more generalizing arena chain parts with
  | nil =>
      rw [List.append_nil]
      exact ⟨⟨.refl arena, sound, held⟩, spelled, inFront⟩
  | cons part more ih =>
      obtain ⟨first, spelledFirst, inFrontFirst⟩ :=
        builds_link growsTo sound held spelled inFront part
      obtain ⟨rest, spelledRest, inFrontRest⟩ := ih (growsTo.trans first.grows)
        first.sound first.held spelledFirst inFrontFirst
      rw [List.append_assoc] at spelledRest
      exact ⟨⟨first.grows.trans rest.grows, rest.sound, rest.held⟩,
        spelledRest, inFrontRest⟩

theorem builds_nameChain (growsTo : parsed.Grows arena) (sound : arena.Sound)
    (trivia : String) (parts : List String) :
    let made := nameChain trivia parts arena
    Builds arena made.2 made.1 ∧
      Spells parsed made.2 made.1 (parts.headD "" :: parts.tail) ∧
      TriviaInFront made.2 made.1 trivia := by
  have added := (Building.adds_parsed arena
    (.identifier (parts.headD ""))).setTrivia trivia
  obtain ⟨rest, spelled, inFront⟩ := builds_links parts.tail
    (growsTo.trans added.grows) (added.sound_of_leaf sound rfl) added.holds
    (.name (isNew_of_adds growsTo added) (nameText?_of_form? added.form?))
    (triviaInFront_labelled arena trivia rfl)
  exact ⟨⟨added.grows.trans rest.grows, rest.sound, rest.held⟩, spelled, inFront⟩

end

/-! ## Operands -/

/-- The slots of a form of which the names are written out. -/
def operandsOf : Form → List Slot
  | .memberAccess receiver _ _ | .conditionalAccess receiver _ => [receiver]
  | .invocation callee arguments => callee :: arguments
  | .namedArgument _ value => [value]
  | .binary left _ right => [left, right]
  | .unary _ operand => [operand]
  | .parenthesized inner => [inner]
  | .ternary condition whenTrue whenFalse => [condition, whenTrue, whenFalse]
  | _ => []

/-- The same form over other operands. -/
def withOperands (form : Form) (operands : List Slot) : Form :=
  let operand (index : Nat) : Slot := operands[index]?.join
  match form with
  | .memberAccess _ name kind => .memberAccess (operand 0) name kind
  | .conditionalAccess _ name => .conditionalAccess (operand 0) name
  | .invocation _ _ => .invocation (operand 0) operands.tail
  | .namedArgument name _ => .namedArgument name (operand 0)
  | .binary _ operator _ => .binary (operand 0) operator (operand 1)
  | .unary operator _ => .unary operator (operand 0)
  | .parenthesized _ => .parenthesized (operand 0)
  | .ternary _ _ _ => .ternary (operand 0) (operand 1) (operand 2)
  | form => form

theorem withOperands_operandsOf (form : Form) :
    withOperands form (operandsOf form) = form := by
  cases form <;> rfl

theorem operandsOf_withOperands {form : Form} {operands : List Slot}
    (sameLength : operands.length = (operandsOf form).length) :
    operandsOf (withOperands form operands) = operands := by
  match operands with
  | [] | [_] | [_, _] | [_, _, _] | _ :: _ :: _ :: _ :: _ =>
      cases form <;> first | rfl | cases sameLength

theorem isSimpleName_withOperands (form : Form) (operands : List Slot) :
    (withOperands form operands).isSimpleName = form.isSimpleName := by
  cases form <;> rfl

theorem mapOperands_eq (operand : Slot → Building Slot) (form : Form) :
    mapOperands operand form = do
      let operands ← (operandsOf form).mapM operand
      return withOperands form operands := by
  cases form <;> simp [mapOperands, operandsOf, withOperands]

/-! ## What becomes of a name -/

/-- The name of the container through which a name is read, if it is. -/
def qualifierOf? (model : Model) (arena : Arena) (slot : Slot) :
    Option String :=
  match model.symbol? (arena.standsFor slot) with
  | some symbol =>
      if needsContainer symbol then
        (symbol.containingSymbol.map model.symbols.qualifiedName).filter
          (· ≠ "")
      else none
  | none => none

/-- Whether a name is read from `Me`: it refers to an instance member of a known
type. -/
def isReadFromMe (model : Model) (arena : Arena) (slot : Slot) : Bool :=
  (model.symbol? (arena.standsFor slot)).any fun symbol =>
    symbol.isInstanceMember && symbol.containingType.isSome

/-- Whether a slot holds the receiver through which a name is written out: a new chain
that spells the container, or a new `Me`. -/
inductive StandsBefore (model : Model) (parsed arena : Arena) (slot : Slot) : Slot → Prop
  | container {receiver : Slot} {qualifier : String}
      (isQualifier : qualifierOf? model parsed slot = some qualifier)
      (spelled : Spells parsed arena receiver (Text.Dotted.split qualifier)) :
      StandsBefore model parsed arena slot receiver
  | me {receiver : Slot} (fromMe : isReadFromMe model parsed slot = true)
      (isMe : IsAddedMe parsed arena receiver) :
      StandsBefore model parsed arena slot receiver

/-- What stands in an arena for the nodes of a parsed one. Nothing is copied where
nothing below it has changed, and a copy has the range of the node and no trivia. -/
inductive Expands (model : Model) (parsed arena : Arena) : Slot → Slot → Prop
  | name {slot receiver access : Slot} {text : String}
      (isName : parsed.nameText? slot = some text)
      (standsBefore : StandsBefore model parsed arena slot receiver)
      (inFront : TriviaInFront arena receiver (parsed.trivia slot))
      (takesPlace : TakesPlace parsed arena slot receiver text access) :
      Expands model parsed arena slot access
  | bare {slot : Slot} {text : String}
      (isName : parsed.nameText? slot = some text)
      (noQualifier : qualifierOf? model parsed slot = none)
      (notFromMe : isReadFromMe model parsed slot = false) :
      Expands model parsed arena slot slot
  | same {slot : Slot} {form : Form} (found : parsed.form? slot = some form)
      (notName : form.isSimpleName = false)
      (below : ∀ operand ∈ operandsOf form,
        Expands model parsed arena operand operand) :
      Expands model parsed arena slot slot
  | copy {slot copied : Slot} {node : Node} {operands : List Slot}
      (isNode : parsed.node? slot = some node)
      (notName : node.form.isSimpleName = false)
      (sameLength : operands.length = (operandsOf node.form).length)
      (below : ∀ pair ∈ (operandsOf node.form).zip operands,
        Expands model parsed arena pair.1 pair.2)
      (changed : operands ≠ operandsOf node.form)
      (isAdded : parsed.holds copied = false)
      (isCopy : arena.node? copied = some
        { span := node.span, origin := slot,
          form := withOperands node.form operands }) :
      Expands model parsed arena slot copied
  | absent : Expands model parsed arena none none

/-- Whether a step has built what stands for a node of a parsed arena, and nothing where
that is the node. -/
structure BuildsExpanded (model : Model) (parsed : Arena) (slot : Slot)
    (before : Arena) (made : Slot × Arena) : Prop where
  grows : before.Grows made.2
  sound : made.2.Sound
  expands : Expands model parsed made.2 slot made.1
  unchanged : made.1 = slot → made.2 = before

section

variable {model : Model} {parsed before after arena : Arena}
variable {slot made receiver : Slot} {text : String}

theorem StandsBefore.grow (standsBefore : StandsBefore model parsed before slot receiver)
    (grows : before.Grows after) : StandsBefore model parsed after slot receiver := by
  cases standsBefore with
  | container isQualifier spelled => exact .container isQualifier (spelled.grow grows)
  | me fromMe isMe => exact .me fromMe (isMe.grow grows)

theorem Expands.grow (expands : Expands model parsed before slot made)
    (grows : before.Grows after) : Expands model parsed after slot made := by
  induction expands with
  | name isName standsBefore inFront takesPlace =>
      exact .name isName (standsBefore.grow grows) (inFront.grow grows)
        (takesPlace.grow grows)
  | bare isName noQualifier notFromMe => exact .bare isName noQualifier notFromMe
  | same found notName _ ih => exact .same found notName ih
  | copy isNode notName sameLength _ changed isAdded isCopy ih =>
      exact .copy isNode notName sameLength ih changed isAdded (grows _ _ isCopy)
  | absent => exact .absent

/-- What stands for no slot is none. -/
theorem Expands.eq_none (expands : Expands model parsed arena none made) :
    made = none := by
  cases expands with
  | name isName _ _ _ => cases isName
  | bare | same | absent => rfl
  | copy isNode _ _ _ _ _ _ => cases isNode

/-- What stands for a node is a node. -/
theorem Expands.holds (expands : Expands model parsed arena slot made)
    (held : parsed.holds slot = true) (grows : parsed.Grows arena) :
    arena.holds made = true := by
  cases expands with
  | name _ _ _ takesPlace =>
      obtain ⟨-, _, found, -⟩ := takesPlace.inPlace
      exact Arena.holds_of_form? found
  | bare | same => exact grows.holds held
  | copy _ _ _ _ _ _ isCopy => simp [Arena.holds, isCopy]
  | absent => cases held

theorem exists_zip_of_mem {operands copies : List Slot} {copy : Slot}
    (sameLength : copies.length = operands.length) (isCopy : copy ∈ copies) :
    ∃ operand ∈ operands, (operand, copy) ∈ operands.zip copies := by
  obtain ⟨index, inside, rfl⟩ := List.getElem_of_mem isCopy
  have insideOperands : index < operands.length := sameLength ▸ inside
  refine ⟨operands[index], List.getElem_mem _, ?_⟩
  rw [List.mem_iff_getElem]
  exact ⟨index, by simpa using ⟨insideOperands, inside⟩, by simp⟩

/-- What stands for the operands of a node is held where they are. -/
theorem holds_of_expands {operands copies : List Slot}
    (known : ∀ node, some node ∈ operands → parsed.holds (some node) = true)
    (sameLength : copies.length = operands.length)
    (below : ∀ pair ∈ operands.zip copies,
      Expands model parsed arena pair.1 pair.2)
    (grows : parsed.Grows arena) {copy : NodeId} (isCopy : some copy ∈ copies) :
    arena.holds (some copy) = true := by
  obtain ⟨operand, isOperand, isPair⟩ := exists_zip_of_mem sameLength isCopy
  have expands := below _ isPair
  cases operand with
  | none => cases expands.eq_none
  | some node => exact expands.holds (known node isOperand) grows

theorem headD_cons_tail {parts : List String} (isSome : parts ≠ []) :
    parts.headD "" :: parts.tail = parts := by
  cases parts with
  | nil => exact absurd rfl isSome
  | cons part more => rfl

/-- A member of an instance is not read through its container. -/
theorem needsContainer_of_isInstanceMember {symbol : Symbol}
    (isMember : symbol.isInstanceMember = true) : needsContainer symbol = false := by
  obtain ⟨notStatic, isMember⟩ := Bool.and_eq_true_iff.mp isMember
  replace notStatic : symbol.isStatic = false := by simpa using notStatic
  rw [needsContainer, notStatic, Bool.false_or]
  cases kind : symbol.kind <;> simp_all [Symbol.isMember]

/-- What is read from `Me` is not read through a container. -/
theorem qualifierOf?_eq_none (fromMe : isReadFromMe model arena slot = true) :
    qualifierOf? model arena slot = none := by
  obtain ⟨symbol, binds, both⟩ := (Option.any_eq_true _ _).mp fromMe
  have isMember := (Bool.and_eq_true_iff.mp both).1
  simp [qualifierOf?, binds, needsContainer_of_isInstanceMember isMember]

variable (grows : parsed.Grows arena) (sound : arena.Sound)
  (soundParsed : parsed.Sound)

include grows sound soundParsed

theorem expands_fullNameOf (isName : parsed.nameText? slot = some text) :
    BuildsExpanded model parsed slot arena (fullNameOf model slot arena) := by
  have held := holds_of_nameText? isName
  have isNameNow := grows.nameText? isName
  have standsFor := grows.standsFor_eq soundParsed held
  obtain ⟨named, isNamed⟩ := Arena.exists_node held
  have sameTrivia : arena.trivia slot = parsed.trivia slot := grows.trivia_eq isNamed
  have unchanged (noQualifier : qualifierOf? model parsed slot = none)
      (notFromMe : isReadFromMe model parsed slot = false) :
      BuildsExpanded model parsed slot arena (slot, arena) :=
    ⟨.refl arena, sound, .bare isName noQualifier notFromMe, fun _ => rfl⟩
  unfold fullNameOf
  simp only [Building.run_bind, Building.run_get, standsFor]
  cases binds : model.symbol? (parsed.standsFor slot) with
  | none =>
      exact unchanged (by simp [qualifierOf?, binds]) (by simp [isReadFromMe, binds])
  | some symbol =>
      dsimp only
      split
      · next needs =>
          have notFromMe : isReadFromMe model parsed slot = false := by
            cases isMember : symbol.isInstanceMember with
            | false => simp [isReadFromMe, binds, isMember]
            | true =>
                cases needs.symm.trans (needsContainer_of_isInstanceMember isMember)
          cases contained : symbol.containingSymbol with
          | none =>
              exact unchanged (by simp [qualifierOf?, binds, needs, contained])
                notFromMe
          | some container =>
              dsimp only
              split
              · next empty =>
                  exact unchanged
                    (by simp [qualifierOf?, binds, needs, contained, empty])
                    notFromMe
              · next notEmpty =>
                  have isQualifier : qualifierOf? model parsed slot =
                      some (model.symbols.qualifiedName container) := by
                    simp [qualifierOf?, binds, needs, contained, notEmpty]
                  obtain ⟨chain, spelled, inFront⟩ := builds_nameChain grows sound
                    (arena.trivia slot)
                    (Text.Dotted.split (model.symbols.qualifiedName container))
                  rw [headD_cons_tail (Text.Dotted.split_ne_nil _)] at spelled
                  rw [Building.run_bind]
                  generalize nameChain (arena.trivia slot) _ arena = named
                    at chain spelled inFront ⊢
                  obtain ⟨access, takesPlace⟩ := builds_accessThrough chain.sound
                    (chain.grows.nameText? isNameNow) fun _ _ => chain.held
                  generalize accessThrough named.1 slot named.2 = made
                    at access takesPlace ⊢
                  rw [sameTrivia] at inFront
                  replace takesPlace :=
                    takesPlace.ofEarlier (grows.trans chain.grows) held
                  exact ⟨chain.grows.trans access.grows, access.sound,
                    .name isName (.container isQualifier (spelled.grow access.grows))
                      (inFront.grow access.grows) takesPlace,
                    fun same => absurd same (takesPlace.ne_slot held)⟩
      · next needsNone =>
          have noQualifier : qualifierOf? model parsed slot = none := by
            simp [qualifierOf?, binds, needsNone]
          split
          · next both =>
              obtain ⟨access, receiver, isMe, inFront, takesPlace⟩ :=
                builds_accessThroughMe grows sound isNameNow
              rw [sameTrivia] at inFront
              replace takesPlace := takesPlace.ofEarlier grows held
              exact ⟨access.grows, access.sound,
                .name isName (.me (by simpa [isReadFromMe, binds] using both) isMe)
                  inFront takesPlace,
                fun same => absurd same (takesPlace.ne_slot held)⟩
          · next neither =>
              exact unchanged noQualifier
                (by simpa [isReadFromMe, binds] using neither)

end

/-! ## Whole expressions -/

theorem operandsOf_subset_slots (form : Form) : operandsOf form ⊆ form.slots := by
  cases form <;> simp [operandsOf, Form.slots]

theorem mem_children_of_operand {form : Form} {node : NodeId}
    (isOperand : some node ∈ operandsOf form) : node ∈ form.children :=
  List.mem_filterMap.mpr ⟨_, operandsOf_subset_slots form isOperand, rfl⟩

theorem mem_of_join_getElem? {operands : List Slot} {index : Nat} {node : NodeId}
    (isOperand : operands[index]?.join = some node) : some node ∈ operands :=
  List.mem_of_getElem? (Option.join_eq_some_iff.mp isOperand)

/-- The nodes below a form over other operands are these, or below the form. -/
theorem mem_slots_withOperands {form : Form} {operands : List Slot} {node : NodeId}
    (isSlot : some node ∈ (withOperands form operands).slots) :
    some node ∈ form.slots ∨ some node ∈ operands := by
  have fromOperands (index : Nat) (same : some node = operands[index]?.join) :
      some node ∈ operands :=
    mem_of_join_getElem? same.symm
  cases form <;> grind [withOperands, Form.slots, List.mem_of_mem_tail]

section

variable {model : Model} {parsed arena : Arena} {slot made : Slot}

/-- What stands for several slots, one after another. -/
theorem expands_mapM {step : Slot → Building Slot} (slots : List Slot)
    (each : ∀ slot ∈ slots, ∀ arena, parsed.Grows arena → arena.Sound →
      BuildsExpanded model parsed slot arena (step slot arena))
    (grows : parsed.Grows arena) (sound : arena.Sound) :
    let made := slots.mapM step arena
    arena.Grows made.2 ∧ made.2.Sound ∧ made.1.length = slots.length ∧
      (∀ pair ∈ slots.zip made.1, Expands model parsed made.2 pair.1 pair.2) ∧
      (made.1 = slots → made.2 = arena) := by
  induction slots generalizing arena with
  | nil => exact ⟨.refl arena, sound, rfl, nofun, fun _ => rfl⟩
  | cons slot rest ih =>
      rw [List.forall_mem_cons] at each
      have first := each.1 arena grows sound
      obtain ⟨growsRest, soundRest, sameLength, others, unchanged⟩ :=
        ih each.2 (grows.trans first.grows) first.sound
      simp only [List.mapM_cons, Building.run_bind, Building.run_pure]
      refine ⟨first.grows.trans growsRest, soundRest, by simp [sameLength], ?_, ?_⟩
      · rw [List.zip_cons_cons, List.forall_mem_cons]
        exact ⟨first.expands.grow growsRest, others⟩
      · intro same
        obtain ⟨sameFirst, sameRest⟩ := List.cons.inj same
        rw [unchanged sameRest, first.unchanged sameFirst]

/-- A copy is made where the names below a node are written differently. -/
theorem fullNamesWithin_operator {form : Form} (depth : Nat)
    (found : arena.form? slot = some form) (notName : form.isSimpleName = false) :
    fullNamesWithin model (depth + 1) slot arena =
      let made := (operandsOf form).mapM (fullNamesWithin model depth) arena
      let expanded := withOperands form made.1
      if expanded = form then (slot, made.2)
      else
        let copied := Building.synthesize slot expanded made.2
        (some copied.1, copied.2) := by
  have same : fullNamesWithin model (depth + 1) slot arena =
      (do
        let expanded ← mapOperands (fullNamesWithin model depth) form
        if expanded = form then return slot
        else
          let copy ← Building.synthesize slot expanded
          return some copy : Building Slot) arena := by
    rw [fullNamesWithin]
    simp only [Building.run_bind, Building.run_get, found]
    cases form <;> first | rfl | cases notName
  have operands : mapOperands (fullNamesWithin model depth) form arena =
      let made := (operandsOf form).mapM (fullNamesWithin model depth) arena
      (withOperands form made.1, made.2) := by
    rw [mapOperands_eq]
    rfl
  rw [same, Building.run_bind, operands]
  dsimp only
  split <;> rfl

theorem expands_fullNamesWithin (soundParsed : parsed.Sound) (depth : Nat)
    (deepEnough : parsed.HasDepth depth slot)
    (known : ∀ node, slot = some node → parsed.holds slot = true)
    (grows : parsed.Grows arena) (sound : arena.Sound) :
    BuildsExpanded model parsed slot arena
      (fullNamesWithin model depth slot arena) := by
  induction depth generalizing slot arena with
  | zero =>
      cases slot with
      | none => exact ⟨.refl arena, sound, .absent, fun _ => rfl⟩
      | some node =>
          obtain ⟨form, found⟩ := Arena.exists_form (known node rfl)
          rw [deepEnough.missing] at found
          cases found
  | succ depth ih =>
      cases slot with
      | none => exact ⟨.refl arena, sound, .absent, fun _ => rfl⟩
      | some node =>
      have held := known node rfl
      obtain ⟨⟨span, trivia, origin, form⟩, isNode⟩ := Arena.exists_node held
      have found : parsed.form? (some node) = some form := by
        rw [Arena.form?, isNode, Option.map_some]
      by_cases isName : form.isSimpleName = true
      · cases form <;> cases isName
        rw [fullNamesWithin]
        simp only [Building.run_bind, Building.run_get, grows.form? found]
        exact expands_fullNameOf grows sound soundParsed
          (nameText?_of_form? found)
      · have notName := Bool.not_eq_true _ ▸ isName
        rw [fullNamesWithin_operator depth (grows.form? found) notName]
        dsimp only
        obtain ⟨growsOperands, soundOperands, sameLength, below, unbuilt⟩ :=
          expands_mapM (operandsOf form) (fun operand isOperand arena => by
            cases operand with
            | none => exact ih (Arena.hasDepth_none parsed depth) (by rintro _ ⟨⟩)
            | some child =>
                have isChild := mem_children_of_operand isOperand
                exact ih (deepEnough.child found isChild) fun _ _ =>
                  soundParsed.children _ form found child isChild) grows sound
        generalize (operandsOf form).mapM (fullNamesWithin model depth) arena =
          made at growsOperands soundOperands sameLength below unbuilt
        split
        · next unchanged =>
            have sameOperands := operandsOf_withOperands sameLength
            rw [unchanged] at sameOperands
            refine ⟨growsOperands, soundOperands, .same found notName ?_,
              fun _ => unbuilt sameOperands.symm⟩
            intro operand isOperand
            refine below (operand, operand) ?_
            rw [← sameOperands, List.zip_eq_zipWith, List.zipWith_self]
            exact List.mem_map.mpr ⟨operand, isOperand, rfl⟩
        · next differs =>
            have copies := Building.adds_synthesize made.2 (some node)
              (withOperands form made.1)
            have growsThere := grows.trans growsOperands
            have isAdded := not_holds_of_adds growsThere copies
            refine ⟨growsOperands.trans copies.grows, ?_, .copy isNode notName
              sameLength (fun pair member => (below pair member).grow copies.grows) ?_
              isAdded (Building.node?_synthesize (growsThere _ _ isNode) _),
              fun same => absurd same (ne_of_not_holds held isAdded)⟩
            · refine copies.sound soundOperands (forall_mem_children ?_) ?_
              · rintro _ isSlot child rfl
                obtain isOld | isNew := mem_slots_withOperands isSlot
                · exact growsThere.holds (soundParsed.children _ form found child
                    (List.mem_filterMap.mpr ⟨_, isOld, rfl⟩))
                · refine holds_of_expands (fun operand isOperand => ?_) sameLength
                    below growsThere isNew
                  exact soundParsed.children _ form found operand
                    (mem_children_of_operand isOperand)
              · intro other isOther
                rw [← isOther]
                exact growsThere.holds held
            · intro sameOperands
              rw [sameOperands, withOperands_operandsOf] at differs
              exact differs rfl

/-- A depth that is large enough for the arena, whatever its size. -/
theorem expands_ofSize (soundParsed : parsed.Sound)
    (held : parsed.holds slot = true) (grows : parsed.Grows arena)
    (sound : arena.Sound) (more : Nat) :
    BuildsExpanded model parsed slot arena
      ((do fullNamesWithin model ((← get).size + more) slot : Building Slot)
        arena) := by
  rw [Building.run_bind, Building.run_get]
  exact expands_fullNamesWithin soundParsed _ (soundParsed.acyclic.hasDepth slot
    (Nat.le_trans grows.size_le (Nat.le_add_right _ more))) (fun _ _ => held)
    grows sound

/-- All names of an expression are written out, as far as names are looked for. -/
theorem expands_fullNames (soundParsed : parsed.Sound)
    (held : parsed.holds slot = true) (grows : parsed.Grows arena)
    (sound : arena.Sound) :
    BuildsExpanded model parsed slot arena (fullNames model slot arena) :=
  expands_ofSize soundParsed held grows sound growthLimit

end

/-! ## What is written for a node -/

/-- What is written in an arena for the nodes of a parsed one, when it does not matter
which nodes are copied and what they look like. -/
inductive Written (model : Model) (parsed arena : Arena) : Slot → Slot → Prop
  | qualified {slot receiver access : Slot} {text qualifier : String}
      (isName : parsed.nameText? slot = some text)
      (isQualifier : qualifierOf? model parsed slot = some qualifier)
      (spelled : Spells parsed arena receiver (Text.Dotted.split qualifier))
      (inPlace : AccessInPlace arena slot receiver text access) :
      Written model parsed arena slot access
  | throughMe {slot receiver access : Slot} {text : String}
      (isName : parsed.nameText? slot = some text)
      (noQualifier : qualifierOf? model parsed slot = none)
      (isMe : IsAddedMe parsed arena receiver)
      (inPlace : AccessInPlace arena slot receiver text access) :
      Written model parsed arena slot access
  | bare {slot : Slot} {text : String}
      (isName : parsed.nameText? slot = some text)
      (noQualifier : qualifierOf? model parsed slot = none) :
      Written model parsed arena slot slot
  | operator {slot copy : Slot} {form : Form} {operands : List Slot}
      (found : parsed.form? slot = some form)
      (notName : form.isSimpleName = false)
      (sameLength : operands.length = (operandsOf form).length)
      (written : ∀ pair ∈ (operandsOf form).zip operands,
        Written model parsed arena pair.1 pair.2)
      (isCopy : arena.form? copy = some (withOperands form operands))
      (inPlace : copy = slot ∨ arena.origin? copy = slot) :
      Written model parsed arena slot copy
  | absent : Written model parsed arena none none

/-- Whether a step has built what is written for a node of a parsed arena. -/
structure BuildsWritten (model : Model) (parsed : Arena) (slot : Slot)
    (before : Arena) (made : Slot × Arena) : Prop
    extends BuildsExpanded model parsed slot before made where
  written : Written model parsed made.2 slot made.1

section

variable {model : Model} {parsed before after arena : Arena}
variable {slot made : Slot} {text : String}

theorem Written.grow (written : Written model parsed before slot made)
    (grows : before.Grows after) : Written model parsed after slot made := by
  induction written with
  | qualified isName isQualifier spelled inPlace =>
      exact .qualified isName isQualifier (spelled.grow grows)
        (inPlace.grow grows)
  | throughMe isName noQualifier isMe inPlace =>
      exact .throughMe isName noQualifier (isMe.grow grows)
        (inPlace.grow grows)
  | bare isName noQualifier => exact .bare isName noQualifier
  | operator found notName sameLength _ isCopy inPlace ih =>
      refine .operator found notName sameLength ih (grows.form? isCopy)
        (inPlace.imp_right fun isOrigin => ?_)
      rw [grows.origin?_eq (Arena.holds_of_form? isCopy), isOrigin]
  | absent => exact .absent

theorem Expands.written (expands : Expands model parsed arena slot made)
    (grows : parsed.Grows arena) : Written model parsed arena slot made := by
  induction expands with
  | name isName standsBefore _ takesPlace =>
      cases standsBefore with
      | container isQualifier spelled =>
          exact .qualified isName isQualifier spelled takesPlace.inPlace
      | me fromMe isMe =>
          exact .throughMe isName (qualifierOf?_eq_none fromMe) isMe takesPlace.inPlace
  | bare isName noQualifier _ => exact .bare isName noQualifier
  | same found notName _ ih =>
      refine .operator found notName rfl ?_ ?_ (.inl rfl)
      · rw [List.zip_eq_zipWith, List.zipWith_self]
        exact List.forall_mem_map.mpr ih
      · rw [withOperands_operandsOf]
        exact grows.form? found
  | copy isNode notName sameLength _ _ _ isCopy ih =>
      refine .operator ?_ notName sameLength ih ?_ (.inr ?_)
      · rw [Arena.form?, isNode, Option.map_some]
      · rw [Arena.form?, isCopy, Option.map_some]
      · rw [Arena.origin?, isCopy, Option.bind_some]
  | absent => exact .absent

/-- All names of an expression are written out. -/
theorem written_fullNames (soundParsed : parsed.Sound)
    (held : parsed.holds slot = true) (grows : parsed.Grows arena)
    (sound : arena.Sound) :
    BuildsWritten model parsed slot arena (fullNames model slot arena) :=
  have built := expands_fullNames soundParsed held grows sound
  ⟨built, built.expands.written (grows.trans built.grows)⟩

end

end BasicLowering.Qualification
