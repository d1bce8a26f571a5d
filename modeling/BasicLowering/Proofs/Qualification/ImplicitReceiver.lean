import BasicLowering.Proofs.Source.Growth
import BasicLowering.Qualification.NameExpander

/-!
# Receivers of bare member names

The front end may attach a receiver to a bare name of an instance member, such
as the target of a `With` block. The name is moved to that receiver where the
enclosing type is known and does not inherit the member. An enclosing type that
inherits the member comes first, and where no enclosing type is known the
name is written out in full; both give `Me`, whatever the front end has
attached.
-/

namespace BasicLowering.Qualification

open Source Binding

/-- What a decision puts in place of a node. -/
def Decision.expansion? : Decision → Option Expansion
  | .replace expansion | .replaceAndEnter expansion => some expansion
  | .keep | .skip => none

/-- Whether a slot refers to a receiver or to a copy of it that is preceded by
the trivia of the name. -/
inductive IsReceiver (before after : Arena) (name receiver : Slot) : Slot → Prop
  | same : IsReceiver before after name receiver receiver
  | copy {node : Node} {copied : NodeId}
      (found : before.node? receiver = some node)
      (made : after.node? (some copied) = some { node with
        trivia := before.trivia name ++ node.trivia, origin := receiver }) :
      IsReceiver before after name receiver (some copied)

/-- Whether a slot refers to a `Me` that was not there before. -/
def IsNewMe (before after : Arena) (slot : Slot) : Prop :=
  before.node? slot = none ∧ after.form? slot = some (.selfReference .me)

/-- Whether a new node reads a member of the given name from a receiver. -/
def AccessesThrough (before after : Arena) (name : String)
    (receiver access : Slot) : Prop :=
  before.node? access = none ∧ ∃ spelled,
    after.form? access = some (.memberAccess receiver spelled .simple) ∧
      after.nameText? spelled = some name

section

variable {arena before middle after : Arena} {slot receiver access : Slot}
variable {text : String}

theorem IsReceiver.grow
    (isReceiver : IsReceiver before middle slot receiver access)
    (grows : middle.Grows after) :
    IsReceiver before after slot receiver access := by
  cases isReceiver with
  | same => exact .same
  | copy found made => exact .copy found (grows _ _ made)

theorem isReceiver_withPrependedTrivia (arena : Arena) (slot receiver : Slot) :
    let made := Building.withPrependedTrivia receiver (arena.trivia slot) arena
    arena.Grows made.2 ∧ IsReceiver arena made.2 slot receiver made.1 := by
  unfold Building.withPrependedTrivia
  split
  · exact ⟨.refl arena, .same⟩
  · next node found =>
      split
      · exact ⟨.refl arena, .same⟩
      · exact ⟨arena.grows_add _, .copy found (arena.node?_add_self _)⟩

/-- An access is made after its name. -/
theorem accessesThrough_accessThrough
    (isName : arena.nameText? slot = some text) (receiver : Slot) :
    let made := accessThrough receiver slot arena
    arena.Grows made.2 ∧ AccessesThrough arena made.2 text receiver made.1 := by
  have copies := Building.copies_withoutTrivia slot arena
  generalize made : Building.withoutTrivia slot arena = step at copies
  have built : accessThrough receiver slot arena =
      ((some (Building.synthesize slot
          (.memberAccess receiver step.1 .simple) step.2).1),
        (Building.synthesize slot
          (.memberAccess receiver step.1 .simple) step.2).2) := by
    rw [← made]
    rfl
  have grows := Building.grows_synthesize slot
    (.memberAccess receiver step.1 .simple) step.2
  rw [built]
  refine ⟨copies.grows.trans grows, ?_, step.1, ?_, ?_⟩
  · exact copies.grows.node?_eq_none step.2.node?_next
  · exact Building.form?_synthesize ..
  · exact grows.nameText? (copies.nameText?_eq.trans isName)

/-- `Me` is made before the access. -/
theorem accessesThrough_accessThroughMe
    (isName : arena.nameText? slot = some text) :
    let made := accessThroughMe slot arena
    arena.Grows made.2 ∧ ∃ receiver, IsNewMe arena made.2 receiver ∧
      AccessesThrough arena made.2 text receiver made.1 := by
  let self : Slot := some ⟨arena.size⟩
  let middle :=
    (Building.selfReference .me arena).2.setTrivia self (arena.trivia slot)
  have isNew : arena.node? self = none := arena.node?_next
  have early : arena.Grows middle := (arena.grows_add _).setTrivia isNew _
  have isMe : middle.form? self = some (.selfReference .me) := by
    rw [Arena.form?_setTrivia]
    exact congrArg (Option.map Node.form) (arena.node?_add_self _)
  have late := accessesThrough_accessThrough (early.nameText? isName) self
  exact ⟨early.trans late.1, self, ⟨isNew, late.1.form? isMe⟩,
    early.node?_eq_none late.2.1, late.2.2⟩

end

/-! ## Names with an attached receiver -/

/-- From what a bare name is read once it is qualified. -/
inductive Reading where
  /-- From the receiver that the front end has attached. -/
  | attached
  /-- From `Me`. -/
  | throughMe
  /-- The name stays bare. -/
  | bare
  deriving DecidableEq

/-- From what a bare name with an attached receiver is read: from `Me` if the
enclosing type inherits the member, and from the receiver if it does not. Where
no enclosing type is known, the receiver does not count. -/
def readingOf (model : Model) (arena : Arena) (slot : Slot) (symbol : Symbol) :
    Reading :=
  match model.enclosingNamedType? (arena.position slot) with
  | some enclosing =>
      if symbol.containingType.any
          (model.types.inheritsFromOrEquals enclosing) then .throughMe
      else .attached
  | none =>
      if symbol.containingType.isSome && !symbol.isGenericMethod then .throughMe
      else .bare

/-- Whether a node stands for a name that is read in the given way. -/
def IsReadAs (before after : Arena) (text : String) (slot receiver node : Slot) :
    Reading → Prop
  | .attached => ∃ through, AccessesThrough before after text through node ∧
      IsReceiver before after slot receiver through
  | .throughMe => ∃ through, AccessesThrough before after text through node ∧
      IsNewMe before after through
  | .bare => node = slot

section

variable {model : Model} {arena : Arena} {path : Path} {slot receiver : Slot}
variable {symbol : Symbol} {member : SymbolId} {text : String}

/-- A bare name is replaced as a whole or kept. -/
theorem decision_of_name (isName : arena.nameText? slot = some text) :
    names.decision model path slot arena =
      if isExpandableName arena path slot then
        ((.replace (expand model path slot arena).1),
          (expand model path slot arena).2)
      else (.keep, arena) := by
  have found := Arena.form?_of_nameText? isName
  have notEager : isEagerLogical arena slot = false := by
    simp [isEagerLogical, Arena.binary?, found]
  have expands : expandsNode model arena path slot =
      isExpandableName arena path slot := by
    simp [expandsNode, isExpandableAccess, notEager, found]
  have noReceiver : hasInstanceReceiver arena slot = false := by
    simp [hasInstanceReceiver, found]
  cases expandable : isExpandableName arena path slot <;>
    simp [names, finalNames, expandsWithin, notEager, expands, expandable,
      noReceiver]

/-- Of the rules for implicit receivers, an inherited member comes first. -/
theorem throughImplicitInstance?_of_attachedReceiver (symbol : Symbol)
    (attached : attachedReceiver? model arena slot = some (receiver, member))
    (enclosing : TypeId) :
    throughImplicitInstance? model slot symbol enclosing arena =
      if symbol.containingType.any
          (model.types.inheritsFromOrEquals enclosing) then
        (some (accessThroughMe slot arena).1, (accessThroughMe slot arena).2)
      else
        let copied :=
          Building.withPrependedTrivia receiver (arena.trivia slot) arena
        (some (accessThrough copied.1 slot copied.2).1,
          (accessThrough copied.1 slot copied.2).2) := by
  by_cases inherits : symbol.containingType.any
      (model.types.inheritsFromOrEquals enclosing) = true <;>
    simp [throughImplicitInstance?, inherits, attached]

/-- A bare name of an instance member that begins an access chain and to which
the front end has attached a receiver. -/
structure IsAttachedName (model : Model) (arena : Arena) (path : Path)
    (slot : Slot) (text : String) (symbol : Symbol) (receiver : Slot) :
    Prop where
  isName : arena.nameText? slot = some text
  binds : model.symbol? (arena.standsFor slot) = some symbol
  isMember : symbol.isInstanceMember = true
  leftmost : isLeftmostQualifier arena path slot = true
  attached : ∃ member, model.operation? (arena.standsFor slot) =
    some (.memberReference (some receiver) member)

namespace IsAttachedName

/-- The rules for implicit receivers are asked first, where an enclosing type is
known. -/
theorem expand_eq
    (name : IsAttachedName model arena path slot text symbol receiver) :
    expand model path slot arena =
      match model.enclosingNamedType? (arena.position slot) with
      | some enclosing =>
          if symbol.containingType.any
              (model.types.inheritsFromOrEquals enclosing) then
            (⟨(accessThroughMe slot arena).1, none⟩,
              (accessThroughMe slot arena).2)
          else
            let copied :=
              Building.withPrependedTrivia receiver (arena.trivia slot) arena
            (⟨(accessThrough copied.1 slot copied.2).1, none⟩,
              (accessThrough copied.1 slot copied.2).2)
      | none => throughFullName model slot (some symbol) arena := by
  have found := Arena.form?_of_nameText? name.isName
  have notEager : isEagerLogical arena slot = false := by
    simp [isEagerLogical, Arena.binary?, found]
  have isSimple : arena.isSimpleName slot = true := by
    simp [Arena.isSimpleName, found, Form.isSimpleName]
  have enclosingOf : implicitInstance? model arena path slot symbol =
      model.enclosingNamedType? (arena.position slot) := by
    simp [implicitInstance?, name.isMember, name.leftmost]
  have notPromoted : isPromoted model arena slot symbol = false := by
    simp [isPromoted, found]
  obtain ⟨member, attached⟩ := name.attached
  have hasReceiver : attachedReceiver? model arena slot =
      some (receiver, member) := by
    simp [attachedReceiver?, attached]
  cases enclosing : model.enclosingNamedType? (arena.position slot) with
  | none =>
      simp [expand, expandReference, throughAttachedReceiver?, notEager,
        name.binds, isSimple, enclosingOf, enclosing, notPromoted]
  | some type =>
      have through := throughImplicitInstance?_of_attachedReceiver symbol
        hasReceiver type
      simp only [expand, expandReference, notEager, name.binds, isSimple,
        enclosingOf, enclosing, Building.run_bind, Building.run_get, ↓reduceIte,
        Bool.false_eq_true, through]
      split <;> rfl

theorem fullNameOf_eq
    (name : IsAttachedName model arena path slot text symbol receiver) :
    fullNameOf model slot arena =
      if symbol.containingType.isSome then accessThroughMe slot arena
      else (slot, arena) := by
  have noContainer : needsContainer symbol = false := by
    have isMember := name.isMember
    simp only [Symbol.isInstanceMember, Symbol.isMember] at isMember
    cases kind : symbol.kind <;> simp_all [needsContainer]
  simp only [fullNameOf, Building.run_bind, Building.run_get, name.binds,
    noContainer, name.isMember, Bool.true_and, Bool.false_eq_true, ↓reduceIte]
  split <;> rfl

theorem fullNames_eq
    (name : IsAttachedName model arena path slot text symbol receiver) :
    fullNames model slot arena = fullNameOf model slot arena := by
  have found := Arena.form?_of_nameText? name.isName
  have positive : growthLimit ≠ 0 := by decide
  unfold fullNames
  generalize growthLimit = limit at positive
  obtain ⟨depth, rfl⟩ := Nat.exists_eq_succ_of_ne_zero positive
  simp only [Building.run_bind, Building.run_get, fullNamesWithin, found]

/-- Written out in full, an instance member is read from `Me`. The step that
writes it out has a name of its own here, which keeps its depth closed. -/
theorem throughFullName_eq {writeOut : Building Slot}
    (name : IsAttachedName model arena path slot text symbol receiver)
    (isWriteOut : fullNames model slot = writeOut) :
    ((throughFullName model slot (some symbol) arena).1.node,
        (throughFullName model slot (some symbol) arena).2) =
      if symbol.containingType.isSome && !symbol.isGenericMethod then
        accessThroughMe slot arena
      else (slot, arena) := by
  have found := Arena.form?_of_nameText? name.isName
  have notAnonymous : isAnonymousAccess model arena slot = false := by
    simp [isAnonymousAccess, found]
  have written : writeOut arena = _ :=
    isWriteOut ▸ name.fullNames_eq.trans name.fullNameOf_eq
  unfold throughFullName
  rw [isWriteOut]
  cases generic : symbol.isGenericMethod with
  | true => simp [generic]
  | false =>
      rw [Bool.not_false, Bool.and_true, ← written]
      cases ran : writeOut arena with
      | mk node grown => simp [generic, notAnonymous, ran]

/-- What an expansion makes of a name. -/
theorem expand_spec
    (name : IsAttachedName model arena path slot text symbol receiver) :
    let made := expand model path slot arena
    arena.Grows made.2 ∧ IsReadAs arena made.2 text slot receiver made.1.node
      (readingOf model arena slot symbol) := by
  have throughMe := accessesThrough_accessThroughMe name.isName
  obtain ⟨growsMe, self, isNewMe, accessesMe⟩ := throughMe
  rw [name.expand_eq, readingOf]
  cases isEnclosing : model.enclosingNamedType? (arena.position slot) with
  | none =>
      have full := name.throughFullName_eq rfl
      simp only
      split at full
      · next known =>
          obtain ⟨isNode, isArena⟩ := Prod.ext_iff.mp full
          simp only at isNode isArena
          rw [isNode, isArena, if_pos known]
          exact ⟨growsMe, self, accessesMe, isNewMe⟩
      · next unknown =>
          obtain ⟨isNode, isArena⟩ := Prod.ext_iff.mp full
          simp only at isNode isArena
          rw [isNode, isArena, if_neg unknown]
          exact ⟨.refl arena, rfl⟩
  | some enclosing =>
      by_cases inherits : symbol.containingType.any
          (model.types.inheritsFromOrEquals enclosing) = true
      · simp only [inherits, ↓reduceIte]
        exact ⟨growsMe, self, accessesMe, isNewMe⟩
      · obtain ⟨early, isReceiver⟩ :=
          isReceiver_withPrependedTrivia arena slot receiver
        obtain ⟨late, isNew, accesses⟩ := accessesThrough_accessThrough
          (early.nameText? name.isName)
          (Building.withPrependedTrivia receiver (arena.trivia slot) arena).1
        simp only [inherits, ↓reduceIte, Bool.false_eq_true]
        exact ⟨early.trans late, _,
          ⟨early.node?_eq_none isNew, accesses⟩, isReceiver.grow late⟩

end IsAttachedName

theorem IsReadAs.node_eq_iff {before after : Arena} {node : Slot}
    {reading : Reading}
    (isRead : IsReadAs before after text slot receiver node reading)
    (held : before.node? slot ≠ none) :
    node = slot ↔ reading = .bare := by
  cases reading with
  | bare => exact iff_of_true isRead rfl
  | attached | throughMe =>
      obtain ⟨through, ⟨isNew, -⟩, -⟩ := isRead
      exact iff_of_false (fun same => held (same ▸ isNew)) nofun

/-- A new `Me` is no receiver that has another form. -/
theorem IsNewMe.not_isReceiver {before after : Arena} {through : Slot}
    {form : Form} (isNew : IsNewMe before after through)
    (found : before.form? receiver = some form)
    (notMe : form ≠ .selfReference .me) :
    ¬ IsReceiver before after slot receiver through := by
  rintro (_ | ⟨isNode, made⟩)
  · rw [Arena.form?, isNew.1] at found
    cases found
  · rw [Arena.form?, isNode] at found
    have isMe := isNew.2
    rw [Arena.form?, made] at isMe
    exact notMe ((Option.some.inj found).symm.trans (Option.some.inj isMe))

/-- Whether a bare name gives way to an access that has neither its receiver nor
a copy of it. -/
def LosesReceiver (model : Model) (arena : Arena) (path : Path) (slot : Slot)
    (text : String) (symbol : Symbol) (receiver : Slot) : Prop :=
  let decided := names.decision model path slot arena
  IsAttachedName model arena path slot text symbol receiver ∧
    ∃ expansion through, decided.1.expansion? = some expansion ∧
      AccessesThrough arena decided.2 text through expansion.node ∧
      ¬ IsReceiver arena decided.2 slot receiver through

theorem IsAttachedName.losesReceiver {form : Form}
    (name : IsAttachedName model arena path slot text symbol receiver)
    (expandable : isExpandableName arena path slot = true)
    (throughMe : readingOf model arena slot symbol = .throughMe)
    (found : arena.form? receiver = some form)
    (notMe : form ≠ .selfReference .me) :
    LosesReceiver model arena path slot text symbol receiver := by
  obtain ⟨-, isRead⟩ := name.expand_spec
  rw [throughMe] at isRead
  obtain ⟨through, accesses, isNew⟩ := isRead
  refine ⟨name, (expand model path slot arena).1, through, ?_⟩
  rw [decision_of_name name.isName, if_pos expandable]
  exact ⟨rfl, accesses, isNew.not_isReceiver found notMe⟩

/-- A bare name with an attached receiver is put in another form exactly where a
name may be qualified and the reading asks for it, and then it is read from the
receiver or from `Me` as the enclosing type says. -/
theorem decision_of_attachedName
    (name : IsAttachedName model arena path slot text symbol receiver) :
    let decided := names.decision model path slot arena
    arena.Grows decided.2 ∧
      (decided.1.expansion?.isSome = isExpandableName arena path slot) ∧
      ∀ expansion, decided.1.expansion? = some expansion →
        IsReadAs arena decided.2 text slot receiver expansion.node
            (readingOf model arena slot symbol) ∧
          (expansion.node = slot ↔ readingOf model arena slot symbol = .bare) := by
  obtain ⟨grows, isRead⟩ := name.expand_spec
  rw [decision_of_name name.isName]
  cases expandable : isExpandableName arena path slot with
  | false => exact ⟨.refl arena, rfl, fun _ none => nomatch none⟩
  | true =>
      refine ⟨grows, rfl, ?_⟩
      rintro expansion ⟨⟩
      refine ⟨isRead, isRead.node_eq_iff fun missing => ?_⟩
      have found := Arena.form?_of_nameText? name.isName
      rw [Arena.form?, missing] at found
      cases found

/-! ## A name inside a `With` block -/

/-- `target` and, two blanks later, `Text`. -/
def targetAndText : Arena where
  nodes := #[
    { span := ⟨0, 1⟩, form := .identifier "target" },
    { span := ⟨1, 2⟩, trivia := "  ", form := .identifier "Text" }]
  cursor := 2

/-- A property of the given type. -/
def textOf (declaring : TypeId) : Symbol where
  id := ⟨2⟩
  name := "Text"
  kind := .property
  containingType := some declaring

/-- Two classes with a property `Text`. The name `Text` refers to the property
of the given one, and the front end reads it from `target`. -/
def readFromTarget (declaring : TypeId) (scopes : List Scope) : Model where
  types :=
    ((TypeTable.standard.addClass "App" none ["Text"]).2.addClass "Other" none
      ["Text"]).2
  symbols := ⟨#[
    { id := ⟨0⟩, name := "App", kind := .namedType, declaredType := some ⟨6⟩ },
    { id := ⟨1⟩, name := "Other", kind := .namedType,
      declaredType := some ⟨7⟩ },
    textOf declaring]⟩
  nodeSymbols := (∅ : Std.TreeMap Slot SymbolId).insert (some ⟨1⟩) ⟨2⟩
  operations := (∅ : Std.TreeMap Slot Operation).insert (some ⟨1⟩)
    (.memberReference (some (some ⟨0⟩)) ⟨2⟩)
  scopes

/-- The body of `App`, around both nodes. -/
def bodyOfApp : Scope :=
  ⟨⟨0, 100⟩, ⟨0⟩⟩

theorem isAttachedName_text (declaring : TypeId) (scopes : List Scope) :
    IsAttachedName (readFromTarget declaring scopes) targetAndText []
      (some ⟨1⟩) "Text" (textOf declaring) (some ⟨0⟩) where
  isName := rfl
  binds := by
    have original : targetAndText.standsFor (some ⟨1⟩) = some ⟨1⟩ := rfl
    simp [Model.symbol?, readFromTarget, original, SymbolTable.symbol?]
  isMember := rfl
  leftmost := rfl
  attached := by
    have original : targetAndText.standsFor (some ⟨1⟩) = some ⟨1⟩ := rfl
    exact ⟨⟨2⟩, by simp [Model.operation?, readFromTarget, original]⟩

/-- Inside `App` a property of `Other` is read from the target. -/
theorem textOfOther_attached :
    IsAttachedName (readFromTarget ⟨7⟩ [bodyOfApp]) targetAndText []
        (some ⟨1⟩) "Text" (textOf ⟨7⟩) (some ⟨0⟩) ∧
      ∃ expansion,
        (names.decision (readFromTarget ⟨7⟩ [bodyOfApp]) [] (some ⟨1⟩)
            targetAndText).1.expansion? = some expansion ∧
          IsReadAs targetAndText
            (names.decision (readFromTarget ⟨7⟩ [bodyOfApp]) [] (some ⟨1⟩)
              targetAndText).2
            "Text" (some ⟨1⟩) (some ⟨0⟩) expansion.node .attached := by
  have name := isAttachedName_text ⟨7⟩ [bodyOfApp]
  obtain ⟨-, replaced, isRead⟩ := decision_of_attachedName name
  obtain ⟨expansion, isExpansion⟩ := Option.isSome_iff_exists.mp
    (replaced.trans (show isExpandableName targetAndText [] (some ⟨1⟩) = true
      from rfl))
  have attached : readingOf (readFromTarget ⟨7⟩ [bodyOfApp]) targetAndText
      (some ⟨1⟩) (textOf ⟨7⟩) = .attached := by decide +kernel
  exact ⟨name, expansion, isExpansion,
    attached ▸ (isRead expansion isExpansion).1⟩

/-- A property of `App` is read from `Me` inside `App`, and so is one of `Other`
where no type is known around it: both times the target is lost. -/
theorem targetOfText_lost :
    LosesReceiver (readFromTarget ⟨6⟩ [bodyOfApp]) targetAndText [] (some ⟨1⟩)
        "Text" (textOf ⟨6⟩) (some ⟨0⟩) ∧
      LosesReceiver (readFromTarget ⟨7⟩ []) targetAndText [] (some ⟨1⟩)
        "Text" (textOf ⟨7⟩) (some ⟨0⟩) :=
  ⟨(isAttachedName_text ⟨6⟩ [bodyOfApp]).losesReceiver rfl
      (by decide +kernel) rfl nofun,
    (isAttachedName_text ⟨7⟩ []).losesReceiver rfl (by decide +kernel) rfl
      nofun⟩

end

end BasicLowering.Qualification
