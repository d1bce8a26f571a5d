import BasicLowering.Proofs.Qualification.Decisions

/-!
# What takes the place of a name

A bare name that does not stay as it is gives way to an access. Whichever rule makes the
access, it keeps the place of the name in the text, stands for the same parsed node, and
has all the blanks and comments that stood in front of the name, followed by those of a
receiver that has been taken over.
-/

namespace BasicLowering.Qualification

open Source Binding

/-- From what a name is read, and the trivia in front of what has been taken over for
that: from a new `Me`, from the receiver that the front end has attached or a copy of
it, or from a new chain that spells the name of the container. -/
inductive ReadsThrough (model : Model) (before after : Arena) (slot : Slot) :
    Slot → String → Prop
  | me {receiver : Slot} (isMe : IsAddedMe before after receiver) :
      ReadsThrough model before after slot receiver ""
  | attached {receiver attached : Slot} {member : SymbolId} {trivia : String}
      (isAttached : attachedReceiver? model before slot = some (attached, member))
      (isReceiver : IsReceiver before after slot attached receiver)
      (inFront : TriviaInFront before attached trivia) :
      ReadsThrough model before after slot receiver trivia
  | container {receiver : Slot} {symbol : Symbol} {container : SymbolId}
      {parts : List String}
      (binds : model.symbol? (before.standsFor slot) = some symbol)
      (contained : symbol.containingSymbol = some container)
      (spelled : Spells before after receiver parts)
      (isContainer : Text.Dotted.join parts = model.symbols.qualifiedName container) :
      ReadsThrough model before after slot receiver ""

section

variable {model : Model} {before after : Arena} {path : Path} {slot receiver : Slot}
variable {text : String}

/-- The qualifier of a name is the name of the container of what it refers to. -/
theorem exists_container {qualifier : String}
    (isQualifier : qualifierOf? model before slot = some qualifier) :
    ∃ symbol container, model.symbol? (before.standsFor slot) = some symbol ∧
      symbol.containingSymbol = some container ∧
      model.symbols.qualifiedName container = qualifier := by
  unfold qualifierOf? at isQualifier
  split at isQualifier
  · next symbol binds =>
      split at isQualifier
      · obtain ⟨isName, -⟩ := Option.filter_eq_some_iff.mp isQualifier
        obtain ⟨container, contained, isQualified⟩ := Option.map_eq_some_iff.mp isName
        exact ⟨symbol, container, binds, contained, isQualified⟩
      · cases isQualifier
  · cases isQualifier

theorem readsThrough_of_standsBefore
    (standsBefore : StandsBefore model before after slot receiver) :
    ReadsThrough model before after slot receiver "" := by
  cases standsBefore with
  | container isQualifier spelled =>
      obtain ⟨symbol, container, binds, contained, rfl⟩ := exists_container isQualifier
      exact .container binds contained spelled (Text.Dotted.join_split _)
  | me _ isMe => exact .me isMe

/-- The trivia of an access are those of its receiver. -/
theorem TakesPlace.triviaInFront {trivia : String} {access : Slot}
    (takesPlace : TakesPlace before after slot receiver text access)
    (inFront : TriviaInFront after receiver trivia) :
    TriviaInFront after access trivia := by
  obtain ⟨-, named, name, -, isNode, -, -⟩ := takesPlace
  cases receiver with
  | none => cases inFront with
    | word isNone _ | before isNone _ _ => cases isNone
  | some node =>
      rw [← String.empty_append (s := trivia)]
      exact .before isNode rfl inFront

/-- Where a bare name gives way to another node, this is an access to the member of that
name. It has the range of the name and stands for the same node, and in front of it
stand the trivia of the name and those of what it is read from. -/
theorem decision_replaces_name {expansion : Expansion}
    (wellFormed : WellFormed model before) (isName : before.nameText? slot = some text)
    (decided : (names.decision model path slot before).1.expansion? = some expansion)
    (differs : expansion.node ≠ slot) :
    let after := (names.decision model path slot before).2
    ∃ receiver inherited,
      TakesPlace before after slot receiver text expansion.node ∧
      after.standsFor expansion.node = before.standsFor slot ∧
      ReadsThrough model before after slot receiver inherited ∧
      ∀ trivia, TriviaInFront after expansion.node trivia ↔
        trivia = before.trivia slot ++ inherited := by
  have held := holds_of_nameText? isName
  have isForm := Arena.form?_of_nameText? isName
  have decides : Decides model before path slot before
      (names.decision model path slot before).2
      (names.decision model path slot before).1 :=
    decides_names wellFormed held (.refl before) wellFormed.sound
  generalize names.decision model path slot before = made at decided decides ⊢
  obtain ⟨decision, after⟩ := made
  dsimp only at decided decides ⊢
  have replaced {receiver : Slot} {inherited : String} (grows : before.Grows after)
      (sound : after.Sound)
      (takesPlace : TakesPlace before after slot receiver text expansion.node)
      (readsThrough : ReadsThrough model before after slot receiver inherited)
      (inFront : TriviaInFront after receiver (before.trivia slot ++ inherited)) :
      ∃ receiver inherited,
        TakesPlace before after slot receiver text expansion.node ∧
        after.standsFor expansion.node = before.standsFor slot ∧
        ReadsThrough model before after slot receiver inherited ∧
        ∀ trivia, TriviaInFront after expansion.node trivia ↔
          trivia = before.trivia slot ++ inherited := by
    refine ⟨receiver, inherited, takesPlace, ?_, readsThrough, fun trivia =>
      (takesPlace.triviaInFront inFront).iff_eq⟩
    cases slot with
    | none => cases held
    | some node =>
        rw [sound.standsFor_of_origin takesPlace.inPlace.1,
          grows.standsFor_eq wellFormed.sound held]
  cases decides with
  | keep | skip => cases decided
  | shortCircuit isBinary _ => cases isForm.symm.trans isBinary
  | implicit _ _ reads =>
      cases decided
      obtain ⟨other, receiver, inherited, isOther, takesPlace, inFront, from'⟩ :=
        reads.replaces
      cases isName.symm.trans isOther
      refine replaced reads.grows reads.sound takesPlace ?_ inFront
      obtain ⟨isMe, rfl⟩ | ⟨attached, member, isAttached, isReceiver, inFront⟩ := from'
      · exact .me isMe
      · exact .attached isAttached isReceiver inFront
  | elsewhere _ _ reads =>
      obtain ⟨_, _, _, _, _, _, isAccess, -⟩ := reads.reads
      cases isForm.symm.trans isAccess
  | asWritten =>
      cases decided
      exact absurd rfl differs
  | inFull _ writes =>
      cases decided
      cases writes.expands with
      | name isOther standsBefore inFront takesPlace =>
          cases isName.symm.trans isOther
          rw [← String.append_empty (s := before.trivia slot)] at inFront
          exact replaced writes.grows writes.sound takesPlace
            (readsThrough_of_standsBefore standsBefore) inFront
      | bare | same | absent => exact absurd rfl differs
      | copy isNode notName _ _ _ _ _ =>
          rw [Arena.form?, isNode, Option.map_some] at isForm
          rw [Option.some.inj isForm] at notName
          cases notName

end

/-- `Text` gives way to an access on the target of its `With` block, and the blanks before
it now stand before the target. -/
theorem textOfTarget_replaced :
    let model := readFromTarget ⟨7⟩ [bodyOfApp]
    let (decision, after) := names.decision model [] (some ⟨1⟩) targetAndText
    WellFormed model targetAndText ∧
      targetAndText.nameText? (some ⟨1⟩) = some "Text" ∧
      ∃ expansion receiver inherited,
        decision.expansion? = some expansion ∧ expansion.node ≠ some ⟨1⟩ ∧
        TakesPlace targetAndText after (some ⟨1⟩) receiver "Text" expansion.node ∧
        after.standsFor expansion.node = targetAndText.standsFor (some ⟨1⟩) ∧
        ReadsThrough model targetAndText after (some ⟨1⟩) receiver inherited ∧
        ∀ trivia, TriviaInFront after expansion.node trivia ↔
          trivia = "  " ++ inherited := by
  have wellFormed : WellFormed (readFromTarget ⟨7⟩ [bodyOfApp]) targetAndText := by
    refine ⟨Arena.sound_of_earlier (by decide), fun slot receiver member known => ?_⟩
    simp only [Model.operation?, readFromTarget, Std.TreeMap.getElem?_insert] at known
    split at known
    · cases known
      rfl
    · simp at known
  have decided : (names.decision (readFromTarget ⟨7⟩ [bodyOfApp]) [] (some ⟨1⟩)
      targetAndText).1.expansion? = some ⟨some ⟨4⟩, none⟩ := by
    decide +kernel
  obtain ⟨receiver, inherited, takesPlace, standsFor, readsThrough, inFront⟩ :=
    decision_replaces_name wellFormed rfl decided (by decide)
  exact ⟨wellFormed, rfl, _, receiver, inherited, decided, by decide, takesPlace, standsFor,
    readsThrough, inFront⟩

end BasicLowering.Qualification
