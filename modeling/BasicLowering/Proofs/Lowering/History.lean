import BasicLowering.Proofs.Lowering.Scoping

/-!
# Histories of a session

A session answers one request after another, and gives some of them up. The host may
besides have a conversion called on an expression of its own, or on one that it has
been given before, which then becomes a part of the new one. The names of a session
are numbered throughout, so whatever has been answered so far binds different names.
-/

namespace BasicLowering.Lowering

open Source Binding Qualification
open Target (Expr Occurrence Closed boundAt)

/-! ## Names of captures -/

namespace CaptureNames

/-- Whether a name is the stem and a number. -/
def Makes (captures : CaptureNames) (name : String) : Prop :=
  ∃ number : Nat, name = captures.stem ++ toString number

theorem makes_nth (captures : CaptureNames) (count : Nat) :
    captures.Makes (captures.nth count) :=
  ⟨_, rfl⟩

theorem makes_upcoming {captures : CaptureNames} {count : Nat} {name : String}
    (isUpcoming : name ∈ captures.upcoming count) : captures.Makes name := by
  obtain ⟨number, -, -, rfl⟩ := upcoming_mem_iff.mp isUpcoming
  exact captures.makes_nth number

/-- A name that does not begin with the stem is not made of it. -/
theorem not_makes_of_not_prefix {captures : CaptureNames} {name : String}
    (differs : ¬ captures.stem.toList <+: name.toList) :
    ¬ captures.Makes name := by
  rintro ⟨number, rfl⟩
  rw [String.toList_append] at differs
  exact differs (List.prefix_append _ _)

/-- How many names lie between two sessions, as far as their 32-bit count can
tell. -/
def difference (before after : CaptureNames) : Nat :=
  (after.issued - before.issued).toNat

theorem advance_difference {before after : CaptureNames}
    (sameStem : after.stem = before.stem) :
    before.advance (before.difference after) = after := by
  obtain ⟨stem, issued⟩ := after
  cases sameStem
  have goesOn : before.issued + (issued - before.issued) = issued := by
    rw [UInt32.add_comm, UInt32.sub_add_cancel]
  simp [advance, difference, goesOn]

end CaptureNames

/-! ## Histories -/

/-- What a session has answered, and the names that have been issued for it. -/
structure Answer where
  output : Output
  names : List String

/-- What the host hands over: an expression of its own without any names of captures,
or one that it was given before, which is then used up. The last argument are the
answers that are left. -/
inductive HandsOver (isCapture : String → Prop) :
    List Answer → Expr → List String → List Answer → Prop
  | own {answers : List Answer} {expr : Expr}
      (noCapture : ∀ name, isCapture name →
        .reads name ∉ expr.occurrences ∧ .binds name ∉ expr.occurrences) :
      HandsOver isCapture answers expr [] answers
  | given {earlier later : List Answer} {expr : Expr} {names : List String} :
      HandsOver isCapture (earlier ++ ⟨.expression expr, names⟩ :: later) expr
        names (earlier ++ later)

/-- What may have happened in a session since it was started: the session as it is
now, what the host has been given, and how many names have been issued, those for
requests that were given up included. -/
inductive History (setting : Setting) (start : Session) :
    Session → List Answer → Nat → Prop
  | started : History setting start start [] 0
  | answered {session later : Session} {answers : List Answer} {count : Nat}
      {request : Request} {output : Output} {visits : List Visit}
      (past : History setting start session answers count)
      (isParsed : start.arena.holds request.slot = true)
      (run : request.Run setting session output later visits) :
      History setting start later
        (⟨output, session.captures.upcoming (namesIssued visits)⟩ :: answers)
        (count + namesIssued visits)
  | givenUp {session later : Session} {answers : List Answer} {count : Nat}
      {request : Request} {error : ConversionError}
      (past : History setting start session answers count)
      (isParsed : start.arena.holds request.slot = true)
      (fails : request.convert setting session = (.error error, later)) :
      History setting start later answers
        (count + session.captures.difference later.captures)
  | unlessNull {session later : Session} {answers between rest : List Answer}
      {count : Nat} {operand conversion expr : Expr} {castType : String}
      {operandNames conversionNames : List String}
      (past : History setting start session answers count)
      (operandHanded : HandsOver start.captures.Makes answers operand
        operandNames between)
      (conversionHanded : HandsOver start.captures.Makes between conversion
        conversionNames rest)
      (converted : Succeeds (Conversion.naming
        (convertUnlessNull operand conversion castType)) session expr later) :
      History setting start later
        (⟨.expression expr, operandNames ++ conversionNames ++
          session.captures.upcoming 1⟩ :: rest) (count + 1)

/-- Whether an answer binds the captures that were issued for it, each as often as it
was issued, and reads captures in their scope. -/
structure Answer.IsOrderly (isCapture : String → Prop) (answer : Answer) : Prop where
  binds : ∀ name, isCapture name →
    (boundAt answer.output.occurrences).count name = answer.names.count name
  closed : answer.output.Closed isCapture

/-- The places of all answers at which names are read or bound. -/
def placesOf (answers : List Answer) : List Occurrence :=
  answers.flatMap (·.output.occurrences)

/-- The names issued for all answers. -/
def namesFor (answers : List Answer) : List String :=
  answers.flatMap (·.names)

theorem count_placesOf {isCapture : String → Prop} {answers : List Answer}
    (orderly : ∀ answer ∈ answers, answer.IsOrderly isCapture) {name : String}
    (captured : isCapture name) :
    (placesOf answers).count (.binds name) = (namesFor answers).count name := by
  induction answers with
  | nil => rfl
  | cons answer rest ih =>
      rw [List.forall_mem_cons] at orderly
      have here := orderly.1.binds name captured
      rw [Target.count_boundAt] at here
      simp only [placesOf, namesFor, List.flatMap_cons, List.count_append] at ih ⊢
      rw [here, ih orderly.2]

/-! ## What has been answered so far -/

theorem HandsOver.isOrderly {isCapture : String → Prop}
    {answers rest : List Answer} {expr : Expr} {names : List String}
    (handed : HandsOver isCapture answers expr names rest)
    (orderly : ∀ answer ∈ answers, answer.IsOrderly isCapture) :
    Answer.IsOrderly isCapture ⟨.expression expr, names⟩ ∧
      ∀ answer ∈ rest, answer.IsOrderly isCapture := by
  cases handed with
  | own noCapture =>
      refine ⟨⟨fun name captured => ?_, Target.closed_of_reads
        fun name isRead captured => (noCapture name captured).1 isRead⟩, orderly⟩
      rw [Target.count_boundAt]
      exact List.count_eq_zero.mpr (noCapture name captured).2
  | given =>
      rw [List.forall_mem_append, List.forall_mem_cons] at orderly
      exact ⟨orderly.2.1,
        List.forall_mem_append.mpr ⟨orderly.1, orderly.2.2⟩⟩

theorem HandsOver.count {isCapture : String → Prop} {answers rest : List Answer}
    {expr : Expr} {names : List String}
    (handed : HandsOver isCapture answers expr names rest) (name : String) :
    (namesFor answers).count name =
      names.count name + (namesFor rest).count name := by
  cases handed with
  | own => simp
  | given =>
      simp only [namesFor, List.flatMap_append, List.flatMap_cons,
        List.count_append]
      omega

theorem convertUnlessNull_eq (operand conversion : Expr) (castType : String)
    (captures : CaptureNames) :
    convertUnlessNull operand conversion castType captures =
      (.conditional (.test operand (.notNull (some (captures.nth 1))))
        (.cast castType (.call conversion [.identifier (captures.nth 1)])) .null,
        captures.advance 1) :=
  rfl

/-- What is called where a value has been captured. -/
theorem convertUnlessNull_isOrderly {isCapture : String → Prop}
    {captures : CaptureNames} {operand conversion : Expr} {castType : String}
    {operandNames conversionNames : List String}
    (operandOrderly :
      Answer.IsOrderly isCapture ⟨.expression operand, operandNames⟩)
    (conversionOrderly :
      Answer.IsOrderly isCapture ⟨.expression conversion, conversionNames⟩) :
    Answer.IsOrderly isCapture
      ⟨.expression (convertUnlessNull operand conversion castType captures).1,
        operandNames ++ conversionNames ++ captures.upcoming 1⟩ where
  binds name captured := by
    have first := operandOrderly.binds name captured
    have second := conversionOrderly.binds name captured
    have issued : captures.upcoming 1 = [captures.nth 1] := captures.between_next 0
    have silent : boundAt [.reads (captures.nth 1)] = [] := rfl
    have bound : boundAt [.binds (captures.nth 1)] = [captures.nth 1] := rfl
    simp only [convertUnlessNull_eq, Output.occurrences, Expr.occurrences,
      Expr.occurrencesAmong, Target.Pattern.bound, Option.toList_some,
      List.map_cons, List.map_nil, List.append_nil, Target.boundAt_append,
      List.count_append, issued, silent, bound] at first second ⊢
    omega
  closed := by
    refine Target.Scoped.conditional
      (Target.Scoped.testNotNull (Target.Closed.anywhere operandOrderly.closed))
      (Target.Scoped.cast (Target.Scoped.call
        (Target.Closed.anywhere conversionOrderly.closed) ?_)) Target.scoped_null
    simp only [List.forall_mem_singleton]
    exact Target.scoped_identifier fun _ => by simp

/-- What a history has come to: the session is as many names ahead as have been
issued, its arena is sound, and the answers are in order. -/
structure InOrder (parsed : Arena) (start : CaptureNames) (session : Session)
    (answers : List Answer) (count : Nat) : Prop where
  captures : session.captures = start.advance count
  grows : parsed.Grows session.arena
  sound : session.arena.Sound
  orderly : ∀ answer ∈ answers, answer.IsOrderly start.Makes
  issued : ∀ name,
    (namesFor answers).count name ≤ (start.upcoming count).count name

theorem InOrder.makes {parsed : Arena} {start : CaptureNames} {session : Session}
    {answers : List Answer} {count : Nat}
    (inOrder : InOrder parsed start session answers count) {answer : Answer}
    (member : answer ∈ answers) {name : String} (issued : name ∈ answer.names) :
    start.Makes name := by
  have among : name ∈ namesFor answers :=
    List.mem_flatMap.mpr ⟨answer, member, issued⟩
  have isUpcoming : name ∈ start.upcoming count := List.count_pos_iff.mp
    (Nat.lt_of_lt_of_le (List.count_pos_iff.mpr among) (inOrder.issued name))
  exact CaptureNames.makes_upcoming isUpcoming

section

variable {setting : Setting} {start : Session}

theorem History.inOrder (isNames : setting.expander = names)
    (wellFormed : WellFormed setting.model start.arena)
    (bareOperands : BareOperands setting.model start.arena)
    (noCapture : ∀ text ∈ sourceNames setting.model start.arena,
      ¬ start.captures.Makes text)
    {session : Session} {answers : List Answer} {count : Nat}
    (history : History setting start session answers count) :
    InOrder start.arena start.captures session answers count := by
  induction history with
  | started =>
      exact ⟨by simp, .refl _, wellFormed.sound, nofun, fun _ => by simp [namesFor]⟩
  | @answered session later answers count request output visits _ isParsed run past =>
      obtain ⟨tidy, closed, grows, sound⟩ := run.orderly isNames wellFormed
        bareOperands noCapture isParsed past.grows past.sound
      refine ⟨?_, past.grows.trans grows, sound,
        List.forall_mem_cons.mpr ⟨⟨fun name _ => tidy.binds.count_eq name, closed⟩,
          past.orderly⟩, fun name => ?_⟩
      · rw [tidy.captures, past.captures, CaptureNames.advance_advance]
      · have before := past.issued name
        rw [← CaptureNames.upcoming_append, ← past.captures]
        simp only [namesFor, List.flatMap_cons, List.count_append] at before ⊢
        omega
  | @givenUp session later answers count request error _ isParsed fails past =>
      obtain ⟨extends_, grows, sound⟩ := (Request.continues
        (handsDown_names isNames wellFormed) fun _ => isParsed_of_holds isParsed)
          session ⟨past.grows, past.sound⟩
      rw [fails] at extends_ grows sound
      refine ⟨?_, grows, sound, past.orderly, fun name => ?_⟩
      · rw [← CaptureNames.advance_advance, ← past.captures,
          CaptureNames.advance_difference extends_.stem]
      · rw [← CaptureNames.upcoming_append, List.count_append]
        exact Nat.le_add_right_of_le (past.issued name)
  | @unlessNull session later answers between rest count operand conversion expr
      castType operandNames conversionNames _ operandHanded conversionHanded
      converted past =>
      obtain ⟨rfl, rfl⟩ := succeeds_naming.mp converted
      obtain ⟨operandOrderly, orderlyBetween⟩ :=
        operandHanded.isOrderly past.orderly
      obtain ⟨conversionOrderly, orderlyRest⟩ :=
        conversionHanded.isOrderly orderlyBetween
      refine ⟨?_, past.grows, past.sound, List.forall_mem_cons.mpr
        ⟨convertUnlessNull_isOrderly operandOrderly conversionOrderly,
          orderlyRest⟩, fun name => ?_⟩
      · rw [convertUnlessNull_eq]
        dsimp only
        rw [past.captures, CaptureNames.advance_advance]
      · have before := past.issued name
        rw [operandHanded.count, conversionHanded.count] at before
        rw [← CaptureNames.upcoming_append, ← past.captures]
        simp only [namesFor, List.flatMap_cons, List.count_append] at before ⊢
        omega

/-- In a session that issues fewer names than its 32-bit count can tell, every name
of a capture is bound at most once in all that has been answered, and each answer
binds the names that were issued for it. In every evaluation of an answer a capture
is read only after the pattern that binds it has run and has matched. -/
theorem History.captures_unique_and_scoped (isNames : setting.expander = names)
    (wellFormed : WellFormed setting.model start.arena)
    (bareOperands : BareOperands setting.model start.arena)
    (noCapture : ∀ text ∈ sourceNames setting.model start.arena,
      ¬ start.captures.Makes text)
    {session : Session} {answers : List Answer} {count : Nat}
    (history : History setting start session answers count)
    (few : count < UInt32.size) :
    (∀ name, start.captures.Makes name →
      (placesOf answers).count (.binds name) ≤ 1) ∧
    ∀ answer ∈ answers,
      (∀ name ∈ answer.names, start.captures.Makes name) ∧
      (∀ name, start.captures.Makes name →
        (.binds name ∈ answer.output.occurrences ↔ name ∈ answer.names)) ∧
      answer.output.Closed start.captures.Makes := by
  have inOrder := history.inOrder isNames wellFormed bareOperands noCapture
  refine ⟨fun name captured => ?_, fun answer member =>
    ⟨fun name => inOrder.makes member, fun name captured => ?_,
      (inOrder.orderly answer member).closed⟩⟩
  · rw [count_placesOf inOrder.orderly captured]
    exact Nat.le_trans (inOrder.issued name)
      (List.nodup_iff_count_le_one.mp (CaptureNames.nodup_upcoming few) name)
  · have same := (inOrder.orderly answer member).binds name captured
    rw [Target.count_boundAt] at same
    rw [← List.count_pos_iff, same, List.count_pos_iff]

end

/-- `r = f() = g()`, where `f` and `g` are called for an `Integer?`. -/
def comparedCalls : Setting × Session where
  fst :=
    { model :=
        { ((((({} : Model).bindSymbol (some ⟨0⟩) ⟨0⟩).bindSymbol
            (some ⟨2⟩) ⟨1⟩).setType (some ⟨1⟩)
              (.unconverted .nullableInteger)).setType (some ⟨3⟩)
              (.unconverted .nullableInteger)).setType (some ⟨4⟩)
              (.unconverted .nullableBoolean) with
          symbols := ⟨#[
            ⟨⟨0⟩, "f", .localVariable, {}, none, none, none, none⟩,
            ⟨⟨1⟩, "g", .localVariable, {}, none, none, none, none⟩]⟩ }
      expander := names }
  snd :=
    { arena :=
        { nodes := #[
            { form := .identifier "f" }, { form := .invocation (some ⟨0⟩) [] },
            { form := .identifier "g" }, { form := .invocation (some ⟨2⟩) [] },
            { form := .binary (some ⟨1⟩) .equals (some ⟨3⟩) },
            { form := .identifier "r" },
            { form := .assignment (some ⟨5⟩) (some ⟨4⟩) }] } }

theorem comparedCalls_wellFormed :
    WellFormed comparedCalls.1.model comparedCalls.2.arena := by
  refine ⟨Arena.sound_of_earlier (by decide), fun slot receiver member known => ?_⟩
  have none : comparedCalls.1.model.operation? slot = none := by
    simp [comparedCalls, Model.operation?, Model.bindSymbol, Model.setType]
  rw [none] at known
  cases known

/-- No name of the source looks like a capture. -/
theorem comparedCalls_apart :
    ∀ text ∈ sourceNames comparedCalls.1.model comparedCalls.2.arena,
      ¬ comparedCalls.2.captures.Makes text := by
  have differs : ∀ text ∈ sourceNames comparedCalls.1.model comparedCalls.2.arena,
      ¬ comparedCalls.2.captures.stem.toList <+: text.toList := by
    decide +kernel
  exact fun text member => CaptureNames.not_makes_of_not_prefix (differs text member)

/-- The calls are captured; a conversion is then called on an expression of the
host. -/
theorem comparedCalls_unique_and_scoped :
    let (setting, start) := comparedCalls
    ∃ session answers count,
      History setting start session answers count ∧ count < UInt32.size ∧
      (namesFor answers).length = 3 ∧
      (∀ name, start.captures.Makes name →
        (placesOf answers).count (.binds name) ≤ 1) ∧
      ∀ answer ∈ answers,
        (∀ name ∈ answer.names, start.captures.Makes name) ∧
        (∀ name, start.captures.Makes name →
          (.binds name ∈ answer.output.occurrences ↔ name ∈ answer.names)) ∧
        answer.output.Closed start.captures.Makes := by
  dsimp only
  have wellFormed := comparedCalls_wellFormed
  have bareOperands : BareOperands comparedCalls.1.model comparedCalls.2.arena :=
    bareOperands_of_nodes (by decide +kernel)
  have noCapture := comparedCalls_apart
  have answered : (((Request.statement (some ⟨6⟩)).convert comparedCalls.1
      comparedCalls.2).1.toOption.map fun output =>
        (boundAt output.occurrences).length) = some 2 := by
    decide +kernel
  obtain ⟨output, later, converted⟩ := exists_succeeds (by
    cases outcome : ((Request.statement (some ⟨6⟩)).convert comparedCalls.1
      comparedCalls.2).1 with
    | error => simp [outcome, Except.toOption] at answered
    | ok => rfl)
  obtain ⟨visits, run⟩ :=
    (Request.describes_convert comparedCalls.1 _ _ _ _).mp converted
  have isParsed : comparedCalls.2.arena.holds (some ⟨6⟩) = true := rfl
  have tidy := (run.orderly rfl wellFormed bareOperands noCapture isParsed
    (.refl _) wellFormed.sound).1
  have two : namesIssued visits = 2 := by
    rw [show _ = _ from converted] at answered
    simpa [CaptureNames.upcoming, CaptureNames.between] using
      tidy.binds.length_eq.symm.trans (Option.some.inj answered)
  have host (text : String) (differs : ¬ "arg".toList <+: text.toList) :
      ∀ name, comparedCalls.2.captures.Makes name →
        .reads name ∉ (Expr.identifier text).occurrences ∧
          .binds name ∉ (Expr.identifier text).occurrences := by
    intro name captured
    simp only [Expr.occurrences, List.mem_singleton]
    constructor
    · rintro ⟨⟩
      exact CaptureNames.not_makes_of_not_prefix differs captured
    · rintro ⟨⟩
  have history := History.unlessNull (.answered .started isParsed run)
    (.own (host "x" (by decide)))
    (.own (host "Convert" (by decide)))
    (succeeds_naming.mpr ⟨rfl, rfl⟩ : Succeeds (Conversion.naming
      (convertUnlessNull (.identifier "x") (.identifier "Convert") "int?"))
        later _ _)
  have few : 0 + namesIssued visits + 1 < UInt32.size := by
    rw [two]
    decide
  refine ⟨_, _, _, history, few, ?_, history.captures_unique_and_scoped rfl wellFormed
    bareOperands noCapture few⟩
  simp [namesFor, CaptureNames.upcoming, CaptureNames.between, two]

end BasicLowering.Lowering
