import BasicLowering.Proofs.Lowering.Lockstep
import Mathlib.Algebra.Order.BigOperators.Group.List
import Mathlib.Algebra.Order.Group.Nat

/-!
# Conversions do not disturb each other

A session converts one part of a tree after another. Whatever it has converted or given
up before, a part is converted to the same as at the beginning, but for the numbers of
the captures, and asks for the same imports.
-/

namespace BasicLowering.Lowering

open Source Source.Twinning Binding Qualification

/-! ## Histories of requests -/

/-- The session in which some requests have been answered or given up. -/
def Session.after (setting : Setting) (session : Session) (requests : List Request) :
    Session :=
  requests.foldl (fun session request => (request.convert setting session).2) session

section

variable {setting : Setting} {session : Session}

theorem convertSlot_of_missing {slot : Slot} (missing : session.arena.holds slot = false)
    (levels : Nat) (path : Path) (qualify : Bool) :
    convertSlot setting levels path qualify slot session =
      (.error (.missingNode slot), session) := by
  unfold convertSlot
  rw [bind_of_succeeds (succeeds_get.mpr ⟨rfl, rfl⟩)]
  dsimp only
  rw [missing]
  rfl

/-- A request for a node that does not exist is given up at once. -/
theorem Request.convert_of_missing (request : Request) (session : Session)
    (missing : session.arena.holds request.slot = false) :
    request.convert setting session = (.error (.missingNode request.slot), session) := by
  have givenUp {Result Final : Type} {step : Conversion Result} (change : Result → Final)
      (fails : step session = (.error (.missingNode request.slot), session)) :
      (change <$> step) session = (.error (.missingNode request.slot), session) := by
    change ExceptT.map change step session = _
    simp only [ExceptT.map, ExceptT.mk, Bind.bind, StateT.bind, fails]
    rfl
  cases request with
  | statement slot =>
      have noForm : session.arena.form? slot = none := by
        rw [Arena.form?, Option.map_eq_none_iff]
        exact Option.not_isSome_iff_eq_none.mp (Bool.not_eq_true _ ▸ missing)
      exact givenUp _ (bind_of_missing noForm)
  | expression slot => exact givenUp _ (convertSlot_of_missing missing _ _ _)

/-- A session goes on from where it was, and its arena stays well-formed. -/
theorem Request.keeps_wellFormed (isNames : setting.expander = names)
    (wellFormed : WellFormed setting.model session.arena) (request : Request) :
    session.Extends (request.convert setting session).2 ∧
      WellFormed setting.model (request.convert setting session).2.arena := by
  cases held : session.arena.holds request.slot with
  | false =>
      rw [request.convert_of_missing session held]
      exact ⟨.refl session, wellFormed⟩
  | true =>
      obtain ⟨onward, -, sound⟩ := Request.continues (handsDown_names isNames wellFormed)
        (fun _ => isParsed_of_holds held) session ⟨.refl session.arena, wellFormed.sound⟩
      refine ⟨onward, sound, fun slot receiver member attached => ?_⟩
      exact onward.grows.holds (wellFormed.receivers slot receiver member attached)

theorem Session.after_keeps (session : Session) (isNames : setting.expander = names)
    (wellFormed : WellFormed setting.model session.arena) (requests : List Request) :
    session.Extends (session.after setting requests) ∧
      WellFormed setting.model (session.after setting requests).arena := by
  induction requests generalizing session with
  | nil => exact ⟨.refl session, wellFormed⟩
  | cons request rest ih =>
      obtain ⟨early, between⟩ := request.keeps_wellFormed isNames wellFormed
      obtain ⟨late, done⟩ := ih _ between
      exact ⟨early.trans late, done⟩

theorem Session.after_append (session : Session) (earlier later : List Request) :
    session.after setting (earlier ++ later) =
      (session.after setting earlier).after setting later :=
  List.foldl_append

end

/-- What has grown begins with what was there before. -/
theorem nodes_prefix_of_grows {before after : Arena} (grows : before.Grows after) :
    before.nodes.toList <+: after.nodes.toList := by
  rw [List.prefix_iff_getElem?]
  intro index inside
  rw [Array.length_toList] at inside
  have found := grows (some ⟨index⟩) before.nodes[index]
    (by simp [Arena.node?, Array.getElem?_eq_getElem inside])
  simpa [Arena.node?] using found

/-! ## Names that are not used yet -/

/-- There is always a stem that no name begins with. -/
theorem exists_stem_apart (names : List String) :
    ∃ captures : CaptureNames, ∀ text ∈ names, ¬ captures.Makes text := by
  let total := (names.map String.length).sum
  refine ⟨{ stem := String.ofList (List.replicate (total + 1) 'a') }, fun text isName => ?_⟩
  rintro ⟨number, rfl⟩
  have short : _ ≤ total := List.le_sum_of_mem (List.mem_map.mpr ⟨_, isName, rfl⟩)
  rw [String.length_append, String.length_ofList, List.length_replicate] at short
  omega

theorem importsWith_importsWith (asked wanted : List String) :
    importsWith asked (importsWith [] wanted) = importsWith asked wanted := by
  induction wanted using List.reverseRecOn with
  | nil => rfl
  | append_singleton wanted name ih =>
      rw [importsWith_append, importsWith_append asked, ← ih, Session.addImport]
      dsimp only
      split
      · next contained =>
          have isAsked := mem_importsWith asked
            (List.contains_iff_mem.mp contained)
          rw [Session.addImport, if_pos (List.contains_iff_mem.mpr isAsked)]
      · rw [importsWith_append]

/-! ## From the beginning and later -/

/-- The first session starts with the tree, the second one has gone on from it. -/
def Lockstep.starting (model : Model) (tree : Arena) (captures : CaptureNames)
    (second : Session) : Lockstep where
  twinning := ⟨tree, second.arena.size - tree.size, (· ∈ sourceNames model tree)⟩
  captures := captures
  others := second.captures
  asked := second.imports

section

variable {lockstep : Lockstep} {Result Moved : Type} {change : Result → Moved}
variable {step : Conversion Result} {other : Conversion Moved} {first second : Session}

theorem Lockstep.Alike.succeeds
    (alike : lockstep.Alike change (step first) (other second)) {result : Result}
    {later : Session} (ran : Succeeds step first result later) :
    ∃ last, Succeeds other second (change result) last ∧ lockstep.Pair later last := by
  rw [show step first = _ from ran] at alike
  unfold Succeeds
  generalize other second = outcome at alike
  cases alike with
  | succeeded _ pair => exact ⟨_, rfl, pair⟩

theorem Lockstep.Alike.succeeded_before
    (alike : lockstep.Alike change (step first) (other second)) {moved : Moved}
    {last : Session} (ran : Succeeds other second moved last) :
    ∃ result later, Succeeds step first result later ∧ moved = change result ∧
      lockstep.Pair later last := by
  rw [show other second = _ from ran] at alike
  unfold Succeeds
  generalize step first = outcome at alike
  cases alike with
  | succeeded result pair => exact ⟨result, _, rfl, rfl, pair⟩

end

section

variable {setting : Setting} {arena : Arena}
variable (isNames : setting.expander = names)
variable (wellFormed : WellFormed setting.model arena)
variable (knowsOnly : setting.model.KnowsOnly arena)

include isNames wellFormed knowsOnly

/-- Later on a request is answered as at the beginning. -/
theorem Request.alike_from_start {captures : CaptureNames}
    (apart : ∀ text ∈ sourceNames setting.model arena, ¬ captures.Makes text)
    {second : Session} (grows : arena.Grows second.arena) {request : Request}
    (isParsed : IsParsed arena request.slot) :
    (Lockstep.starting setting.model arena captures second).Alike
      (Output.rename (captures.respell second.captures))
      (request.convert setting { arena, captures }) (request.convert setting second) := by
  have pair : (Lockstep.starting setting.model arena captures second).Pair
      { arena, captures } second :=
    { twin := Twin.ofGrows wellFormed.sound grows fun slot text =>
        mem_sourceNames_of_nameText?
      sound := wellFormed.sound
      level := ⟨0, captures.advance_zero.symm, second.captures.advance_zero.symm⟩
      imports := rfl }
  exact Lockstep.matches_convert isNames wellFormed knowsOnly (fun _ => id) apart isParsed
    _ _ pair

/-- Conversions only add nodes behind those that are there. What is converted at the
beginning of a session is converted after any history of requests to the same with the
same imports, where each capture is spelled with its number counted from where the
session stands. The captures are told from the names of the source by an answer in which
they are spelled with marks. -/
theorem Request.convert_after (captures : CaptureNames) :
    let start : Session := { arena, captures }
    (∀ earlier later : List Request,
      (start.after setting earlier).arena.nodes.toList <+:
        (start.after setting (earlier ++ later)).arena.nodes.toList) ∧
    ∀ (request : Request) (output : Output) (first : Session),
      Succeeds (request.convert setting) start output first →
      ∃ (marks : CaptureNames) (marked : Output) (ending : Session),
        (∀ text ∈ sourceNames setting.model arena, ¬ marks.Makes text) ∧
        Succeeds (request.convert setting) { arena, captures := marks } marked ending ∧
        output = marked.rename (marks.respell captures) ∧
        ∀ requests : List Request,
          let before := start.after setting requests
          ∃ (count : Nat) (moved : Output) (last : Session),
            before.captures = captures.advance count ∧
            Succeeds (request.convert setting) before moved last ∧
            moved = marked.rename (marks.respell (captures.advance count)) ∧
            ((∀ text ∈ sourceNames setting.model arena, ¬ captures.Makes text) →
              moved = output.rename (captures.respell (captures.advance count))) ∧
            last.imports = importsWith before.imports first.imports := by
  intro start
  refine ⟨fun earlier later => ?_, fun request output first ran => ?_⟩
  · have wellFormedThere := (start.after_keeps isNames wellFormed earlier).2
    rw [start.after_append]
    exact nodes_prefix_of_grows
      ((start.after setting earlier).after_keeps isNames wellFormedThere later).1.grows
  · have isParsed : IsParsed arena request.slot := by
      cases held : arena.holds request.slot with
      | true => exact isParsed_of_holds held
      | false =>
          rw [Succeeds, request.convert_of_missing start held] at ran
          cases ran
    obtain ⟨marks, apart⟩ := exists_stem_apart (sourceNames setting.model arena)
    have fromMarks {second : Session} (grows : arena.Grows second.arena) :=
      Request.alike_from_start isNames wellFormed knowsOnly apart grows isParsed
    obtain ⟨marked, ending, ranMarked, sameOutput, pair⟩ :=
      (fromMarks (.refl start.arena)).succeeded_before ran
    refine ⟨marks, marked, ending, apart, ranMarked, sameOutput, fun requests => ?_⟩
    have onward := (start.after_keeps isNames wellFormed requests).1
    have sameCaptures := CaptureNames.advance_difference onward.stem
    obtain ⟨last, ranLater, pairLater⟩ := (fromMarks onward.grows).succeeds ranMarked
    refine ⟨_, _, last, sameCaptures.symm, ranLater, ?_, fun noSource => ?_, ?_⟩
    · rw [sameCaptures]
    · have fromStart := Request.alike_from_start isNames wellFormed knowsOnly noSource
        onward.grows isParsed
      obtain ⟨_, ranDirectly, -⟩ := fromStart.succeeds ran
      have same := (show _ = _ from ranLater).symm.trans ranDirectly
      rw [sameCaptures]
      exact Except.ok.inj (Prod.mk.inj same).1
    · have sameImports : first.imports = importsWith [] ending.imports := pair.imports
      rw [sameImports, importsWith_importsWith]
      exact pairLater.imports

end

/-- A request that is given up, and two that are answered. -/
def requestsBefore : List Request :=
  [.statement (some ⟨9⟩), .statement (some ⟨6⟩), .expression (some ⟨4⟩)]

/-- The comparison is converted once more when four names have been issued. -/
theorem comparedCalls_convertedAgain :
    let (setting, start) := comparedCalls
    let before := start.after setting requestsBefore
    let request : Request := .statement (some ⟨6⟩)
    WellFormed setting.model start.arena ∧ setting.model.KnowsOnly start.arena ∧
      start.arena.nodes.toList <+: before.arena.nodes.toList ∧
      ∃ (output moved : Output) (first last : Session),
        Succeeds (request.convert setting) start output first ∧
        Succeeds (request.convert setting) before moved last ∧
        moved = output.rename (start.captures.respell (start.captures.advance 4)) ∧
        last.imports = importsWith before.imports first.imports := by
  have wellFormed := comparedCalls_wellFormed
  have knowsOnly : comparedCalls.1.model.KnowsOnly comparedCalls.2.arena :=
    ⟨by decide +kernel, by decide +kernel, by decide +kernel⟩
  have answered : (((Request.statement (some ⟨6⟩)).convert comparedCalls.1
      comparedCalls.2).1.toOption).isSome = true := by
    decide +kernel
  obtain ⟨output, first, ran⟩ := exists_succeeds answered
  have fourIssued : (comparedCalls.2.after comparedCalls.1 requestsBefore).captures =
      comparedCalls.2.captures.advance 4 := by
    have sameStem : (comparedCalls.2.after comparedCalls.1 requestsBefore).captures.stem =
        "arg" := by
      decide +kernel
    have four : (comparedCalls.2.after comparedCalls.1 requestsBefore).captures.issued =
        4 := by
      decide +kernel
    exact congrArg₂ CaptureNames.mk sameStem four
  obtain ⟨onlyAdds, repeats⟩ :=
    Request.convert_after rfl wellFormed knowsOnly comparedCalls.2.captures
  obtain ⟨marks, marked, ending, -, -, -, later⟩ := repeats _ _ _ ran
  obtain ⟨count, moved, last, isCount, ranLater, -, directly, imports⟩ :=
    later requestsBefore
  refine ⟨wellFormed, knowsOnly, onlyAdds [] requestsBefore, output, moved, first, last, ran,
    ranLater, ?_, imports⟩
  rw [directly comparedCalls_apart, ← isCount]
  exact congrArg (fun others => output.rename (comparedCalls.2.captures.respell others))
    fourIssued

end BasicLowering.Lowering
