import BasicLowering.Proofs.Lowering.Collection

/-!
# Names of captures and names of the source

The names of captures are made from a stem and a number, and from nothing else. A
conversion binds exactly the names that it issues, and reads besides these exactly
the names of the tree. A name of the tree is therefore taken by a capture exactly if
it is the stem followed by one of the numbers that are issued.
-/

namespace BasicLowering.Lowering

open Source
open Target (Expr Occurrence)

/-- The bare names at which a conversion comes by. -/
def namesVisited (visits : List Visit) : List String :=
  visits.filterMap Visit.name?

/-! ## What a conversion accounts for -/

/-- Whether the places at which a result reads and binds names are accounted for by
the visits that have been made: the names of the tree, and the names issued. -/
structure Accounted (session later : Session) (visits : List Visit)
    (places : List Occurrence) : Prop where
  captures : later.captures =
    session.captures.advance (namesIssued visits)
  binds : ∀ name, .binds name ∈ places ↔
    name ∈ session.captures.upcoming (namesIssued visits)
  reads : ∀ name, .reads name ∈ places →
    name ∈ namesVisited visits ∨
      name ∈ session.captures.upcoming (namesIssued visits)
  visited : ∀ name ∈ namesVisited visits, .reads name ∈ places

section

variable {session between later : Session} {visits more : List Visit}
variable {places morePlaces : List Occurrence}

theorem namesVisited_append :
    namesVisited (visits ++ more) = namesVisited visits ++ namesVisited more := by
  simp [namesVisited]

namespace Accounted

theorem append (first : Accounted session between visits places)
    (second : Accounted between later more morePlaces) :
    Accounted session later (visits ++ more) (places ++ morePlaces) := by
  have names := second.binds
  have reads := second.reads
  rw [first.captures] at names reads
  constructor
  · rw [second.captures, first.captures, namesIssued_append,
      CaptureNames.advance_advance]
  · intro name
    rw [namesIssued_append, ← CaptureNames.upcoming_append, List.mem_append,
      List.mem_append, first.binds, names]
  · intro name member
    rw [namesIssued_append, ← CaptureNames.upcoming_append, namesVisited_append,
      List.mem_append, List.mem_append]
    obtain early | late := List.mem_append.mp member
    · exact (first.reads name early).imp .inl .inl
    · exact (reads name late).imp .inr .inr
  · intro name member
    rw [namesVisited_append] at member
    obtain early | late := List.mem_append.mp member
    · exact List.mem_append_left _ (first.visited name early)
    · exact List.mem_append_right _ (second.visited name late)

/-- A node at which no name is issued and that is no name itself. -/
theorem atNode {visit : Visit} (accounted : Accounted session later visits places)
    (noName : visit.name? = none) (none : visit.issued = 0) :
    Accounted session later (visits ++ [visit]) places := by
  have sameCount : namesIssued (visits ++ [visit]) = namesIssued visits := by
    simp [namesIssued, none]
  have sameNames : namesVisited (visits ++ [visit]) = namesVisited visits := by
    simp [namesVisited, noName]
  constructor
  · rw [sameCount]
    exact accounted.captures
  · rw [sameCount]
    exact accounted.binds
  · rw [sameCount, sameNames]
    exact accounted.reads
  · rw [sameNames]
    exact accounted.visited

/-- The start of a session matters only as far as its names are concerned. -/
theorem ofSameNames {first second : Session}
    (accounted : Accounted first later visits places)
    (same : first.captures = second.captures) :
    Accounted second later visits places where
  captures := same ▸ accounted.captures
  binds := same ▸ accounted.binds
  reads := same ▸ accounted.reads
  visited := accounted.visited

theorem collecting : Collecting Accounted where
  nothing session := by
    constructor <;> simp [namesIssued, namesVisited]
  append := append
  atNode := atNode
  atName isName none := by
    constructor <;> simp [namesIssued, namesVisited, isName, none]
  sameNames := ofSameNames

/-- The places of two operands that are put together, and the names issued on the
way. -/
theorem putTogether {arena : Arena} {setting : Setting} {here : Step}
    {loweredLeft loweredRight lowered : Lowered} {captures : CaptureNames}
    {visit : Visit}
    (accounted : Accounted session later visits
      (loweredLeft.expr.occurrences ++ loweredRight.expr.occurrences))
    (counted : captures = later.captures.advance visit.issued)
    (together : PutTogether setting arena here loweredLeft.expr
      loweredRight.expr (later.captures.upcoming visit.issued) lowered.expr)
    (noName : visit.name? = none) :
    Accounted session { later with captures } (visits ++ [visit])
      lowered.expr.occurrences := by
  obtain ⟨left, right, isLeft, isRight, -, assembled⟩ := together
  have issued : namesIssued (visits ++ [visit]) =
      namesIssued visits + visit.issued := by
    simp [namesIssued]
  have visited : namesVisited (visits ++ [visit]) = namesVisited visits := by
    simp [namesVisited, noName]
  have places (place : Occurrence) :
      place ∈ [left, right].flatMap (·.expr.occurrences) ↔
        place ∈ loweredLeft.expr.occurrences ++ loweredRight.expr.occurrences := by
    simp [isLeft, isRight]
  have upcoming : session.captures.upcoming (namesIssued (visits ++ [visit])) =
      session.captures.upcoming (namesIssued visits) ++
        later.captures.upcoming visit.issued := by
    rw [issued, ← CaptureNames.upcoming_append, accounted.captures]
  constructor
  · rw [counted, accounted.captures, issued, CaptureNames.advance_advance]
  · intro name
    rw [upcoming, List.mem_append, assembled.binds_iff, places, accounted.binds]
  · intro name member
    rw [upcoming, visited, List.mem_append]
    obtain occurs | isNew := assembled.of_reads member
    · exact (accounted.reads name ((places _).mp occurs)).imp_right .inl
    · exact .inr (.inr isNew)
  · intro name member
    rw [visited] at member
    exact assembled.reads ((places _).mpr (accounted.visited name member))

end Accounted

end

theorem SlotRun.accounted {setting : Setting} {levels : Nat} {path : Path}
    {qualify : Bool} {slot : Slot} {session later : Session} {lowered : Lowered}
    {visits : List Visit}
    (run : SlotRun setting levels path qualify slot session lowered later
      visits) :
    Accounted session later visits lowered.expr.occurrences := by
  refine SlotRun.ruleInduction (fun _ _ _ session lowered later visits =>
    Accounted session later visits lowered.expr.occurrences) ?_ run
  intro path qualify slot session form issued lowered later below _ _ _ _ _ _ run
  refine (run.collect Accounted.collecting
    (fun _ _ _ _ _ passage => passage.2)
    (fun _ _ _ _ _ _ passage => passage.2) ?_).ofSameNames
      (captures_settleAt setting path qualify slot session)
  rintro _ _ _ _ _ _ _ _ _ _ rfl ⟨-, first⟩ ⟨-, second⟩ counted together
  exact (first.append second).putTogether counted together rfl

/-- A conversion that succeeds binds the names with the next numbers, as many as
it issues, and no other ones. What else it reads are the bare names of the tree,
each of which it does read. A name is thus both a name of the tree and bound by a
pattern exactly if it is the stem followed by one of these numbers. -/
theorem Request.binds_iff_issued {setting : Setting} {request : Request}
    {session later : Session} {output : Output}
    (converted : Succeeds (request.convert setting) session output later) :
    ∃ visits, request.Run setting session output later visits ∧
      later.captures = session.captures.advance (namesIssued visits) ∧
      ∀ name,
        let isIssued := ∃ number, 0 < number ∧ number ≤ namesIssued visits ∧
          name = session.captures.stem ++
            toString (session.captures.issued + UInt32.ofNat number).toNat
        (.binds name ∈ output.occurrences ↔ isIssued) ∧
          (¬ isIssued →
            (.reads name ∈ output.occurrences ↔ name ∈ namesVisited visits)) := by
  obtain ⟨visits, run⟩ := (request.describes_convert setting _ _ _).mp converted
  have accounted := run.collect Accounted.collecting
    fun _ _ _ _ _ _ _ run => run.accounted
  refine ⟨visits, run, accounted.captures, fun name => ⟨?_, ?_⟩⟩
  · rw [accounted.binds]
    exact CaptureNames.upcoming_mem_iff
  · intro notIssued
    constructor
    · intro isRead
      refine (accounted.reads name isRead).resolve_right fun isIssued => ?_
      exact notIssued (CaptureNames.upcoming_mem_iff.mp isIssued)
    · exact accounted.visited name

/-- `r = f() = arg1`, where `f` is called for an `Integer?` and `arg1` is a
local variable of that type. -/
def comparedLocal : Setting × Session where
  fst :=
    { model :=
        { ((((({} : Binding.Model).bindSymbol (some ⟨0⟩) ⟨0⟩).bindSymbol
            (some ⟨2⟩) ⟨1⟩).setType (some ⟨1⟩)
              (.unconverted .nullableInteger)).setType (some ⟨2⟩)
              (.unconverted .nullableInteger)).setType (some ⟨3⟩)
              (.unconverted .nullableBoolean) with
          symbols := ⟨#[
            ⟨⟨0⟩, "f", .localVariable, {}, none, none, none, none⟩,
            ⟨⟨1⟩, "arg1", .localVariable, {}, none, none, none, none⟩]⟩ }
      expander := Qualification.names }
  snd :=
    { arena :=
        { nodes := #[
            { form := .identifier "f" }, { form := .invocation (some ⟨0⟩) [] },
            { form := .identifier "arg1" },
            { form := .binary (some ⟨1⟩) .equals (some ⟨2⟩) },
            { form := .identifier "r" },
            { form := .assignment (some ⟨4⟩) (some ⟨3⟩) }] } }

/-- The name of the local variable is bound to the result of `f`, which is then
compared with itself. -/
theorem localVariable_taken :
    let (setting, session) := comparedLocal
    session.arena.nameText? (some ⟨2⟩) = some "arg1" ∧
      ((Request.statement (some ⟨5⟩)).convert setting
        session).1.toOption.map Output.occurrences =
        some [.reads "r", .reads "f", .binds "arg1", .reads "arg1",
          .reads "arg1", .reads "arg1"] := by
  decide +kernel

theorem comparedLocal_bindsIssued :
    let (setting, session) := comparedLocal
    let request := Request.statement (some ⟨5⟩)
    ∃ output later, Succeeds (request.convert setting) session output later ∧
      ∃ visits, request.Run setting session output later visits ∧
        later.captures = session.captures.advance (namesIssued visits) ∧
        ∀ name,
          let isIssued := ∃ number, 0 < number ∧
            number ≤ namesIssued visits ∧
            name = session.captures.stem ++
              toString (session.captures.issued + UInt32.ofNat number).toNat
          (.binds name ∈ output.occurrences ↔ isIssued) ∧
            (¬ isIssued →
              (.reads name ∈ output.occurrences ↔
                name ∈ namesVisited visits)) := by
  have answered : ((Request.statement (some ⟨5⟩)).convert comparedLocal.1
      comparedLocal.2).1.toOption.isSome = true := by
    decide +kernel
  obtain ⟨output, later, converted⟩ := exists_succeeds answered
  exact ⟨output, later, converted, Request.binds_iff_issued converted⟩

end BasicLowering.Lowering
