import BasicLowering.Proofs.Source.Sound

/-!
# Origins

A node that replaces another one is made after it and takes over its range. So however
an arena has been made, each origin is an earlier node, and the origins of a node lead to
a parsed node with the same range. Which one that is does not change with what is done
to the arena later.

Children are not looked at here: they may be missing, and may lead in a circle.
-/

namespace BasicLowering.Source

open Relation (ReflTransGen)

namespace Arena

/-- What may be done to an arena. A replacement is made for a node that is there; all
else may be asked for any slot. -/
inductive Edit (before : Arena) : Arena → Prop
  | parsed (form : Form) : Edit before (Building.parsed form before).2
  | add {node : Node} (isParsed : node.origin = none) :
      Edit before (Building.add node before).2
  | synthesize {origin : Slot} (held : before.holds origin = true) (form : Form) :
      Edit before (Building.synthesize origin form before).2
  | withPrependedTrivia (slot : Slot) (trivia : String) :
      Edit before (Building.withPrependedTrivia slot trivia before).2
  | withoutTrivia (slot : Slot) : Edit before (Building.withoutTrivia slot before).2
  | setTrivia (slot : Slot) (trivia : String) :
      Edit before (Building.setTrivia slot trivia before).2

/-- Whether an arena is what becomes of another one, one edit after another. -/
def Becomes : Arena → Arena → Prop :=
  ReflTransGen Edit

variable {before after arena : Arena} {slot : Slot} {node : NodeId}

/-- A function that makes a node over a name that it makes first is two edits. -/
theorem Becomes.named (arena : Arena) (name : String) (form : NodeId → Form) :
    arena.Becomes ((do
      let name ← Building.identifier name
      Building.parsed (form name) : Building NodeId) arena).2 :=
  .tail (.single (.parsed _)) (.parsed _)

example (arena : Arena) (receiver : Slot) (name : String) :
    arena.Becomes (Building.memberAccess receiver name arena).2 :=
  .named arena name (.memberAccess receiver · .simple)

/-! ## Origins precede -/

/-- Whether each origin is a node that is found earlier and has the range of what
replaces it. -/
def OriginsPrecede (arena : Arena) : Prop :=
  ∀ (id origin : NodeId) (node : Node), arena.node? (some id) = some node →
    node.origin = some origin → origin.index < id.index ∧
      ∃ replaced, arena.node? (some origin) = some replaced ∧
        replaced.span = node.span

namespace OriginsPrecede

theorem empty : OriginsPrecede {} := by
  intro id origin node found
  simp [node?] at found

theorem add (precede : arena.OriginsPrecede) {node : Node}
    (replaces : ∀ origin, node.origin = some origin → ∃ replaced,
      arena.node? (some origin) = some replaced ∧ replaced.span = node.span) :
    (arena.add node).2.OriginsPrecede := by
  have grows := arena.grows_add node
  intro id origin found isFound isOrigin
  rw [node?_add] at isFound
  split at isFound
  · next isNew =>
      cases isNew
      cases isFound
      obtain ⟨replaced, isReplaced, sameSpan⟩ := replaces origin isOrigin
      have isEarlier : origin.index < arena.size :=
        Arena.index_lt_of_holds (by rw [holds, isReplaced]; rfl)
      exact ⟨isEarlier, replaced, grows _ _ isReplaced, sameSpan⟩
  · obtain ⟨isEarlier, replaced, isReplaced, sameSpan⟩ :=
      precede id origin found isFound isOrigin
    exact ⟨isEarlier, replaced, grows _ _ isReplaced, sameSpan⟩

/-- A copy of a node takes its place. -/
theorem copies (precede : arena.OriginsPrecede) {made : Slot × Arena}
    (copies : Building.Copies arena slot made) : made.2.OriginsPrecede := by
  cases copies with
  | same => exact precede
  | @copy node found trivia =>
      refine precede.add ?_
      rintro origin rfl
      exact ⟨node, found, rfl⟩

theorem setTrivia (precede : arena.OriginsPrecede) (trivia : String) :
    (arena.setTrivia slot trivia).OriginsPrecede := by
  -- Whatever is found afterwards was there before, but for its trivia.
  have earlier {other : Slot} {node : Node}
      (found : (arena.setTrivia slot trivia).node? other = some node) :
      ∃ old, arena.node? other = some old ∧ old.origin = node.origin ∧
        old.span = node.span := by
    rw [node?_setTrivia] at found
    split at found
    · obtain ⟨old, isOld, rfl⟩ := Option.map_eq_some_iff.mp found
      exact ⟨old, isOld, rfl, rfl⟩
    · exact ⟨node, found, rfl, rfl⟩
  intro id origin node found isOrigin
  obtain ⟨old, isOld, sameOrigin, sameSpan⟩ := earlier found
  obtain ⟨isEarlier, replaced, isReplaced, alike⟩ :=
    precede id origin old isOld (sameOrigin.trans isOrigin)
  refine ⟨isEarlier, ?_⟩
  rw [node?_setTrivia]
  split
  · exact ⟨{ replaced with trivia }, by rw [isReplaced]; rfl, alike.trans sameSpan⟩
  · exact ⟨replaced, isReplaced, alike.trans sameSpan⟩

/-- Origins that precede come to an end. -/
theorem originsEnd (precede : arena.OriginsPrecede) :
    WellFounded arena.IsOrigin := by
  refine Subrelation.wf ?_ (InvImage.wf NodeId.index Nat.lt_wfRel.wf)
  intro origin id isOrigin
  obtain ⟨node, found, replaces⟩ := Option.bind_eq_some_iff.mp isOrigin
  exact (precede id origin node found replaces).1

end OriginsPrecede

/-- Every edit leaves origins that precede. -/
theorem Edit.originsPrecede (edit : Edit before after)
    (precede : before.OriginsPrecede) : after.OriginsPrecede := by
  cases edit with
  | parsed form =>
      refine precede.add fun origin isOrigin => ?_
      cases isOrigin
  | add isParsed =>
      refine precede.add fun origin isOrigin => ?_
      cases isParsed.symm.trans isOrigin
  | @synthesize origin held form =>
      obtain ⟨node, found⟩ := exists_node held
      refine precede.add ?_
      rintro other rfl
      exact ⟨node, found, by rw [found]⟩
  | withPrependedTrivia slot trivia =>
      exact precede.copies (Building.copies_withPrependedTrivia slot trivia before)
  | withoutTrivia slot =>
      exact precede.copies (Building.copies_withoutTrivia slot before)
  | setTrivia slot trivia => exact precede.setTrivia trivia

theorem Becomes.originsPrecede (becomes : Becomes before after)
    (precede : before.OriginsPrecede) : after.OriginsPrecede := by
  induction becomes with
  | refl => exact precede
  | tail _ edit ih => exact edit.originsPrecede ih

/-! ## Origins stay -/

/-- Whether the nodes of one arena are there in another one with the same origins. -/
def KeepsOrigins (before after : Arena) : Prop :=
  ∀ slot, before.holds slot = true →
    after.holds slot = true ∧ after.origin? slot = before.origin? slot

namespace KeepsOrigins

theorem refl (arena : Arena) : arena.KeepsOrigins arena :=
  fun _ held => ⟨held, rfl⟩

theorem trans {between : Arena} (early : before.KeepsOrigins between)
    (late : between.KeepsOrigins after) : before.KeepsOrigins after := by
  intro slot held
  obtain ⟨heldBetween, sameEarly⟩ := early slot held
  obtain ⟨heldAfter, sameLate⟩ := late slot heldBetween
  exact ⟨heldAfter, sameLate.trans sameEarly⟩

theorem ofGrows (grows : before.Grows after) : before.KeepsOrigins after :=
  fun _ held => ⟨grows.holds held, grows.origin?_eq held⟩

theorem setTrivia (arena : Arena) (slot : Slot) (trivia : String) :
    arena.KeepsOrigins (arena.setTrivia slot trivia) := by
  intro other held
  obtain ⟨node, found⟩ := exists_node held
  rw [holds, origin?, origin?, node?_setTrivia]
  split <;> simp [found]

/-- A node goes on standing for the same parsed node. -/
theorem standsFor_eq (keeps : before.KeepsOrigins after)
    (precede : before.OriginsPrecede) (precedeAfter : after.OriginsPrecede)
    (held : before.holds slot = true) :
    after.standsFor slot = before.standsFor slot := by
  cases slot with
  | none => cases held
  | some node =>
      induction node using precede.originsEnd.induction with
      | _ node ih =>
          have same := (keeps _ held).2
          cases replaces : before.origin? (some node) with
          | none =>
              rw [standsFor_of_parsed replaces,
                standsFor_of_parsed (same.trans replaces)]
          | some origin =>
              rw [standsFor_of_origin precede.originsEnd replaces,
                standsFor_of_origin precedeAfter.originsEnd (same.trans replaces)]
              obtain ⟨found, isFound, isOrigin⟩ := Option.bind_eq_some_iff.mp replaces
              obtain ⟨-, replaced, isReplaced, -⟩ :=
                precede node origin found isFound isOrigin
              exact ih origin replaces (by rw [holds, isReplaced]; rfl)

end KeepsOrigins

theorem Edit.keepsOrigins (edit : Edit before after) : before.KeepsOrigins after := by
  cases edit with
  | parsed form | add isParsed | synthesize held form =>
      exact .ofGrows (before.grows_add _)
  | withPrependedTrivia slot trivia =>
      exact .ofGrows (Building.isCopy_withPrependedTrivia before slot trivia).grows
  | withoutTrivia slot =>
      exact .ofGrows (Building.isCopy_withoutTrivia before slot).grows
  | setTrivia slot trivia => exact .setTrivia before slot trivia

theorem Becomes.keepsOrigins (becomes : Becomes before after) :
    before.KeepsOrigins after := by
  induction becomes with
  | refl => exact .refl before
  | tail _ edit ih => exact ih.trans edit.keepsOrigins

/-! ## What a node stands for -/

/-- Whether the origins of a node lead to a parsed node with the range of the node. -/
structure LeadsBack (arena : Arena) (node parsed : NodeId) : Prop where
  origins : ReflTransGen
    (fun node origin => arena.origin? (some node) = some origin) node parsed
  held : arena.holds (some parsed) = true
  isParsed : arena.origin? (some parsed) = none
  sameSpan : (arena.node? (some parsed)).map (·.span) =
    (arena.node? (some node)).map (·.span)

/-- Every node leads back to the one that it is said to stand for. -/
theorem OriginsPrecede.exists_leadsBack (precede : arena.OriginsPrecede)
    (held : arena.holds (some node) = true) :
    ∃ parsed, arena.standsFor (some node) = some parsed ∧
      arena.LeadsBack node parsed := by
  induction node using precede.originsEnd.induction with
  | _ node ih =>
      cases replaces : arena.origin? (some node) with
      | none =>
          exact ⟨node, standsFor_of_parsed replaces, .refl, held, replaces, rfl⟩
      | some origin =>
          obtain ⟨found, isFound, isOrigin⟩ := Option.bind_eq_some_iff.mp replaces
          obtain ⟨-, replaced, isReplaced, sameSpan⟩ :=
            precede node origin found isFound isOrigin
          obtain ⟨parsed, standsFor, back⟩ :=
            ih origin replaces (by rw [holds, isReplaced]; rfl)
          refine ⟨parsed, (standsFor_of_origin precede.originsEnd replaces).trans standsFor,
            .head replaces back.origins, back.held, back.isParsed, ?_⟩
          rw [back.sameSpan, isReplaced, isFound, Option.map_some, Option.map_some,
            sameSpan]

end Arena

/-- A copy stands for what the copied node stands for. -/
theorem Building.IsCopy.standsFor {before after : Arena} {slot copied : Slot}
    (isCopy : Building.IsCopy before after slot copied)
    (originsEnd : WellFounded after.IsOrigin) :
    after.standsFor copied = after.standsFor slot := by
  cases isCopy with
  | same _ => rfl
  | copy found adds =>
      cases slot with
      | none => cases found
      | some origin => exact Arena.standsFor_of_origin originsEnd adds.origin?

namespace Arena

/-- In every arena that is made from the empty one, origins are earlier nodes and lead
from each node to a parsed one with its range, for which it and its replacements and
copies stand, whatever is done later. -/
theorem Becomes.standsFor_settled {arena : Arena} (made : Becomes {} arena) :
    (∀ node origin, arena.origin? (some node) = some origin →
      origin.index < node.index ∧ arena.holds (some origin) = true) ∧
    (∀ node, arena.holds (some node) = true →
      ∃ parsed, arena.standsFor (some node) = some parsed ∧
        arena.LeadsBack node parsed ∧
        arena.standsFor (some parsed) = some parsed) ∧
    (∀ origin form, arena.holds origin = true →
      let (added, later) := Building.synthesize origin form arena
      later.standsFor (some added) = later.standsFor origin) ∧
    (∀ slot trivia,
      let (copy, later) := Building.withPrependedTrivia slot trivia arena
      later.standsFor copy = later.standsFor slot) ∧
    (∀ slot,
      let (copy, later) := Building.withoutTrivia slot arena
      later.standsFor copy = later.standsFor slot) ∧
    ∀ later, Becomes arena later → ∀ slot, arena.holds slot = true →
      later.standsFor slot = arena.standsFor slot := by
  have precede := made.originsPrecede .empty
  refine ⟨?earlier, ?parsed, ?replaced, ?prepended, ?stripped, ?later⟩
  case earlier =>
    intro node origin replaces
    obtain ⟨found, isFound, isOrigin⟩ := Option.bind_eq_some_iff.mp replaces
    obtain ⟨isEarlier, replaced, isReplaced, -⟩ :=
      precede node origin found isFound isOrigin
    exact ⟨isEarlier, by rw [holds, isReplaced]; rfl⟩
  case parsed =>
    intro node held
    obtain ⟨parsed, standsFor, back⟩ := precede.exists_leadsBack held
    exact ⟨parsed, standsFor, back, standsFor_of_parsed back.isParsed⟩
  case replaced =>
    intro origin form held
    have ends := ((Edit.synthesize held form).originsPrecede precede).originsEnd
    have adds := Building.adds_synthesize arena origin form
    cases origin with
    | none => cases held
    | some origin => exact standsFor_of_origin ends adds.origin?
  case prepended =>
    intro slot trivia
    have edit : Edit arena _ := .withPrependedTrivia slot trivia
    exact (Building.isCopy_withPrependedTrivia arena slot trivia).standsFor
      (edit.originsPrecede precede).originsEnd
  case stripped =>
    intro slot
    have edit : Edit arena _ := .withoutTrivia slot
    exact (Building.isCopy_withoutTrivia arena slot).standsFor
      (edit.originsPrecede precede).originsEnd
  case later =>
    intro later becomes slot held
    exact becomes.keepsOrigins.standsFor_eq precede (becomes.originsPrecede precede) held

/-- A name with a blank before it, its copy without the blank, and an access in place of
the copy. -/
def accessForCopy : Arena :=
  ((do
    let name ← Building.identifier "text"
    Building.setTrivia (some name) " "
    let copy ← Building.withoutTrivia (some name)
    let _ ← Building.synthesize copy (.memberAccess copy (some name) .simple)
    return () : Building Unit) {}).2

theorem accessForCopy_standsFor :
    Becomes {} accessForCopy ∧ accessForCopy.standsFor (some ⟨2⟩) = some ⟨0⟩ ∧
      accessForCopy.LeadsBack ⟨2⟩ ⟨0⟩ := by
  have made : Becomes {} accessForCopy :=
    .tail (.tail (.tail (.single (.parsed (.identifier "text")))
        (.setTrivia (some ⟨0⟩) " "))
      (.withoutTrivia (some ⟨0⟩)))
      (.synthesize (show Arena.holds _ (some ⟨1⟩) = true from rfl)
        (.memberAccess (some ⟨1⟩) (some ⟨0⟩) .simple))
  obtain ⟨-, allLeadBack, -⟩ := made.standsFor_settled
  obtain ⟨parsed, standsFor, back, -⟩ := allLeadBack ⟨2⟩ rfl
  obtain rfl : (⟨0⟩ : NodeId) = parsed := Option.some.inj standsFor
  exact ⟨made, standsFor, back⟩

end Arena

end BasicLowering.Source
