import BasicLowering.Analysis.BooleanContext
import BasicLowering.Proofs.Analysis.Purity
import BasicLowering.Proofs.Source.Place

/-!
# Collapsing null in a condition

The search for Boolean contexts promises that a null value may be replaced by
`False` where it says so. Whoever reads the condition then notices nothing: the
condition holds as before, and the same operands with effects are evaluated.

The promise is kept through parentheses, `AndAlso` and `OrElse`. It is broken by
`=` and `<>`, which tell null from `False`, and by the left side of an `AndAlso`
that goes on to an operand with effects. The search looks out for the second
case, but only where that side stands without parentheses.
-/

namespace BasicLowering.Analysis

open Source Binding Semantics

variable {Label Event : Type} {model : Model} {arena : Arena}

/-! ## What is noticed -/

/-- What evaluating a node leaves behind: nothing if the node is pure. -/
def noteImpure (model : Model) (arena : Arena) (node : NodeId) : List NodeId :=
  if isPure model arena (some node) then [] else [node]

/-- An expression of logical operators and comparisons that is the condition of
a statement. -/
structure IsCondition (model : Model) (arena : Arena) (statement : Slot)
    (tree : Source.Tree Label) : Prop where
  asked : ∃ kind,
    arena.form? statement = some (.conditionStatement kind tree.slot)
  held : tree.HeldBy model arena
  logical : tree.IsLogical
  distinct : tree.nodes.Nodup

/-- Whether null may be replaced by `False` in a part of a condition. Whatever
the operands are, the condition holds as before, and the same impure nodes are
evaluated in the same order. -/
def CollapseUnnoticed (model : Model) (arena : Arena) (place : Place Label)
    (part : Source.Tree Label) : Prop :=
  ∀ values,
    let noted := noteImpure model arena
    let whole := (place.plug part).run noted values
    let changed :=
      place.resume noted values (part.run noted values).collapse
    changed.value.isTrue = whole.value.isTrue ∧ changed.events = whole.events

/-- A pure expression is evaluated without a trace. -/
theorem events_run_of_isPure (values : NodeId → Value) {tree : Source.Tree Label}
    (held : tree.HeldBy model arena) (distinct : tree.nodes.Nodup)
    (pure : isPure model arena tree.slot = true) :
    (tree.run (noteImpure model arena) values).events = [] :=
  events_run_eq_nil values fun node member =>
    if_pos (isPure_of_mem_nodes held distinct pure node member)

/-! ## Frames -/

end BasicLowering.Analysis

namespace BasicLowering.Source.Frame

open Binding Analysis

variable {Label : Type}

/-- Whether the frame is one side of `=` or `<>`. -/
def isEqualitySide : Frame Label → Bool
  | leftOperand _ operator _ | rightOperand _ _ operator =>
      operator == .equals || operator == .notEquals
  | _ => false

/-- Whether the frame leaves out nothing but pure operands where the part in it
is false and not null. -/
def leavesOutOnlyPure (model : Model) (arena : Arena) : Frame Label → Bool
  | leftOperand _ .andAlso right => isPure model arena right.slot
  | _ => true

/-- Whether the search for a Boolean context goes on outside the frame. -/
def isSearched : Frame Label → Bool
  | parenthesized _ => true
  | leftOperand _ operator _ | rightOperand _ _ operator =>
      operator == .andAlso || operator == .orElse || operator == .equals ||
        operator == .notEquals
  | _ => false

end BasicLowering.Source.Frame

namespace BasicLowering.Analysis

open Source Binding Semantics

variable {Label Event : Type} {model : Model} {arena : Arena}

/-- The search enters a frame only if it is a searched one, and goes on outside
it. Parentheses leave the slot in question as it is. -/
theorem canConvertToBoolean_frame {frame : Frame Label} {part : Source.Tree Label}
    {slot : Slot} {outer : Path}
    (held : (frame.plug part).HeldBy model arena)
    (logical : (frame.plug part).IsLogical)
    (can : canConvertToBoolean model arena
      (.unchanged (some frame.node) :: outer) slot = true) :
    frame.isSearched = true ∧
      ((∃ node, frame = .parenthesized node) ∧
          canConvertToBoolean model arena outer slot = true ∨
        (∀ inner : Source.Tree Label, (frame.plug inner).core = frame.plug inner) ∧
          canConvertToBoolean model arena outer (some frame.node) = true ∧
          (frame.leavesOutOnlyPure model arena = true ∨
            (∃ node right, frame = .leftOperand node .andAlso right) ∧
              slot ≠ arena.skipParens part.slot)) := by
  cases frame with
  | parenthesized node =>
      have wrapped : arena.isParenthesized (some node) = true := by
        simp [Arena.isParenthesized, held.1]
      refine ⟨rfl, .inl ⟨⟨node, rfl⟩, ?_⟩⟩
      simpa [canConvertToBoolean, Step.unchanged, Frame.node, wrapped] using can
  | negation node =>
      simp [canConvertToBoolean, Step.unchanged, Frame.node,
        Arena.isParenthesized, asksForTruth, Arena.binary?, held.1] at can
  | leftOperand node operator right =>
      have passed : canConvertToBoolean model arena outer (some node) = true ∧
          passesCollapse model arena part.slot operator right.slot slot =
            true := by
        simpa [canConvertToBoolean, Step.unchanged, Frame.node,
          Arena.isParenthesized, asksForTruth, Arena.binary?, held.1] using can
      cases operator <;> simp [passesCollapse] at passed <;>
        simp [Frame.isSearched, Frame.leavesOutOnlyPure, Frame.plug, Tree.core,
          Frame.node, passed, or_comm]
  | rightOperand node left operator =>
      have passed : canConvertToBoolean model arena outer (some node) = true ∧
          passesCollapse model arena left.slot operator part.slot slot =
            true := by
        simpa [canConvertToBoolean, Step.unchanged, Frame.node,
          Arena.isParenthesized, asksForTruth, Arena.binary?, held.1] using can
      cases operator <;> simp [passesCollapse] at passed <;>
        simp [Frame.isSearched, Frame.leavesOutOnlyPure, Frame.plug, Tree.core,
          Frame.node, passed]
  | ternaryTest | trueBranch | falseBranch => exact logical.elim

/-- Around a part without parentheses, every frame is a searched one and leaves
out only what is pure. -/
theorem searched_of_canConvertToBoolean_core (place : Place Label)
    {part : Source.Tree Label} {above : Path}
    (held : (place.plug part).HeldBy model arena)
    (logical : (place.plug part).IsLogical)
    (distinct : (place.plug part).nodes.Nodup)
    (can : canConvertToBoolean model arena (place.path above)
      part.core.slot = true) :
    ∀ frame ∈ place, frame.isSearched = true ∧
      frame.leavesOutOnlyPure model arena = true := by
  induction place generalizing part with
  | nil =>
      intro frame member
      cases member
  | cons frame outer ih =>
      have frameHeld : (frame.plug part).HeldBy model arena :=
        Place.heldBy_of_plug outer held
      have partDistinct : part.nodes.Nodup :=
        Place.nodup_of_plug (frame :: outer) distinct
      have skipped : arena.skipParens part.slot = part.core.slot :=
        (Frame.heldBy_of_plug frameHeld).skipParens partDistinct
      obtain ⟨searched, parenthesized | operator⟩ := canConvertToBoolean_frame
        frameHeld (Place.isLogical_of_plug outer logical) can
      · obtain ⟨⟨node, rfl⟩, canOutside⟩ := parenthesized
        intro other member
        rcases List.mem_cons.mp member with rfl | inOuter
        · exact ⟨searched, rfl⟩
        · exact ih held logical distinct canOutside other inOuter
      · obtain ⟨bare, canOutside, onlyPure | ⟨-, apart⟩⟩ := operator
        · have canAround : canConvertToBoolean model arena
              (Place.path outer above) (frame.plug part).core.slot = true := by
            rw [bare, Tree.slot, Frame.root_plug]
            exact canOutside
          intro other member
          rcases List.mem_cons.mp member with rfl | inOuter
          · exact ⟨searched, onlyPure⟩
          · exact ih held logical distinct canAround other inOuter
        · exact absurd skipped.symm apart

/-- Whether the nearest operator around a part, parentheses aside, is an
`AndAlso` with the part on its left and an impure operand on its right. -/
def leadsToNoticedSkip (model : Model) (arena : Arena) : Place Label → Bool
  | .parenthesized _ :: outer => leadsToNoticedSkip model arena outer
  | .leftOperand _ .andAlso right :: _ => !isPure model arena right.slot
  | _ => false

/-- Around any part, every frame is a searched one, and only the nearest
operator can leave out what is impure. -/
theorem searched_of_canConvertToBoolean {place : Place Label}
    {part : Source.Tree Label} {above : Path} {slot : Slot}
    (held : (place.plug part).HeldBy model arena)
    (logical : (place.plug part).IsLogical)
    (distinct : (place.plug part).nodes.Nodup)
    (can : canConvertToBoolean model arena (place.path above) slot = true) :
    (∀ frame ∈ place, frame.isSearched = true) ∧
      ((∀ frame ∈ place, frame.leavesOutOnlyPure model arena = true) ∨
        leadsToNoticedSkip model arena place = true) := by
  induction place generalizing part with
  | nil => simp
  | cons frame outer ih =>
      obtain ⟨searched, parenthesized | operator⟩ := canConvertToBoolean_frame
        (Place.heldBy_of_plug outer held) (Place.isLogical_of_plug outer logical)
        can
      · obtain ⟨⟨node, rfl⟩, canOutside⟩ := parenthesized
        obtain ⟨outerSearched, onlyPure | skips⟩ :=
          ih held logical distinct canOutside
        · exact ⟨List.forall_mem_cons.mpr ⟨searched, outerSearched⟩,
            .inl (List.forall_mem_cons.mpr ⟨rfl, onlyPure⟩)⟩
        · exact ⟨List.forall_mem_cons.mpr ⟨searched, outerSearched⟩,
            .inr skips⟩
      · obtain ⟨bare, canOutside, passed⟩ := operator
        have canAround : canConvertToBoolean model arena
            (Place.path outer above) (frame.plug part).core.slot = true := by
          rw [bare, Tree.slot, Frame.root_plug]
          exact canOutside
        have around := searched_of_canConvertToBoolean_core outer held logical
          distinct canAround
        refine ⟨List.forall_mem_cons.mpr
          ⟨searched, fun other member => (around other member).1⟩, ?_⟩
        cases pure : frame.leavesOutOnlyPure model arena with
        | true =>
            exact .inl (List.forall_mem_cons.mpr
              ⟨pure, fun other member => (around other member).2⟩)
        | false =>
            rcases passed with onlyPure | ⟨⟨node, right, rfl⟩, -⟩
            · rw [pure] at onlyPure
              cases onlyPure
            · have impure : isPure model arena right.slot = false := pure
              exact .inr (by simp only [leadsToNoticedSkip, impure, Bool.not_false])

/-! ## Where nothing is noticed -/

/-- The second evaluation differs from the first at most in that null has been
replaced by `False`. -/
def CollapsesTo (first second : Outcome Event) : Prop :=
  (second.value = first.value ∨ second.value = first.value.collapse) ∧
    second.events = first.events

/-- A searched frame that is no equality and leaves out only what is pure makes
no more of the replacement of null. -/
theorem collapsesTo_resume {frame : Frame Label} {part : Source.Tree Label}
    (held : (frame.plug part).HeldBy model arena)
    (distinct : (frame.plug part).nodes.Nodup)
    (searched : frame.isSearched = true)
    (noEquality : frame.isEqualitySide = false)
    (onlyPure : frame.leavesOutOnlyPure model arena = true)
    (values : NodeId → Value) {first second : Outcome NodeId}
    (collapses : CollapsesTo first second) :
    CollapsesTo (frame.resume (noteImpure model arena) values first)
      (frame.resume (noteImpure model arena) values second) := by
  obtain ⟨first, events⟩ := first
  obtain ⟨second, secondEvents⟩ := second
  obtain ⟨sameValue | collapsed, sameEvents⟩ := collapses
  · cases sameValue
    cases sameEvents
    exact ⟨.inl rfl, rfl⟩
  obtain rfl : second = first.collapse := collapsed
  cases sameEvents
  cases frame with
  | parenthesized node => exact ⟨.inr rfl, rfl⟩
  | leftOperand node operator right =>
      cases operator <;> simp [Frame.isSearched, Frame.isEqualitySide]
        at searched noEquality
      · have rightSilent : (right.run (noteImpure model arena) values).events =
            [] := by
          have below := List.nodup_append.mp (List.nodup_cons.mp distinct).2
          exact events_run_of_isPure values held.2.2.2 below.2.1 onlyPure
        simp only [CollapsesTo, Frame.resume, Outcome.after, Outcome.binary,
          rightSilent, List.append_nil, ite_self, combine, and_true]
        exact Value.conj_collapse_left first _
      · simp only [CollapsesTo, Frame.resume, Outcome.after, Outcome.binary,
          combine, skipsRight_orElse_collapse, and_true]
        exact Value.disj_collapse_left first _
  | rightOperand node left operator =>
      cases operator <;> simp [Frame.isSearched, Frame.isEqualitySide]
        at searched noEquality
      · simp only [CollapsesTo, Frame.resume, Outcome.after, Outcome.binary,
          combine, and_true]
        rw [Value.conj_comm _ first, Value.conj_comm _ first.collapse]
        exact Value.conj_collapse_left first _
      · simp only [CollapsesTo, Frame.resume, Outcome.after, Outcome.binary,
          combine, and_true]
        rw [Value.disj_comm _ first, Value.disj_comm _ first.collapse]
        exact Value.disj_collapse_left first _
  | negation | ternaryTest | trueBranch | falseBranch => cases searched

/-- The same for a whole place. -/
theorem collapsesTo_resume_place {place : Place Label} {part : Source.Tree Label}
    (held : (place.plug part).HeldBy model arena)
    (distinct : (place.plug part).nodes.Nodup)
    (searched : ∀ frame ∈ place, frame.isSearched = true)
    (noticesNothing : ∀ frame ∈ place, frame.isEqualitySide = false ∧
      frame.leavesOutOnlyPure model arena = true)
    (values : NodeId → Value) {first second : Outcome NodeId}
    (collapses : CollapsesTo first second) :
    CollapsesTo (place.resume (noteImpure model arena) values first)
      (place.resume (noteImpure model arena) values second) := by
  induction place generalizing part first second with
  | nil => exact collapses
  | cons frame outer ih =>
      obtain ⟨frameSearched, outerSearched⟩ := List.forall_mem_cons.mp searched
      obtain ⟨⟨noEquality, onlyPure⟩, outerNotices⟩ :=
        List.forall_mem_cons.mp noticesNothing
      have frameHeld : (frame.plug part).HeldBy model arena :=
        Place.heldBy_of_plug outer held
      have frameDistinct : (frame.plug part).nodes.Nodup :=
        Place.nodup_of_plug outer distinct
      exact ih held distinct outerSearched outerNotices
        (collapsesTo_resume frameHeld frameDistinct frameSearched noEquality
          onlyPure values collapses)

/-! ## Where something is noticed -/

/-- A frame in which all other operands are null is null around null, and has a
trace of its own after the trace of its part. -/
theorem fewer_events_resume (noted : NodeId → List Event)
    {frame : Frame Label} {part : Source.Tree Label}
    (logical : (frame.plug part).IsLogical) {first second : Outcome Event}
    (firstNull : first.value = .null)
    (fewer : second.events.length < first.events.length) :
    (frame.resume noted (fun _ => .null) first).value = .null ∧
      (frame.resume noted (fun _ => .null) second).events.length <
        (frame.resume noted (fun _ => .null) first).events.length := by
  cases frame with
  | parenthesized node =>
      exact ⟨firstNull, by simpa [Frame.resume, Outcome.after] using fewer⟩
  | negation node =>
      refine ⟨by simp [Frame.resume, Outcome.after, Outcome.negation, firstNull,
        Value.negate], ?_⟩
      simpa [Frame.resume, Outcome.after, Outcome.negation] using fewer
  | leftOperand node operator right =>
      have rightNull := right.value_null logical.2.2
      simp only [Frame.resume, Outcome.after, Outcome.binary, firstNull,
        Tree.value_run, rightNull, combine_null logical.1, skipsRight_null,
        true_and]
      split <;> simp <;> omega
  | rightOperand node left operator =>
      have leftNull := left.value_null logical.2.1
      simp only [Frame.resume, Outcome.after, Outcome.binary, firstNull,
        Tree.value_run, leftNull, combine_null logical.1, skipsRight_null,
        true_and]
      simpa using fewer
  | ternaryTest | trueBranch | falseBranch => exact logical.elim

theorem fewer_events_resume_place {noted : NodeId → List Event}
    (place : Place Label) {part : Source.Tree Label}
    (logical : (place.plug part).IsLogical) {first second : Outcome Event}
    (firstNull : first.value = .null)
    (fewer : second.events.length < first.events.length) :
    (place.resume noted (fun _ => .null) second).events.length <
      (place.resume noted (fun _ => .null) first).events.length := by
  induction place generalizing part first second with
  | nil => exact fewer
  | cons frame outer ih =>
      have frameLogical : (frame.plug part).IsLogical :=
        Place.isLogical_of_plug outer logical
      obtain ⟨stillNull, stillFewer⟩ :=
        fewer_events_resume noted frameLogical firstNull fewer
      exact ih logical stillNull stillFewer

/-- Where the nearest operator leaves out an impure operand, replacing null by
`False` is noticed: with all other operands null, less is evaluated. -/
theorem fewer_events_of_leadsToNoticedSkip {place : Place Label}
    {part : Source.Tree Label} (logical : (place.plug part).IsLogical)
    (skips : leadsToNoticedSkip model arena place = true)
    {first second : Outcome NodeId} (firstNull : first.value = .null)
    (secondFalse : second.value = .boolean false)
    (sameEvents : second.events = first.events) :
    (place.resume (noteImpure model arena) (fun _ => .null)
        second).events.length <
      (place.resume (noteImpure model arena) (fun _ => .null)
        first).events.length := by
  induction place generalizing part first second with
  | nil => cases skips
  | cons frame outer ih =>
      cases frame with
      | parenthesized node =>
          exact ih logical skips firstNull secondFalse
            (congrArg (noteImpure model arena node ++ ·) sameEvents)
      | leftOperand node operator right =>
          cases operator <;> try cases skips
          have impure : isPure model arena right.slot = false := by
            simpa [leadsToNoticedSkip] using skips
          have frameLogical := Place.isLogical_of_plug outer logical
          have rightNull := right.value_null frameLogical.2.2
          have rightNoted : 0 < (right.run (noteImpure model arena)
              fun _ => .null).events.length := by
            have noted := right.noted_root_prefix (noteImpure model arena)
              fun _ => .null
            have reported : noteImpure model arena right.root = [right.root] :=
              if_neg (by rw [← Tree.slot, impure]; exact Bool.false_ne_true)
            exact (reported ▸ noted).length_le
          refine fewer_events_resume_place outer logical ?_ ?_
          · simp [Frame.resume, Outcome.after, Outcome.binary, firstNull,
              rightNull, combine, Value.conj]
          · simp [Frame.resume, Outcome.after, Outcome.binary, firstNull,
              secondFalse, sameEvents, skipsRight]
            exact rightNoted
      | _ => cases skips

/-- The other operand with which an operator passes null and a truth value on,
save that an equality comes out true. -/
def steeringTruth : BinaryOperator → Bool → Bool
  | .andAlso, _ => true
  | .equals, start => start
  | .notEquals, start => !start
  | _, _ => false

theorem combine_steeringTruth {operator : BinaryOperator}
    (searched : (operator == .andAlso || operator == .orElse ||
      operator == .equals || operator == .notEquals) = true) (start : Bool) :
    let other := Value.boolean (steeringTruth operator start)
    let passed := Value.boolean
      (start || (operator == .equals || operator == .notEquals))
    (combine operator .null other = .null ∧
        combine operator (.boolean start) other = passed) ∧
      combine operator other .null = .null ∧
        combine operator other (.boolean start) = passed := by
  cases operator with
  | andAlso | orElse | equals | notEquals => cases start <;> decide
  | _ => cases searched

/-- The other operand of a searched frame can be chosen such that null stays
null and a truth value stays what it is, or becomes true at an equality. -/
theorem exists_values_frame (noted : NodeId → List Event)
    {frame : Frame Label} {part : Source.Tree Label}
    (logical : (frame.plug part).IsLogical)
    (distinct : (frame.plug part).nodes.Nodup)
    (searched : frame.isSearched = true) (start : Bool) :
    ∃ values, ∀ outcome : Outcome Event,
      (outcome.value = .null →
        (frame.resume noted values outcome).value = .null) ∧
      (outcome.value = .boolean start →
        (frame.resume noted values outcome).value =
          .boolean (start || frame.isEqualitySide)) := by
  cases frame with
  | parenthesized node =>
      refine ⟨fun _ => .null, fun outcome => ⟨id, fun isStart => ?_⟩⟩
      simpa only [Frame.resume, Outcome.after, Frame.isEqualitySide,
        Bool.or_false] using isStart
  | leftOperand node operator right =>
      have below := List.nodup_append.mp (List.nodup_cons.mp distinct).2
      obtain ⟨values, rightValue⟩ := right.exists_values logical.2.2
        below.2.1 (steeringTruth operator start)
      obtain ⟨⟨fromNull, fromStart⟩, -⟩ := combine_steeringTruth searched start
      refine ⟨values, fun outcome => ⟨fun isNull => ?_, fun isStart => ?_⟩⟩
      · simpa only [Frame.resume, Outcome.after, Outcome.binary, isNull,
          Tree.value_run, rightValue] using fromNull
      · simpa only [Frame.resume, Outcome.after, Outcome.binary, isStart,
          Tree.value_run, rightValue, Frame.isEqualitySide] using fromStart
  | rightOperand node left operator =>
      have below := List.nodup_append.mp (List.nodup_cons.mp distinct).2
      obtain ⟨values, leftValue⟩ := left.exists_values logical.2.1
        below.1 (steeringTruth operator start)
      obtain ⟨-, fromNull, fromStart⟩ := combine_steeringTruth searched start
      refine ⟨values, fun outcome => ⟨fun isNull => ?_, fun isStart => ?_⟩⟩
      · simpa only [Frame.resume, Outcome.after, Outcome.binary, isNull,
          Tree.value_run, leftValue] using fromNull
      · simpa only [Frame.resume, Outcome.after, Outcome.binary, isStart,
          Tree.value_run, leftValue, Frame.isEqualitySide] using fromStart
  | negation | ternaryTest | trueBranch | falseBranch => cases searched

/-- The other operands of a place can be chosen such that null stays null, and
a truth value becomes true once it passes an equality. -/
theorem exists_values_place (noted : NodeId → List Event)
    {place : Place Label} {part : Source.Tree Label}
    (logical : (place.plug part).IsLogical)
    (distinct : (place.plug part).nodes.Nodup)
    (searched : ∀ frame ∈ place, frame.isSearched = true) (start : Bool) :
    ∃ values, ∀ outcome : Outcome Event,
      (outcome.value = .null →
        (place.resume noted values outcome).value = .null) ∧
      (outcome.value = .boolean start →
        (place.resume noted values outcome).value =
          .boolean (start || place.any Frame.isEqualitySide)) := by
  induction place generalizing part start with
  | nil =>
      refine ⟨fun _ => .null, fun outcome => ⟨id, fun isStart => ?_⟩⟩
      simpa only [Place.resume, List.any_nil, Bool.or_false] using isStart
  | cons frame outer ih =>
      obtain ⟨frameSearched, outerSearched⟩ := List.forall_mem_cons.mp searched
      obtain ⟨frameValues, frameSteers⟩ := exists_values_frame noted
        (Place.isLogical_of_plug outer logical)
        (Place.nodup_of_plug outer distinct) frameSearched start
      obtain ⟨outerValues, outerSteers⟩ :=
        ih logical distinct outerSearched (start || frame.isEqualitySide)
      have apart : ∀ node ∈ Place.nodes outer, node ∉ frame.nodes :=
        fun node inOuter inFrame =>
          Place.not_mem_nodes_of_nodup_plug outer distinct
            (Frame.mem_nodes_plug inFrame) inOuter
      let values := override frame.nodes frameValues outerValues
      have frameAgrees := frame.resume_congr noted values frameValues
        fun node member => override_of_mem frameValues outerValues member
      have outerAgrees := Place.resume_congr noted outer values outerValues
        fun node member => override_of_not_mem frameValues outerValues
          (apart node member)
      refine ⟨values, fun outcome => ?_⟩
      simp only [Place.resume, frameAgrees, outerAgrees, List.any_cons]
      obtain ⟨frameNull, frameStart⟩ := frameSteers outcome
      obtain ⟨outerNull, outerStart⟩ :=
        outerSteers (frame.resume noted frameValues outcome)
      refine ⟨fun isNull => outerNull (frameNull isNull), fun isStart => ?_⟩
      rw [← Bool.or_assoc]
      exact outerStart (frameStart isStart)

/-! ## The promise -/

/-- Where the search says that null counts as false, replacing null by `False`
goes unnoticed exactly if no `=` or `<>` stands around the part, and no
`AndAlso` with the part on its left goes on to an impure operand. -/
theorem collapseUnnoticed_iff {statement : Slot} {place : Place Label}
    {part : Source.Tree Label}
    (condition : IsCondition model arena statement (place.plug part))
    (can : canConvertToBoolean model arena
      (place.path [.unchanged statement]) part.slot = true) :
    CollapseUnnoticed model arena place part ↔
      ∀ frame ∈ place, frame.isEqualitySide = false ∧
        frame.leavesOutOnlyPure model arena = true := by
  obtain ⟨-, held, logical, distinct⟩ := condition
  obtain ⟨searched, onlyPure⟩ :=
    searched_of_canConvertToBoolean held logical distinct can
  constructor
  · intro unnoticed frame member
    have noEquality : ∀ frame ∈ place, frame.isEqualitySide = false := by
      obtain ⟨outside, steers⟩ := exists_values_place (noteImpure model arena)
        logical distinct searched false
      let values := override part.nodes (fun _ => .null) outside
      have partNull : (part.run (noteImpure model arena) values).value =
          .null := by
        rw [Tree.value_run, part.value_congr values (fun _ => .null)
          fun node member => override_of_mem _ outside member]
        exact part.value_null (place.isLogical_of_plug logical)
      have outsideAgrees := place.resume_congr (noteImpure model arena) values
        outside fun node inPlace => override_of_not_mem _ outside fun inPart =>
          place.not_mem_nodes_of_nodup_plug distinct inPart inPlace
      have sameTruth := (unnoticed values).1
      rw [Place.run_plug, outsideAgrees, outsideAgrees] at sameTruth
      rw [(steers _).1 partNull, (steers _).2 (by
        simp only [Outcome.collapse, partNull, Value.collapse])] at sameTruth
      simpa [Value.isTrue] using sameTruth
    have noSkip : leadsToNoticedSkip model arena place = false := by
      by_contra skips
      have partNull : (part.run (noteImpure model arena) fun _ => .null).value =
          .null := by
        rw [Tree.value_run]
        exact part.value_null (place.isLogical_of_plug logical)
      let changed := (part.run (noteImpure model arena) fun _ => .null).collapse
      have changedFalse : changed.value = .boolean false := by
        simp only [changed, Outcome.collapse, partNull, Value.collapse]
      have fewer := fewer_events_of_leadsToNoticedSkip logical
        (by simpa using skips) partNull changedFalse rfl
      rw [(unnoticed fun _ => .null).2, Place.run_plug] at fewer
      exact Nat.lt_irrefl _ fewer
    rcases onlyPure with onlyPure | skips
    · exact ⟨noEquality frame member, onlyPure frame member⟩
    · rw [noSkip] at skips
      cases skips
  · intro noticesNothing values
    let whole := part.run (noteImpure model arena) values
    have collapsed : CollapsesTo whole whole.collapse := ⟨.inr rfl, rfl⟩
    have collapses := collapsesTo_resume_place held distinct searched
      noticesNothing values collapsed
    simp only [Place.run_plug]
    obtain ⟨sameValue | collapsed, sameEvents⟩ := collapses
    · exact ⟨congrArg Value.isTrue sameValue, sameEvents⟩
    · rw [collapsed, Value.isTrue_collapse]
      exact ⟨rfl, sameEvents⟩

/-- `If (a AndAlso b) = c Then` -/
def comparedConjunction : Arena where
  nodes := #[
    { form := .identifier "a" }, { form := .identifier "b" },
    { form := .binary (some ⟨0⟩) .andAlso (some ⟨1⟩) },
    { form := .parenthesized (some ⟨2⟩) }, { form := .identifier "c" },
    { form := .binary (some ⟨3⟩) .equals (some ⟨4⟩) },
    { form := .conditionStatement .ifBlock (some ⟨5⟩) }]

/-- `a`, `b` and `c` are locals. -/
def threeLocals : Model :=
  let symbols : SymbolTable := ⟨#[⟨⟨0⟩, "a", .localVariable, {}, none, none,
    none, none⟩, ⟨⟨1⟩, "b", .localVariable, {}, none, none, none, none⟩,
    ⟨⟨2⟩, "c", .localVariable, {}, none, none, none, none⟩]⟩
  ((({ symbols } : Model).bindSymbol (some ⟨0⟩) ⟨0⟩).bindSymbol
    (some ⟨1⟩) ⟨1⟩).bindSymbol (some ⟨4⟩) ⟨2⟩

/-- The comparison tells `False` from null in `a AndAlso b`. Where all three
locals are null but for `c`, which is `False`, the condition comes to hold. -/
theorem comparedConjunction_noticed :
    let place : Place Unit := [.parenthesized ⟨3⟩,
      .leftOperand ⟨5⟩ .equals (.operand ⟨4⟩ ())]
    let part : Source.Tree Unit :=
      .binary ⟨2⟩ (.operand ⟨0⟩ ()) .andAlso (.operand ⟨1⟩ ())
    IsCondition threeLocals comparedConjunction (some ⟨6⟩)
        (place.plug part) ∧
      canConvertToBoolean threeLocals comparedConjunction
        (place.path [.unchanged (some ⟨6⟩)]) part.slot = true ∧
      ¬ CollapseUnnoticed threeLocals comparedConjunction place part := by
  refine ⟨⟨⟨.ifBlock, rfl⟩, by decide, by decide, by decide⟩, by decide,
    fun unnoticed => ?_⟩
  have sameTruth := (unnoticed fun node =>
    if node = ⟨4⟩ then .boolean false else .null).1
  revert sameTruth
  decide

/-- The operand `a` is below the same comparison. -/
theorem comparedConjunction_operand_noticed :
    let place : Place Unit := [.leftOperand ⟨2⟩ .andAlso (.operand ⟨1⟩ ()),
      .parenthesized ⟨3⟩, .leftOperand ⟨5⟩ .equals (.operand ⟨4⟩ ())]
    ¬ CollapseUnnoticed threeLocals comparedConjunction place
      (.operand ⟨0⟩ ()) :=
  have condition : IsCondition threeLocals comparedConjunction (some ⟨6⟩)
      (.binary ⟨5⟩ (.parenthesized ⟨3⟩ (.binary ⟨2⟩ (.operand ⟨0⟩ ()) .andAlso
        (.operand ⟨1⟩ ()))) .equals (.operand ⟨4⟩ ())) :=
    ⟨⟨.ifBlock, rfl⟩, by decide, by decide, by decide⟩
  fun unnoticed => absurd
    ((collapseUnnoticed_iff condition (by decide +kernel)).mp unnoticed)
    (by decide +kernel)

end BasicLowering.Analysis
