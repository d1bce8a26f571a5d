import BasicLowering.Proofs.Source.Growth
import BasicLowering.Qualification.NameExpander

/-!
# What a decision leaves alone

Whatever is asked about a node, and whatever the node is, deciding adds nodes to the
arena and changes none. The trivia that are set are those of nodes that have just
been made.
-/

namespace BasicLowering

namespace Source.Building

/-- Whether a step only adds nodes. -/
def OnlyAdds {Result : Type} (step : Building Result) : Prop :=
  ∀ arena : Arena, arena.Grows (step arena).2

namespace OnlyAdds

variable {Item Result Final : Type}

theorem pure (result : Result) : OnlyAdds (pure result) :=
  fun arena => .refl arena

theorem bind {step : Building Result} {rest : Result → Building Final}
    (first : OnlyAdds step) (others : ∀ result, OnlyAdds (rest result)) :
    OnlyAdds (step >>= rest) :=
  fun arena => (first arena).trans (others _ _)

/-- What is read from the arena may decide how to go on. -/
theorem get {rest : Arena → Building Final} (others : ∀ arena, OnlyAdds (rest arena)) :
    OnlyAdds (get >>= rest) :=
  fun arena => others arena arena

theorem parsed (form : Form) : OnlyAdds (Building.parsed form) :=
  fun arena => arena.grows_add _

theorem synthesize (origin : Slot) (form : Form) :
    OnlyAdds (Building.synthesize origin form) :=
  fun arena => arena.grows_add _

theorem withoutTrivia (slot : Slot) : OnlyAdds (Building.withoutTrivia slot) :=
  fun arena => (Building.copies_withoutTrivia slot arena).grows

theorem withPrependedTrivia (slot : Slot) (trivia : String) :
    OnlyAdds (Building.withPrependedTrivia slot trivia) :=
  fun arena => (Building.copies_withPrependedTrivia slot trivia arena).grows

/-- The trivia of a new node may be set. -/
theorem labelled (form : Form) (trivia : String) {rest : NodeId → Building Final}
    (others : ∀ node, OnlyAdds (rest node)) :
    OnlyAdds (do
      let node ← Building.parsed form
      Building.setTrivia (some node) trivia
      rest node) :=
  fun arena => ((arena.grows_add _).setTrivia arena.node?_next trivia).trans
    (others _ _)

theorem mapM {step : Item → Building Result}
    (each : ∀ item, OnlyAdds (step item)) (items : List Item) :
    OnlyAdds (items.mapM step) := by
  induction items with
  | nil => exact .pure []
  | cons item rest ih =>
      rw [List.mapM_cons]
      exact (each item).bind fun _ => ih.bind fun _ => .pure _

theorem foldlM {step : Result → Item → Building Result}
    (each : ∀ result item, OnlyAdds (step result item)) (items : List Item)
    (start : Result) : OnlyAdds (items.foldlM step start) := by
  induction items generalizing start with
  | nil => exact .pure start
  | cons item rest ih =>
      rw [List.foldlM_cons]
      exact (each start item).bind ih

end OnlyAdds

end Source.Building

namespace Qualification

open Source Source.Building Binding

section

variable (model : Model) (path : Path) (slot : Slot)

theorem onlyAdds_accessThrough (receiver : Slot) :
    OnlyAdds (accessThrough receiver slot) :=
  (OnlyAdds.withoutTrivia slot).bind fun _ =>
    (OnlyAdds.synthesize slot _).bind fun _ => .pure _

theorem onlyAdds_accessThroughMe : OnlyAdds (accessThroughMe slot) :=
  .get fun _ => .labelled _ _ fun _ => onlyAdds_accessThrough slot _

theorem onlyAdds_memberAccess (receiver : Slot) (name : String) :
    OnlyAdds (Building.memberAccess receiver name) :=
  (OnlyAdds.parsed _).bind fun _ => .parsed _

theorem onlyAdds_nameChain (trivia : String) (parts : List String) :
    OnlyAdds (nameChain trivia parts) :=
  .labelled _ _ fun first =>
    (OnlyAdds.foldlM (fun _ _ => onlyAdds_memberAccess _ _) parts.tail first).bind
      fun _ => .pure _

theorem onlyAdds_fullNameOf : OnlyAdds (fullNameOf model slot) := by
  refine .get fun arena => ?_
  split
  · exact .pure slot
  · split
    · split
      · exact .pure slot
      · dsimp only
        split
        · exact .pure slot
        · exact (onlyAdds_nameChain _ _).bind fun _ =>
            onlyAdds_accessThrough slot _
    · split
      · exact onlyAdds_accessThroughMe slot
      · exact .pure slot

theorem onlyAdds_mapOperands {operand : Slot → Building Slot}
    (each : ∀ slot, OnlyAdds (operand slot)) (form : Form) :
    OnlyAdds (mapOperands operand form) := by
  cases form with
  | memberAccess receiver _ _ | conditionalAccess receiver _ =>
      exact (each receiver).bind fun _ => .pure _
  | invocation callee arguments =>
      exact (each callee).bind fun _ =>
        (OnlyAdds.mapM each arguments).bind fun _ => .pure _
  | namedArgument _ value => exact (each value).bind fun _ => .pure _
  | binary left _ right =>
      exact (each left).bind fun _ => (each right).bind fun _ => .pure _
  | unary _ inner => exact (each inner).bind fun _ => .pure _
  | parenthesized inner => exact (each inner).bind fun _ => .pure _
  | ternary condition whenTrue whenFalse =>
      exact (each condition).bind fun _ => (each whenTrue).bind fun _ =>
        (each whenFalse).bind fun _ => .pure _
  | _ => exact .pure _

theorem onlyAdds_fullNamesWithin (depth : Nat) :
    OnlyAdds (fullNamesWithin model depth slot) := by
  induction depth generalizing slot with
  | zero => exact .pure slot
  | succ depth ih =>
      rw [fullNamesWithin]
      refine .get fun arena => ?_
      split
      · exact .pure slot
      · exact onlyAdds_fullNameOf model slot
      · refine (onlyAdds_mapOperands ih _).bind fun expanded => ?_
        split
        · exact .pure slot
        · exact (OnlyAdds.synthesize slot _).bind fun _ => .pure _

theorem onlyAdds_fullNames : OnlyAdds (fullNames model slot) :=
  .get fun _ => onlyAdds_fullNamesWithin model slot _

theorem onlyAdds_shortCircuit? : OnlyAdds (shortCircuit? model path slot) := by
  refine .get fun arena => ?_
  split
  · exact .pure none
  · split
    · exact .pure none
    · split
      · exact (OnlyAdds.synthesize slot _).bind fun _ => .pure _
      · exact .pure none

theorem onlyAdds_throughImplicitInstance? (symbol : Symbol) (enclosing : TypeId) :
    OnlyAdds (throughImplicitInstance? model slot symbol enclosing) := by
  refine .get fun arena => ?_
  dsimp only
  split
  · exact (onlyAdds_accessThroughMe slot).bind fun _ => .pure _
  · split
    · exact (OnlyAdds.withPrependedTrivia _ _).bind fun _ =>
        (onlyAdds_accessThrough slot _).bind fun _ => .pure _
    · split
      · exact (onlyAdds_accessThroughMe slot).bind fun _ => .pure _
      · exact .pure none

theorem onlyAdds_throughAttachedReceiver? (symbol : Symbol) :
    OnlyAdds (throughAttachedReceiver? model slot symbol) := by
  refine .get fun arena => ?_
  split
  · split
    · exact .pure none
    · split
      · exact .pure none
      · exact (OnlyAdds.parsed _).bind fun _ =>
          (OnlyAdds.synthesize slot _).bind fun _ => .pure _
  · exact .pure none

theorem onlyAdds_throughFullName (symbol : Option Symbol) :
    OnlyAdds (throughFullName model slot symbol) := by
  refine .get fun arena => ?_
  split
  · exact .pure _
  · exact (onlyAdds_fullNames model slot).bind fun _ => .pure _

theorem onlyAdds_withoutImplicit (symbol : Symbol) :
    OnlyAdds (do
      match ← throughAttachedReceiver? model slot symbol with
      | some access => return (⟨access, none⟩ : Expansion)
      | none => throughFullName model slot (some symbol)) := by
  refine (onlyAdds_throughAttachedReceiver? model slot symbol).bind fun access => ?_
  split
  · exact .pure _
  · exact onlyAdds_throughFullName model slot _

theorem onlyAdds_expandReference (symbol : Symbol) :
    OnlyAdds (expandReference model path slot symbol) := by
  have elsewhere := onlyAdds_withoutImplicit model slot symbol
  refine .get fun arena => ?_
  dsimp only
  split
  · split
    · refine (onlyAdds_throughImplicitInstance? model slot symbol _).bind
        fun access => ?_
      split
      · exact .pure _
      · exact elsewhere
    · exact (OnlyAdds.pure none).bind fun access => by
        split
        · exact .pure _
        · exact elsewhere
  · exact (OnlyAdds.pure none).bind fun access => by
      split
      · exact .pure _
      · exact elsewhere

theorem onlyAdds_expand : OnlyAdds (expand model path slot) := by
  refine .get fun arena => ?_
  split
  · exact (onlyAdds_shortCircuit? model path slot).bind fun _ => .pure _
  · split
    · exact onlyAdds_expandReference model path slot _
    · exact onlyAdds_throughFullName model slot none

/-- Whatever is decided, nodes are only added. -/
theorem onlyAdds_names : OnlyAdds (names.decision model path slot) := by
  refine .get fun arena => ?_
  split
  · refine (onlyAdds_shortCircuit? model path slot).bind fun changed => ?_
    split
    · exact .pure _
    · exact .pure _
  · refine .get fun arena => ?_
    split
    · exact (onlyAdds_expand model path slot).bind fun _ => .pure _
    · split
      · exact .pure _
      · exact .pure _

end

end Qualification

end BasicLowering
