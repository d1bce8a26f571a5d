import BasicLowering.Proofs.Mirroring
import BasicLowering.Proofs.Source.Sound
import BasicLowering.Source.Path

/-!
# Twin arenas

The same nodes are added to two arenas that grow from one and the same tree. One of them
already holds further nodes, so that each new node stands a fixed number of places
later there. Whatever follows children and origins finds the same in both arenas, at the
places where the nodes have moved.
-/

namespace BasicLowering.Source

/-! ## Moving nodes -/

/-- Change the slots of a form. -/
def Form.mapSlots (change : Slot → Slot) : Form → Form
  | .identifier text => .identifier text
  | .memberAccess receiver name kind =>
      .memberAccess (change receiver) (change name) kind
  | .conditionalAccess receiver name =>
      .conditionalAccess (change receiver) (change name)
  | .binary left operator right => .binary (change left) operator (change right)
  | .unary operator operand => .unary operator (change operand)
  | .literal value => .literal value
  | .parenthesized inner => .parenthesized (change inner)
  | .invocation callee arguments =>
      .invocation (change callee) (arguments.map change)
  | .namedArgument name value => .namedArgument (change name) (change value)
  | .objectCreation typeName arguments =>
      .objectCreation typeName (arguments.map change)
  | .anonymousObject initializers => .anonymousObject (initializers.map change)
  | .namedField name value => .namedField (change name) (change value)
  | .inferredField value => .inferredField (change value)
  | .selfReference kind => .selfReference kind
  | .typeTest operand typeName negated => .typeTest (change operand) typeName negated
  | .ternary condition whenTrue whenFalse =>
      .ternary (change condition) (change whenTrue) (change whenFalse)
  | .conditionStatement kind condition => .conditionStatement kind (change condition)
  | .returnStatement value => .returnStatement (change value)
  | .localDeclaration name initializer => .localDeclaration name (change initializer)
  | .assignment target value => .assignment (change target) (change value)
  | .expressionStatement expression => .expressionStatement (change expression)

namespace Form

variable {change : Slot → Slot}

theorem mapSlots_eq_self {form : Form} (same : ∀ slot ∈ form.slots, change slot = slot) :
    form.mapSlots change = form := by
  have list (others : List Slot) (same : ∀ slot ∈ others, change slot = slot) :
      others.map change = others := by
    rw [List.map_congr_left same, List.map_id']
  cases form <;> simp_all [mapSlots, slots]

theorem mapSlots_injective (injective : Function.Injective change) :
    Function.Injective (mapSlots change) := by
  intro form other same
  have lists := injective.list_map
  cases form <;> cases other <;> simp_all [mapSlots, injective.eq_iff, lists.eq_iff]

end Form

/-- How far the nodes of an arena are moved, from one of them on. -/
structure Shift where
  start : Nat
  distance : Nat

namespace Shift

variable (shift : Shift)

/-- Where a node has been moved. -/
def node (node : NodeId) : NodeId :=
  if node.index < shift.start then node else ⟨node.index + shift.distance⟩

/-- Where the node in a slot has been moved. -/
def slot (slot : Slot) : Slot :=
  slot.map shift.node

/-- A form with its nodes where they have been moved. -/
def form (form : Form) : Form :=
  form.mapSlots shift.slot

/-- A level with its nodes where they have been moved. -/
def step (step : Step) : Step :=
  ⟨shift.slot step.referent, shift.slot step.effective⟩

/-- A path with its nodes where they have been moved. -/
def path (path : Path) : Path :=
  path.map shift.step

theorem node_injective : Function.Injective shift.node := by
  intro node other same
  obtain ⟨index⟩ := node
  obtain ⟨otherIndex⟩ := other
  simp only [Shift.node] at same
  split at same <;> split at same <;> simp_all <;> omega

theorem slot_injective : Function.Injective shift.slot :=
  Option.map_injective shift.node_injective

theorem form_injective : Function.Injective shift.form :=
  Form.mapSlots_injective shift.slot_injective

@[simp] theorem slot_none : shift.slot none = none :=
  rfl

@[simp] theorem slot_some (node : NodeId) :
    shift.slot (some node) = some (shift.node node) :=
  rfl

theorem slot_eq_iff {slot other : Slot} : shift.slot slot = shift.slot other ↔ slot = other :=
  shift.slot_injective.eq_iff

theorem slot_beq (slot other : Slot) :
    (shift.slot slot == shift.slot other) = (slot == other) := by
  rw [Bool.eq_iff_iff, beq_iff_eq, beq_iff_eq, shift.slot_eq_iff]

end Shift

/-! ## Twins -/

/-- What two arenas have in common that go on from one tree in the same way: the tree,
how many nodes more the second arena holds, and the names that may be added. -/
structure Twinning where
  tree : Arena
  distance : Nat
  known : String → Prop

namespace Twinning

/-- Where the new nodes of the first arena are in the second one. -/
def shift (twinning : Twinning) : Shift :=
  ⟨twinning.tree.size, twinning.distance⟩

/-- Whether two arenas hold the same nodes, but for the places and the ranges of those
that are new. All bare names are known. -/
structure Twin (twinning : Twinning) (first second : Arena) : Prop where
  grows : twinning.tree.Grows first
  otherGrows : twinning.tree.Grows second
  size : second.size = first.size + twinning.distance
  nodes : ∀ node held, first.node? (some node) = some held →
    ∃ other, second.node? (some (twinning.shift.node node)) = some other ∧
      other.form = twinning.shift.form held.form ∧
      other.origin = twinning.shift.slot held.origin ∧
      other.trivia = held.trivia
  named : ∀ slot text, first.nameText? slot = some text → twinning.known text

variable {twinning : Twinning}

/-- The nodes of the tree stay where they are. -/
theorem slot_of_tree {slot : Slot}
    (ofTree : ∀ node, slot = some node → twinning.tree.holds (some node) = true) :
    twinning.shift.slot slot = slot := by
  cases slot with
  | none => rfl
  | some node =>
      have inside := Arena.index_lt_of_holds (ofTree node rfl)
      rw [Shift.slot_some, Shift.node, shift, if_pos inside]

theorem slot_of_held {slot : Slot} (held : twinning.tree.holds slot = true) :
    twinning.shift.slot slot = slot :=
  slot_of_tree fun _ same => same ▸ held

/-- What is no node of the tree is none where it has been moved to. -/
theorem slot_of_missing {slot : Slot} (missing : twinning.tree.holds slot = false) :
    twinning.tree.holds (twinning.shift.slot slot) = false := by
  cases slot with
  | none => rfl
  | some node =>
      rw [Shift.slot_some, Shift.node]
      split
      · exact missing
      · next outside =>
          by_contra held
          have inside := Arena.index_lt_of_holds (Bool.eq_true_of_not_eq_false held)
          have outside : ¬ node.index < twinning.tree.size := outside
          simp only at inside
          omega

namespace Twin

variable {first second : Arena}

section

variable (twin : twinning.Twin first second)

include twin

/-- Where the first arena holds no node, neither does the second one. -/
theorem node?_of_missing {slot : Slot} (isMissing : first.node? slot = none) :
    second.node? (twinning.shift.slot slot) = none := by
  cases slot with
  | none => rfl
  | some node =>
      have outside : first.size ≤ node.index := by
        by_contra inside
        have held := Arena.holds_of_index_lt (Nat.lt_of_not_le inside)
        rw [Arena.holds, isMissing] at held
        cases held
      have isLate : ¬ node.index < twinning.tree.size :=
        Nat.not_lt.mpr (Nat.le_trans twin.grows.size_le outside)
      have beyond : second.nodes.size ≤ node.index + twinning.distance :=
        Nat.le_trans (Nat.le_of_eq twin.size) (Nat.add_le_add_right outside _)
      simp [Arena.node?, shift, Shift.node, isLate, Array.getElem?_eq_none beyond]

theorem node?_of_some {slot : Slot} {held : Node} (found : first.node? slot = some held) :
    ∃ other, second.node? (twinning.shift.slot slot) = some other ∧
      other.form = twinning.shift.form held.form ∧
      other.origin = twinning.shift.slot held.origin ∧
      other.trivia = held.trivia := by
  cases slot with
  | none => cases found
  | some node => exact twin.nodes node held found

theorem form? (slot : Slot) :
    second.form? (twinning.shift.slot slot) =
      (first.form? slot).map twinning.shift.form := by
  rw [Arena.form?, Arena.form?]
  cases found : first.node? slot with
  | none => rw [twin.node?_of_missing found]; rfl
  | some held =>
      obtain ⟨other, isOther, isForm, -⟩ := twin.node?_of_some found
      rw [isOther]
      exact congrArg some isForm

theorem origin? (slot : Slot) :
    second.origin? (twinning.shift.slot slot) =
      twinning.shift.slot (first.origin? slot) := by
  rw [Arena.origin?, Arena.origin?]
  cases found : first.node? slot with
  | none => rw [twin.node?_of_missing found]; rfl
  | some held =>
      obtain ⟨other, isOther, -, isOrigin, -⟩ := twin.node?_of_some found
      rw [isOther]
      exact isOrigin

theorem trivia (slot : Slot) :
    second.trivia (twinning.shift.slot slot) = first.trivia slot := by
  rw [Arena.trivia, Arena.trivia]
  cases found : first.node? slot with
  | none => rw [twin.node?_of_missing found]
  | some held =>
      obtain ⟨other, isOther, -, -, isTrivia⟩ := twin.node?_of_some found
      rw [isOther]
      exact isTrivia

theorem holds (slot : Slot) :
    second.holds (twinning.shift.slot slot) = first.holds slot := by
  have same := congrArg Option.isSome (twin.form? slot)
  simpa [Arena.form?, Arena.holds] using same

theorem nameText? (slot : Slot) :
    second.nameText? (twinning.shift.slot slot) = first.nameText? slot := by
  rw [Arena.nameText?, Arena.nameText?, twin.form?]
  cases first.form? slot with
  | none => rfl
  | some form => cases form <;> rfl

theorem isExpression (slot : Slot) :
    second.isExpression (twinning.shift.slot slot) = first.isExpression slot := by
  rw [Arena.isExpression, Arena.isExpression, twin.form?, Option.any_map]
  congr 1
  funext form
  cases form <;> rfl

theorem isNothing (slot : Slot) :
    second.isNothing (twinning.shift.slot slot) = first.isNothing slot := by
  rw [Arena.isNothing, Arena.isNothing, twin.form?]
  cases first.form? slot with
  | none => rfl
  | some form => cases form <;> rfl

theorem isParenthesized (slot : Slot) :
    second.isParenthesized (twinning.shift.slot slot) = first.isParenthesized slot := by
  rw [Arena.isParenthesized, Arena.isParenthesized, twin.form?]
  cases first.form? slot with
  | none => rfl
  | some form => cases form <;> rfl

theorem binary? (slot : Slot) :
    second.binary? (twinning.shift.slot slot) =
      (first.binary? slot).map fun (left, operator, right) =>
        (twinning.shift.slot left, operator, twinning.shift.slot right) := by
  rw [Arena.binary?, Arena.binary?, twin.form?]
  cases first.form? slot with
  | none => rfl
  | some form => cases form <;> rfl

end

/-! ## Following children and origins -/

theorem follow_shift {shift : Shift} {next other : NodeId → Option Slot}
    (same : ∀ node, other (shift.node node) = (next node).map shift.slot) (steps : Nat)
    (slot : Slot) :
    Arena.follow other steps (shift.slot slot) =
      shift.slot (Arena.follow next steps slot) := by
  induction steps generalizing slot with
  | zero => rfl
  | succ steps ih =>
      cases slot with
      | none => rfl
      | some node =>
          rw [Shift.slot_some, Arena.follow, Arena.follow, same]
          cases next node with
          | none => rfl
          | some slot => exact ih slot

section

variable (twin : twinning.Twin first second) (sound : first.Sound)

include twin sound

theorem standsFor (slot : Slot) :
    second.standsFor (twinning.shift.slot slot) =
      twinning.shift.slot (first.standsFor slot) := by
  have enough : first.size ≤ second.size := by
    rw [twin.size]
    exact Nat.le_add_right _ _
  rw [Arena.standsFor, Arena.standsForWithin_eq_follow, ← sound.standsForWithin_eq enough,
    Arena.standsForWithin_eq_follow]
  apply follow_shift
  intro node
  rw [Arena.originLink?, ← Shift.slot_some, twin.origin?, Arena.originLink?]
  cases first.origin? (some node) <;> rfl

theorem skipParens (slot : Slot) :
    second.skipParens (twinning.shift.slot slot) =
      twinning.shift.slot (first.skipParens slot) := by
  have enough : first.size ≤ second.size := by
    rw [twin.size]
    exact Nat.le_add_right _ _
  rw [Arena.skipParens, Arena.skipParensWithin_eq_follow,
    ← sound.acyclic.skipParensWithin_eq enough, Arena.skipParensWithin_eq_follow]
  apply follow_shift
  intro node
  rw [Arena.inner?, ← Shift.slot_some, twin.form?, Arena.inner?]
  cases first.form? (some node) with
  | none => rfl
  | some form => cases form <;> rfl

end

/-! ## Beginning and going on -/

/-- A sound tree, and whatever has grown from it. -/
theorem ofGrows {known : String → Prop} {tree : Arena} (sound : tree.Sound)
    (grows : tree.Grows second)
    (named : ∀ slot text, tree.nameText? slot = some text → known text) :
    (Twinning.mk tree (second.size - tree.size) known).Twin tree second where
  grows := .refl tree
  otherGrows := grows
  size := (Nat.add_sub_cancel' grows.size_le).symm
  nodes := by
    intro node held found
    have isHeld : tree.holds (some node) = true := by rw [Arena.holds, found]; rfl
    refine ⟨held, ?_, ?_, ?_, rfl⟩
    · rw [← Shift.slot_some, slot_of_tree fun _ same => Option.some.inj same ▸ isHeld]
      exact grows _ _ found
    · have isForm : tree.form? (some node) = some held.form := by
        rw [Arena.form?, found, Option.map_some]
      refine (Form.mapSlots_eq_self fun slot isSlot => slot_of_tree ?_).symm
      intro child isChild
      exact sound.children _ _ isForm child
        (List.mem_filterMap.mpr ⟨slot, isSlot, isChild⟩)
    · refine (slot_of_tree fun origin isOrigin => ?_).symm
      refine sound.origins (some node) origin ?_
      rw [Arena.origin?, found, Option.bind_some, isOrigin]
  named := named

section

variable (twin : twinning.Twin first second)

include twin

/-- New nodes are made at places that go together. -/
theorem shift_next : twinning.shift.node ⟨first.size⟩ = ⟨second.size⟩ := by
  have isLate : ¬ first.size < twinning.tree.size := Nat.not_lt.mpr twin.grows.size_le
  rw [Shift.node, shift, if_neg isLate, twin.size]

/-- Adding the same node keeps twins. -/
theorem add {node other : Node} (isForm : other.form = twinning.shift.form node.form)
    (isOrigin : other.origin = twinning.shift.slot node.origin)
    (isTrivia : other.trivia = node.trivia)
    (known : ∀ text, node.form = .identifier text → twinning.known text) :
    twinning.Twin (first.add node).2 (second.add other).2 where
  grows := twin.grows.trans (first.grows_add node)
  otherGrows := twin.otherGrows.trans (second.grows_add other)
  size := by
    rw [Arena.size_add, Arena.size_add, twin.size]
    omega
  nodes := by
    intro id held found
    rw [Arena.node?_add] at found
    rw [Arena.node?_add]
    by_cases isNew : some id = some (first.add node).1
    · rw [if_pos isNew] at found
      cases found
      cases isNew
      refine ⟨other, ?_, isForm, isOrigin, isTrivia⟩
      exact if_pos (congrArg some twin.shift_next)
    · rw [if_neg isNew] at found
      rw [if_neg]
      · exact twin.nodes id held found
      · intro same
        rw [Option.some.injEq] at same
        exact isNew (congrArg some
          (twinning.shift.node_injective (same.trans twin.shift_next.symm)))
  named := by
    intro slot text named
    have found := Arena.form?_of_nameText? named
    rw [Arena.form?, Arena.node?_add] at found
    split at found
    · exact known text (Option.some.inj found)
    · refine twin.named slot text ?_
      rw [Arena.nameText?, show first.form? slot = some (.identifier text) from found]

/-- Giving a new node the same trivia keeps twins. -/
theorem setTrivia {slot : Slot} (isNew : twinning.tree.holds slot = false)
    (trivia : String) :
    twinning.Twin (first.setTrivia slot trivia)
      (second.setTrivia (twinning.shift.slot slot) trivia) where
  grows := twin.grows.setTrivia (by simpa [Arena.holds] using isNew) trivia
  otherGrows :=
    twin.otherGrows.setTrivia (by simpa [Arena.holds] using slot_of_missing isNew) trivia
  size := by rw [Arena.size_setTrivia, Arena.size_setTrivia, twin.size]
  nodes := by
    intro node held found
    rw [Arena.node?_setTrivia] at found
    rw [Arena.node?_setTrivia, ← Shift.slot_some]
    by_cases isTarget : some node = slot
    · rw [if_pos isTarget] at found
      obtain ⟨before, isBefore, rfl⟩ := Option.map_eq_some_iff.mp found
      obtain ⟨other, isOther, isForm, isOrigin, -⟩ := twin.nodes node before isBefore
      rw [if_pos (congrArg twinning.shift.slot isTarget), Shift.slot_some, isOther]
      exact ⟨_, rfl, isForm, isOrigin, rfl⟩
    · rw [if_neg isTarget] at found
      rw [if_neg fun same => isTarget (twinning.shift.slot_injective same)]
      exact twin.nodes node held found
  named := by
    intro other text named
    rw [Arena.nameText?, Arena.form?_setTrivia] at named
    exact twin.named other text named

end

end Twin

/-! ## Steps in both arenas -/

/-- Whether two steps make the same in all twins. -/
abbrev Matches (twinning : Twinning) {Result Moved : Type} (change : Result → Moved)
    (step : Building Result) (other : Building Moved) : Prop :=
  Mirrors twinning.Twin change step other

namespace Matches

variable {Final Last : Type} {changeLast : Final → Last}

/-- Parsed nodes are added to both arenas. -/
theorem parsed {form moved : Form} (isMoved : moved = twinning.shift.form form)
    (known : ∀ text, form = .identifier text → twinning.known text) :
    twinning.Matches twinning.shift.node (Building.parsed form) (Building.parsed moved) :=
  fun _ _ twin => ⟨twin.shift_next.symm, twin.add isMoved rfl rfl known⟩

theorem synthesize {origin : Slot} {form moved : Form}
    (isMoved : moved = twinning.shift.form form)
    (noName : form.isSimpleName = false) :
    twinning.Matches twinning.shift.node (Building.synthesize origin form)
      (Building.synthesize (twinning.shift.slot origin) moved) := by
  intro first second twin
  refine ⟨twin.shift_next.symm, twin.add isMoved rfl rfl ?_⟩
  intro text isName
  cases isName
  cases noName

/-- A copy of a node with other trivia. -/
theorem copy {first second : Arena} (twin : twinning.Twin first second) {slot : Slot}
    {node other : Node} (found : first.node? slot = some node)
    (otherFound : second.node? (twinning.shift.slot slot) = some other) (trivia : String) :
    twinning.Twin (first.add { node with trivia, origin := slot }).2
      (second.add { other with trivia, origin := twinning.shift.slot slot }).2 := by
  have forms := twin.form? slot
  rw [Arena.form?, otherFound, Arena.form?, found] at forms
  refine twin.add (Option.some.inj forms) rfl rfl ?_
  intro text isName
  refine twin.named slot text ?_
  have isForm : first.form? slot = some (.identifier text) := by
    rw [Arena.form?, found, ← isName, Option.map_some]
  rw [Arena.nameText?, isForm]

theorem copyUnless (stays : String → Prop) [DecidablePred stays]
    (change : String → String) (slot : Slot) :
    twinning.Matches twinning.shift.slot (Building.copyUnless stays change slot)
      (Building.copyUnless stays change (twinning.shift.slot slot)) := by
  intro first second twin
  unfold Building.copyUnless
  cases found : first.node? slot with
  | none =>
      rw [twin.node?_of_missing found]
      exact ⟨rfl, twin⟩
  | some node =>
      obtain ⟨other, otherFound, -, -, sameTrivia⟩ := twin.node?_of_some found
      rw [otherFound]
      dsimp only
      rw [sameTrivia]
      split
      · exact ⟨rfl, twin⟩
      · exact ⟨congrArg some twin.shift_next.symm, copy twin found otherFound _⟩

theorem withoutTrivia (slot : Slot) :
    twinning.Matches twinning.shift.slot (Building.withoutTrivia slot)
      (Building.withoutTrivia (twinning.shift.slot slot)) := by
  rw [Building.withoutTrivia_eq, Building.withoutTrivia_eq]
  apply copyUnless

theorem withPrependedTrivia (slot : Slot) (trivia : String) :
    twinning.Matches twinning.shift.slot (Building.withPrependedTrivia slot trivia)
      (Building.withPrependedTrivia (twinning.shift.slot slot) trivia) := by
  rw [Building.withPrependedTrivia_eq, Building.withPrependedTrivia_eq]
  apply copyUnless

/-- The trivia of a new node may be set. -/
theorem labelled {form moved : Form} (trivia : String)
    {rest : NodeId → Building Final} {next : NodeId → Building Last}
    (isMoved : moved = twinning.shift.form form)
    (known : ∀ text, form = .identifier text → twinning.known text)
    (late : ∀ node, twinning.Matches changeLast (rest node)
      (next (twinning.shift.node node))) :
    twinning.Matches changeLast
      (do
        let node ← Building.parsed form
        Building.setTrivia (some node) trivia
        rest node)
      (do
        let node ← Building.parsed moved
        Building.setTrivia (some node) trivia
        next node) := by
  intro first second twin
  obtain ⟨same, between⟩ := parsed isMoved known first second twin
  have isNew : twinning.tree.holds (some (Building.parsed form first).1) = false := by
    rw [Arena.holds]
    exact congrArg Option.isSome (twin.grows.node?_eq_none first.node?_next)
  have labelled := between.setTrivia isNew trivia
  simp only [Building.run_bind, same]
  exact late _ _ _ labelled

end Matches

end Twinning

end BasicLowering.Source
