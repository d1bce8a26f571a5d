import BasicLowering.Source.Node

/-!
# The arena

Nodes are stored in one growing sequence and never removed. A replacement is a
new node, and what it replaces is left in place, so an analysis can always be
run again on the parsed tree. A replacement remembers the node it stands for;
following these origins leads back to the parsed node.
-/

namespace BasicLowering.Source

/-- The nodes made so far, and the offset at which the next node without a
range of its own is placed. -/
structure Arena where
  nodes : Array Node := #[]
  cursor : UInt32 := 0

/-- A computation that may add nodes to an arena. -/
abbrev Building := StateM Arena

namespace Arena

variable (arena : Arena)

/-- The number of nodes. -/
def size : Nat := arena.nodes.size

/-- The node in a slot, if there is one. -/
def node? (slot : Slot) : Option Node :=
  slot.bind fun node => arena.nodes[node.index]?

/-- The form of the node in a slot. -/
def form? (slot : Slot) : Option Form :=
  (arena.node? slot).map (·.form)

/-- Whether a slot holds a node. -/
def holds (slot : Slot) : Bool :=
  (arena.node? slot).isSome

/-- Add a node. The cursor never falls behind the end of a node. -/
def add (node : Node) : NodeId × Arena :=
  (⟨arena.size⟩,
    { nodes := arena.nodes.push node
      cursor := max arena.cursor node.span.stop })

/-- The blanks and comments before the node in a slot. -/
def trivia (slot : Slot) : String :=
  match arena.node? slot with
  | some node => node.trivia
  | none => ""

/-- Where the node in a slot starts. -/
def position (slot : Slot) : UInt32 :=
  match arena.node? slot with
  | some node => node.span.start
  | none => 0

/-- The name of the kind of the node in a slot. -/
def kindName (slot : Slot) : String :=
  match arena.form? slot with
  | some form => form.kindName
  | none => "<missing>"

/-- The text of a bare name. -/
def nameText? (slot : Slot) : Option String :=
  match arena.form? slot with
  | some (.identifier text) => some text
  | _ => none

/-- The operands and the operator of a binary node. -/
def binary? (slot : Slot) : Option (Slot × BinaryOperator × Slot) :=
  match arena.form? slot with
  | some (.binary left operator right) => some (left, operator, right)
  | _ => none

/-- Whether a slot holds a node that produces a value. -/
def isExpression (slot : Slot) : Bool :=
  (arena.form? slot).any Form.isExpression

/-- Whether a slot holds a bare name. -/
def isSimpleName (slot : Slot) : Bool :=
  (arena.form? slot).any Form.isSimpleName

/-- Whether a slot holds a parenthesized expression. -/
def isParenthesized (slot : Slot) : Bool :=
  match arena.form? slot with
  | some (.parenthesized _) => true
  | _ => false

/-- Whether a slot holds the literal `Nothing`. -/
def isNothing (slot : Slot) : Bool :=
  match arena.form? slot with
  | some (.literal .nothing) => true
  | _ => false

/-- Follow origins for at most the given number of nodes. -/
def standsForWithin : Nat → Slot → Slot
  | 0, slot => slot
  | steps + 1, slot =>
      match arena.node? slot with
      | some ⟨_, _, some origin, _⟩ => standsForWithin steps (some origin)
      | _ => slot

/-- The parsed node that the node in a slot ultimately stands for. A chain of
origins without a repetition is no longer than the arena. -/
def standsFor (slot : Slot) : Slot :=
  arena.standsForWithin arena.size slot

/-- Enter at most the given number of parentheses. -/
def skipParensWithin : Nat → Slot → Slot
  | 0, slot => slot
  | steps + 1, slot =>
      match arena.form? slot with
      | some (.parenthesized inner) => skipParensWithin steps inner
      | _ => slot

/-- The slot below any number of enclosing parentheses. A nesting without a
repetition is no deeper than the arena is long. -/
def skipParens (slot : Slot) : Slot :=
  arena.skipParensWithin arena.size slot

/-- Replace the trivia of a node. -/
def setTrivia (slot : Slot) (trivia : String) : Arena :=
  match slot with
  | none => arena
  | some node =>
      { arena with
        nodes := arena.nodes.modify node.index ({ · with trivia := trivia }) }

/-! ## Looking up after a change -/

@[simp] theorem size_add (node : Node) :
    (arena.add node).2.size = arena.size + 1 := by
  simp [add, size]

/-- The added node is found at the next position, and every other slot holds
what it held before. -/
theorem node?_add (node : Node) (slot : Slot) :
    (arena.add node).2.node? slot =
      if slot = some (arena.add node).1 then some node
      else arena.node? slot := by
  cases slot with
  | none => simp [node?]
  | some id =>
      cases id
      simp [node?, add, size, Array.getElem?_push]

@[simp] theorem size_setTrivia (slot : Slot) (trivia : String) :
    (arena.setTrivia slot trivia).size = arena.size := by
  cases slot <;> simp [setTrivia, size]

/-- Only the trivia of the given node changes. -/
theorem node?_setTrivia (target slot : Slot) (trivia : String) :
    (arena.setTrivia target trivia).node? slot =
      if slot = target then
        (arena.node? slot).map ({ · with trivia := trivia })
      else arena.node? slot := by
  cases target with
  | none => cases slot <;> simp [setTrivia, node?]
  | some target =>
      cases slot with
      | none => simp [node?]
      | some id =>
          cases id
          cases target
          simp [setTrivia, node?, Array.getElem?_modify, eq_comm]

end Arena

namespace Building

/-- Add a node as given. -/
def add (node : Node) : Building NodeId :=
  fun arena => arena.add node

/-- Add a parsed node at the cursor, one character long. -/
def parsed (form : Form) : Building NodeId :=
  fun arena => arena.add
    { span := { start := arena.cursor, stop := arena.cursor + 1 }, form }

/-- Add a node that replaces the one in `origin`. It takes over the range, so
that a report on it still points at the user's text. -/
def synthesize (origin : Slot) (form : Form) : Building NodeId :=
  fun arena =>
    let span :=
      match arena.node? origin with
      | some node => node.span
      | none => {}
    arena.add { span, origin, form }

/-- Replace the trivia of a node that has just been made. -/
def setTrivia (slot : Slot) (trivia : String) : Building Unit :=
  fun arena => ((), arena.setTrivia slot trivia)

/-- A copy of the node in a slot with `trivia` before its own trivia. The slot
itself is returned where there is nothing to copy or nothing to put before
it. -/
def withPrependedTrivia (slot : Slot) (trivia : String) : Building Slot :=
  fun arena =>
    match arena.node? slot with
    | none => (slot, arena)
    | some node =>
        if trivia = "" then
          (slot, arena)
        else
          let (copy, arena) := arena.add
            { node with trivia := trivia ++ node.trivia, origin := slot }
          (some copy, arena)

/-- A copy of the node in a slot without its trivia, or the slot itself where
there is nothing to copy or no trivia to leave out. -/
def withoutTrivia (slot : Slot) : Building Slot :=
  fun arena =>
    match arena.node? slot with
    | none => (slot, arena)
    | some node =>
        if node.trivia = "" then
          (slot, arena)
        else
          let (copy, arena) := arena.add
            { node with trivia := "", origin := slot }
          (some copy, arena)

end Building

end BasicLowering.Source
