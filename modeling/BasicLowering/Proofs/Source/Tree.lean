import BasicLowering.Lowering.Binary
import BasicLowering.Proofs.Semantics.Value

/-!
# Expressions as trees

The arena holds an expression as nodes that refer to each other. Here the same
expression is a tree of operators over operands, where each part knows the node
that holds it. What an operand is made of does not matter for most arguments, so
an operand carries a label of any type.

A place in a tree is a list of frames, innermost first. It is what remains of
the tree when the part in that place is taken out, and it spells the path above
that part.
-/

namespace BasicLowering.Source

open Semantics

/-- An expression. Every part carries the node that holds it. -/
inductive Tree (Label : Type) where
  | operand (node : NodeId) (label : Label)
  | parenthesized (node : NodeId) (inner : Tree Label)
  | negation (node : NodeId) (inner : Tree Label)
  | binary (node : NodeId) (left : Tree Label) (operator : BinaryOperator)
      (right : Tree Label)
  | ternary (node : NodeId) (condition whenTrue whenFalse : Tree Label)

namespace Tree

variable {Label : Type}

/-- The node that holds the whole expression. -/
def root : Tree Label → NodeId
  | operand node _ | parenthesized node _ | negation node _
  | binary node _ _ _ | ternary node _ _ _ => node

/-- The slot that refers to the whole expression. -/
def slot (tree : Tree Label) : Slot :=
  some tree.root

/-- The nodes of an expression, each before the nodes below it. What an operand
is made of is not listed. -/
def nodes : Tree Label → List NodeId
  | operand node _ => [node]
  | parenthesized node inner | negation node inner => node :: inner.nodes
  | binary node left _ right => node :: (left.nodes ++ right.nodes)
  | ternary node condition whenTrue whenFalse =>
      node :: (condition.nodes ++ whenTrue.nodes ++ whenFalse.nodes)

/-- The expression inside the parentheses. -/
def core : Tree Label → Tree Label
  | parenthesized _ inner => inner.core
  | tree => tree

/-- How many parentheses stand around the core. -/
def wrappers : Tree Label → Nat
  | parenthesized _ inner => inner.wrappers + 1
  | _ => 0

/-- Whether an expression is made of logical operators and comparisons only. -/
def IsLogical : Tree Label → Prop
  | operand _ _ => True
  | parenthesized _ inner | negation _ inner => inner.IsLogical
  | binary _ left operator right =>
      Lowering.isRestated operator = true ∧ left.IsLogical ∧ right.IsLogical
  | ternary _ _ _ _ => False

instance decidableIsLogical : (tree : Tree Label) → Decidable tree.IsLogical
  | operand _ _ => .isTrue trivial
  | parenthesized _ inner | negation _ inner => decidableIsLogical inner
  | binary _ left _ right =>
      have := decidableIsLogical left
      have := decidableIsLogical right
      inferInstanceAs (Decidable (_ ∧ _ ∧ _))
  | ternary _ _ _ _ => .isFalse id

/-- Evaluate an expression, where `values` gives the value of every operand and
`noted` what happens when a node is reached. -/
def run {Event : Type} (noted : NodeId → List Event) (values : NodeId → Value) :
    Tree Label → Outcome Event
  | operand node _ => ⟨values node, noted node⟩
  | parenthesized node inner => (inner.run noted values).after (noted node)
  | negation node inner =>
      (inner.run noted values).negation.after (noted node)
  | binary node left operator right =>
      (Outcome.binary operator (left.run noted values)
        (right.run noted values)).after (noted node)
  | ternary node condition whenTrue whenFalse =>
      (Outcome.ternary (condition.run noted values)
        (whenTrue.run noted values) (whenFalse.run noted values)).after
          (noted node)

@[simp] theorem root_mem_nodes (tree : Tree Label) :
    tree.root ∈ tree.nodes := by
  cases tree <;> simp [root, nodes]

theorem core_root_mem_nodes (tree : Tree Label) :
    tree.core.root ∈ tree.nodes := by
  induction tree with
  | parenthesized node inner ih => simp [core, nodes, ih]
  | operand | negation | binary | ternary => simp [core, root, nodes]

theorem wrappers_lt_length_nodes (tree : Tree Label) :
    tree.wrappers < tree.nodes.length := by
  induction tree with
  | parenthesized node inner ih => simp [wrappers, nodes, ih]
  | operand | negation | binary | ternary => simp [wrappers, nodes]

/-- The value of an expression, whatever happens on the way. -/
def value (values : NodeId → Value) (tree : Tree Label) : Value :=
  (tree.run (fun _ => ([] : List Unit)) values).value

@[simp] theorem value_run {Event : Type} (noted : NodeId → List Event)
    (values : NodeId → Value) (tree : Tree Label) :
    (tree.run noted values).value = tree.value values := by
  unfold value
  induction tree with
  | operand => rfl
  | parenthesized node inner ih => exact ih
  | negation node inner ih =>
      simp only [run, Outcome.after, Outcome.negation, ih]
  | binary node left operator right leftIH rightIH =>
      simp only [run, Outcome.after, Outcome.binary, leftIH, rightIH]
  | ternary node condition whenTrue whenFalse testIH trueIH falseIH =>
      simp only [run, Outcome.after, Outcome.ternary, testIH, trueIH, falseIH]

@[simp] theorem value_binary (values : NodeId → Value) (node : NodeId)
    (left right : Tree Label) (operator : BinaryOperator) :
    (binary node left operator right).value values =
      combine operator (left.value values) (right.value values) := rfl

@[simp] theorem value_negation (values : NodeId → Value) (node : NodeId)
    (inner : Tree Label) :
    (negation node inner).value values = (inner.value values).negate := rfl

@[simp] theorem value_parenthesized (values : NodeId → Value) (node : NodeId)
    (inner : Tree Label) :
    (parenthesized node inner).value values = inner.value values := rfl

@[simp] theorem value_operand (values : NodeId → Value) (node : NodeId)
    (label : Label) : (operand node label).value values = values node := rfl

@[simp] theorem value_ternary (values : NodeId → Value) (node : NodeId)
    (condition whenTrue whenFalse : Tree Label) :
    (ternary node condition whenTrue whenFalse).value values =
      if (condition.value values).isTrue then whenTrue.value values
      else whenFalse.value values := rfl

/-- The first that happens is what happens at the root. -/
theorem noted_root_prefix {Event : Type} (noted : NodeId → List Event)
    (values : NodeId → Value) (tree : Tree Label) :
    noted tree.root <+: (tree.run noted values).events := by
  cases tree with
  | operand node label => exact List.prefix_rfl
  | parenthesized | negation | binary | ternary =>
      exact List.prefix_append _ _

end Tree

/-! ## Places -/

/-- What surrounds a part of an expression one level up. -/
inductive Frame (Label : Type) where
  | parenthesized (node : NodeId)
  | negation (node : NodeId)
  | leftOperand (node : NodeId) (operator : BinaryOperator)
      (right : Tree Label)
  | rightOperand (node : NodeId) (left : Tree Label)
      (operator : BinaryOperator)
  | ternaryTest (node : NodeId) (whenTrue whenFalse : Tree Label)
  | trueBranch (node : NodeId) (condition whenFalse : Tree Label)
  | falseBranch (node : NodeId) (condition whenTrue : Tree Label)

namespace Frame

variable {Label : Type}

/-- The node that the frame belongs to. -/
def node : Frame Label → NodeId
  | parenthesized node | negation node | leftOperand node _ _
  | rightOperand node _ _ | ternaryTest node _ _ | trueBranch node _ _
  | falseBranch node _ _ => node

/-- Put a part into its frame. -/
def plug : Frame Label → Tree Label → Tree Label
  | parenthesized node, part => .parenthesized node part
  | negation node, part => .negation node part
  | leftOperand node operator right, part => .binary node part operator right
  | rightOperand node left operator, part => .binary node left operator part
  | ternaryTest node whenTrue whenFalse, part =>
      .ternary node part whenTrue whenFalse
  | trueBranch node condition whenFalse, part =>
      .ternary node condition part whenFalse
  | falseBranch node condition whenTrue, part =>
      .ternary node condition whenTrue part

/-- Evaluate a frame around a part with the given outcome. -/
def resume {Event : Type} (noted : NodeId → List Event)
    (values : NodeId → Value) (frame : Frame Label)
    (part : Outcome Event) : Outcome Event :=
  Outcome.after (noted frame.node) <|
    match frame with
    | parenthesized _ => part
    | negation _ => part.negation
    | leftOperand _ operator right =>
        .binary operator part (right.run noted values)
    | rightOperand _ left operator =>
        .binary operator (left.run noted values) part
    | ternaryTest _ whenTrue whenFalse =>
        .ternary part (whenTrue.run noted values) (whenFalse.run noted values)
    | trueBranch _ condition whenFalse =>
        .ternary (condition.run noted values) part
          (whenFalse.run noted values)
    | falseBranch _ condition whenTrue =>
        .ternary (condition.run noted values) (whenTrue.run noted values) part

@[simp] theorem root_plug (frame : Frame Label) (part : Tree Label) :
    (frame.plug part).root = frame.node := by
  cases frame <;> rfl

@[simp] theorem run_plug {Event : Type} (noted : NodeId → List Event)
    (values : NodeId → Value) (frame : Frame Label) (part : Tree Label) :
    (frame.plug part).run noted values =
      frame.resume noted values (part.run noted values) := by
  cases frame <;> rfl

end Frame

/-- The frames around a part, innermost first. -/
abbrev Place (Label : Type) := List (Frame Label)

namespace Place

variable {Label : Type}

/-- Put a part into its place. -/
def plug : Place Label → Tree Label → Tree Label
  | [], part => part
  | frame :: outer, part => plug outer (frame.plug part)

/-- Evaluate the whole expression around a part with the given outcome. -/
def resume {Event : Type} (noted : NodeId → List Event)
    (values : NodeId → Value) : Place Label → Outcome Event → Outcome Event
  | [], part => part
  | frame :: outer, part =>
      resume noted values outer (frame.resume noted values part)

/-- The path above a part, where `above` is the path above the whole
expression. -/
def path (place : Place Label) (above : Path) : Path :=
  place.map (fun frame => .unchanged (some frame.node)) ++ above

@[simp] theorem path_nil (above : Path) :
    path ([] : Place Label) above = above := rfl

@[simp] theorem path_cons (frame : Frame Label) (outer : Place Label)
    (above : Path) :
    path (frame :: outer) above =
      .unchanged (some frame.node) :: path outer above := rfl

/-- Evaluating an expression evaluates the part and goes on around it. -/
theorem run_plug {Event : Type} (noted : NodeId → List Event)
    (values : NodeId → Value) (place : Place Label) (part : Tree Label) :
    (place.plug part).run noted values =
      place.resume noted values (part.run noted values) := by
  induction place generalizing part with
  | nil => rfl
  | cons frame outer ih =>
      simp only [plug, resume]
      rw [ih, Frame.run_plug]

end Place

end BasicLowering.Source
