import BasicLowering.Proofs.Binding.Links
import BasicLowering.Proofs.Source.Tree
import Mathlib.Data.List.Nodup

/-!
# Reading trees from the arena

An arena holds a tree when each node has the form that the tree says. An
operator that the front end binds to a variable is a reference to that variable,
and hence an operand and not an operator.

The walks of the analyses are bounded by the length of the arena. The nodes of a
tree are different and all in the arena, so the bounds are never felt.
-/

namespace BasicLowering.Source

open Binding Analysis

variable {Label : Type}

theorem NodeId.index_injective : Function.Injective NodeId.index := by
  intro left right sameIndex
  cases left
  cases right
  exact congrArg NodeId.mk sameIndex

namespace Arena

variable {arena : Arena}

theorem index_lt_of_holds {node : NodeId}
    (held : arena.holds (some node) = true) : node.index < arena.size := by
  by_contra outside
  have missing : arena.nodes[node.index]? = none :=
    Array.getElem?_eq_none (Nat.le_of_not_lt outside)
  simp [holds, node?, missing] at held

theorem index_lt_of_form? {node : NodeId} {form : Form}
    (found : arena.form? (some node) = some form) : node.index < arena.size := by
  obtain ⟨held, isHeld, -⟩ := Option.map_eq_some_iff.mp found
  exact index_lt_of_holds (Option.isSome_of_eq_some isHeld)

/-- Different nodes of an arena are no more than the arena has. -/
theorem length_le_size {nodes : List NodeId} (distinct : nodes.Nodup)
    (inside : ∀ node ∈ nodes, node.index < arena.size) :
    nodes.length ≤ arena.size :=
  length_le_of_nodup NodeId.index_injective distinct inside

theorem skipParensWithin_of_not_parenthesized {slot : Slot}
    (plain : arena.isParenthesized slot = false) (steps : Nat) :
    arena.skipParensWithin steps slot = slot := by
  cases steps with
  | zero => rfl
  | succ steps =>
      unfold skipParensWithin
      split
      · next inner found => simp [isParenthesized, found] at plain
      · rfl

end Arena

/-- Whether the front end takes a node for a reference to a variable. -/
def bindsVariable (model : Model) (arena : Arena) (node : NodeId) : Bool :=
  (model.symbol? (arena.standsFor (some node))).any isVariable

namespace Tree

/-- The arena holds the expression, node by node. -/
def HeldBy (model : Model) (arena : Arena) : Tree Label → Prop
  | operand node _ =>
      arena.holds (some node) = true ∧
        arena.isParenthesized (some node) = false
  | parenthesized node inner =>
      arena.form? (some node) = some (.parenthesized inner.slot) ∧
        inner.HeldBy model arena
  | negation node inner =>
      arena.form? (some node) = some (.unary .not inner.slot) ∧
        bindsVariable model arena node = false ∧ inner.HeldBy model arena
  | binary node left operator right =>
      arena.form? (some node) =
          some (.binary left.slot operator right.slot) ∧
        bindsVariable model arena node = false ∧
        left.HeldBy model arena ∧ right.HeldBy model arena
  | ternary node condition whenTrue whenFalse =>
      arena.form? (some node) =
          some (.ternary condition.slot whenTrue.slot whenFalse.slot) ∧
        bindsVariable model arena node = false ∧
        condition.HeldBy model arena ∧ whenTrue.HeldBy model arena ∧
        whenFalse.HeldBy model arena

instance decidableHeldBy (model : Model) (arena : Arena) :
    (tree : Tree Label) → Decidable (tree.HeldBy model arena)
  | operand _ _ => inferInstanceAs (Decidable (_ ∧ _))
  | parenthesized _ inner =>
      have := decidableHeldBy model arena inner
      inferInstanceAs (Decidable (_ ∧ _))
  | negation _ inner =>
      have := decidableHeldBy model arena inner
      inferInstanceAs (Decidable (_ ∧ _ ∧ _))
  | binary _ left _ right =>
      have := decidableHeldBy model arena left
      have := decidableHeldBy model arena right
      inferInstanceAs (Decidable (_ ∧ _ ∧ _ ∧ _))
  | ternary _ condition whenTrue whenFalse =>
      have := decidableHeldBy model arena condition
      have := decidableHeldBy model arena whenTrue
      have := decidableHeldBy model arena whenFalse
      inferInstanceAs (Decidable (_ ∧ _ ∧ _ ∧ _ ∧ _))

variable {model : Model} {arena : Arena}

/-- Every node of a tree is in the arena. -/
theorem HeldBy.index_lt {tree : Tree Label} (held : tree.HeldBy model arena) :
    ∀ node ∈ tree.nodes, node.index < arena.size := by
  induction tree with
  | operand node label =>
      intro found member
      rw [List.mem_singleton.mp member]
      exact Arena.index_lt_of_holds held.1
  | parenthesized node inner ih =>
      intro found member
      rcases List.mem_cons.mp member with rfl | below
      · exact Arena.index_lt_of_form? held.1
      · exact ih held.2 found below
  | negation node inner ih =>
      intro found member
      rcases List.mem_cons.mp member with rfl | below
      · exact Arena.index_lt_of_form? held.1
      · exact ih held.2.2 found below
  | binary node left operator right leftIH rightIH =>
      intro found member
      rcases List.mem_cons.mp member with rfl | below
      · exact Arena.index_lt_of_form? held.1
      · rcases List.mem_append.mp below with below | below
        · exact leftIH held.2.2.1 found below
        · exact rightIH held.2.2.2 found below
  | ternary node condition whenTrue whenFalse testIH trueIH falseIH =>
      intro found member
      rcases List.mem_cons.mp member with rfl | below
      · exact Arena.index_lt_of_form? held.1
      · rcases List.mem_append.mp below with below | below
        · rcases List.mem_append.mp below with below | below
          · exact testIH held.2.2.1 found below
          · exact trueIH held.2.2.2.1 found below
        · exact falseIH held.2.2.2.2 found below

theorem HeldBy.length_nodes_le {tree : Tree Label}
    (held : tree.HeldBy model arena) (distinct : tree.nodes.Nodup) :
    tree.nodes.length ≤ arena.size :=
  Arena.length_le_size distinct held.index_lt

/-! ## Parentheses -/

theorem HeldBy.core_not_parenthesized {tree : Tree Label}
    (held : tree.HeldBy model arena) :
    arena.isParenthesized tree.core.slot = false := by
  induction tree with
  | operand node label => exact held.2
  | parenthesized node inner ih => exact ih held.2
  | negation | binary | ternary =>
      simp [core, slot, root, Arena.isParenthesized, held.1]

theorem HeldBy.skipParensWithin {tree : Tree Label}
    (held : tree.HeldBy model arena) {steps : Nat}
    (enough : tree.wrappers ≤ steps) :
    arena.skipParensWithin steps tree.slot = tree.core.slot := by
  induction tree generalizing steps with
  | operand | negation | binary | ternary =>
      exact Arena.skipParensWithin_of_not_parenthesized
        held.core_not_parenthesized steps
  | parenthesized node inner ih =>
      cases steps with
      | zero => simp [wrappers] at enough
      | succ steps =>
          rw [slot, root, Arena.skipParensWithin, held.1]
          exact ih held.2 (Nat.le_of_succ_le_succ enough)

/-- Entering all parentheses of a tree leads to its core. -/
theorem HeldBy.skipParens {tree : Tree Label}
    (held : tree.HeldBy model arena) (distinct : tree.nodes.Nodup) :
    arena.skipParens tree.slot = tree.core.slot :=
  held.skipParensWithin <|
    (Nat.le_of_lt tree.wrappers_lt_length_nodes).trans
      (held.length_nodes_le distinct)

theorem HeldBy.skipParens_core {tree : Tree Label}
    (held : tree.HeldBy model arena) :
    arena.skipParens tree.core.slot = tree.core.slot :=
  Arena.skipParensWithin_of_not_parenthesized held.core_not_parenthesized _

end Tree

end BasicLowering.Source
