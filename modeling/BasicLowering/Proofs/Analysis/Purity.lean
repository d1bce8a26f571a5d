import BasicLowering.Analysis.Purity
import BasicLowering.Proofs.Source.Reading

/-!
# Pure expressions

An expression is pure when all its parts are, and evaluating it leaves no trace.
The search for effects looks no deeper than the arena is long; looking deeper
would find the same.
-/

namespace BasicLowering.Analysis

open Source Binding Semantics

variable {Label Event : Type} {model : Model} {arena : Arena}

/-- One level of the search for effects. -/
theorem isPureWithin_succ_eq (depth : Nat) (slot : Slot) :
    isPureWithin model arena (depth + 1) slot =
      (isSafelyReusable model arena (arena.skipParens slot) ||
        match arena.form? (arena.skipParens slot) with
        | some (.binary left _ right) =>
            isPureWithin model arena depth left &&
              isPureWithin model arena depth right
        | some (.unary _ operand) => isPureWithin model arena depth operand
        | _ => false) := by
  conv_lhs => unfold isPureWithin
  simp only
  cases arena.form? (arena.skipParens slot) with
  | none => rfl
  | some form => cases form <;> rfl

/-- Looking deeper never makes an operand less pure. -/
theorem isPureWithin_succ {depth : Nat} {slot : Slot}
    (pure : isPureWithin model arena depth slot = true) :
    isPureWithin model arena (depth + 1) slot = true := by
  induction depth generalizing slot with
  | zero =>
      have reusable :
          isSafelyReusable model arena (arena.skipParens slot) = true := by
        simpa [isPureWithin] using pure
      rw [isPureWithin_succ_eq, reusable, Bool.true_or]
  | succ depth ih =>
      rw [isPureWithin_succ_eq, Bool.or_eq_true] at pure ⊢
      rcases pure with reusable | pure
      · exact .inl reusable
      · right
        split at pure
        · rw [Bool.and_eq_true] at pure ⊢
          exact ⟨ih pure.1, ih pure.2⟩
        · exact ih pure
        · cases pure

/-- Parentheses do not change whether an operand is pure. -/
theorem isPureWithin_congr (depth : Nat) {left right : Slot}
    (sameCore : arena.skipParens left = arena.skipParens right) :
    isPureWithin model arena depth left =
      isPureWithin model arena depth right := by
  cases depth with
  | zero => simp [isPureWithin, sameCore]
  | succ depth => rw [isPureWithin_succ_eq, isPureWithin_succ_eq, sameCore]

theorem isPure_congr {left right : Slot}
    (sameCore : arena.skipParens left = arena.skipParens right) :
    isPure model arena left = isPure model arena right :=
  isPureWithin_congr arena.size sameCore

theorem isSafelyReusable_eq_false {slot : Slot}
    (bare : arena.isParenthesized slot = false)
    (noLiteral : isLiteral arena slot = false)
    (noVariable :
      (model.symbol? (arena.standsFor slot)).any isVariable = false) :
    isSafelyReusable model arena slot = false := by
  unfold isSafelyReusable Arena.skipParens
  rw [Arena.skipParensWithin_of_not_parenthesized bare]
  simp only [noLiteral, noVariable, Bool.or_self]

/-- An operator that binds no variable is pure only if its operands are. -/
theorem isPure_operands {node : NodeId} {form : Form}
    (found : arena.form? (some node) = some form)
    (bare : arena.isParenthesized (some node) = false)
    (noLiteral : isLiteral arena (some node) = false)
    (noVariable : bindsVariable model arena node = false)
    (pure : isPure model arena (some node) = true) :
    match form with
    | .binary left _ right =>
        isPure model arena left = true ∧ isPure model arena right = true
    | .unary _ operand => isPure model arena operand = true
    | _ => False := by
  have inside := Arena.index_lt_of_form? found
  obtain ⟨depth, deep⟩ : ∃ depth, arena.size = depth + 1 :=
    Nat.exists_eq_succ_of_ne_zero (Nat.ne_of_gt (Nat.zero_lt_of_lt inside))
  unfold isPure at pure ⊢
  rw [deep, isPureWithin_succ_eq] at pure
  have skipped : arena.skipParens (some node) = some node :=
    Arena.skipParensWithin_of_not_parenthesized bare _
  rw [skipped, isSafelyReusable_eq_false bare noLiteral noVariable] at pure
  rw [found, Bool.false_or] at pure
  rw [deep]
  cases form with
  | binary left operator right =>
      simp only [Bool.and_eq_true] at pure
      exact ⟨isPureWithin_succ pure.1, isPureWithin_succ pure.2⟩
  | unary operator operand => exact isPureWithin_succ pure
  | _ => simp at pure

/-- Every part of a pure expression is pure. -/
theorem isPure_of_mem_nodes {tree : Source.Tree Label}
    (held : tree.HeldBy model arena) (distinct : tree.nodes.Nodup)
    (pure : isPure model arena tree.slot = true) :
    ∀ node ∈ tree.nodes, isPure model arena (some node) = true := by
  induction tree with
  | operand node label =>
      intro other member
      rw [List.mem_singleton.mp member]
      exact pure
  | parenthesized node inner ih =>
      intro other member
      have innerDistinct := (List.nodup_cons.mp distinct).2
      have sameCore : arena.skipParens (some node) =
          arena.skipParens inner.slot := by
        rw [held.2.skipParens innerDistinct]
        exact held.skipParens distinct
      rcases List.mem_cons.mp member with rfl | below
      · exact pure
      · exact ih held.2 innerDistinct (isPure_congr sameCore ▸ pure) other below
  | negation node inner ih =>
      intro other member
      have operandPure : isPure model arena inner.slot = true :=
        isPure_operands held.1 held.core_not_parenthesized
          (by simp [isLiteral, held.1]) held.2.1 pure
      rcases List.mem_cons.mp member with rfl | below
      · exact pure
      · exact ih held.2.2 (List.nodup_cons.mp distinct).2 operandPure other
          below
  | binary node left operator right leftIH rightIH =>
      intro other member
      obtain ⟨leftPure, rightPure⟩ :
          isPure model arena left.slot = true ∧
            isPure model arena right.slot = true :=
        isPure_operands held.1 held.core_not_parenthesized
          (by simp [isLiteral, held.1]) held.2.1 pure
      have below := List.nodup_append.mp (List.nodup_cons.mp distinct).2
      rcases List.mem_cons.mp member with rfl | member
      · exact pure
      · rcases List.mem_append.mp member with inLeft | inRight
        · exact leftIH held.2.2.1 below.1 leftPure other inLeft
        · exact rightIH held.2.2.2 below.2.1 rightPure other inRight
  | ternary node condition whenTrue whenFalse =>
      exact (isPure_operands held.1 held.core_not_parenthesized
        (by simp [isLiteral, held.1]) held.2.1 pure).elim

/-- Evaluating nodes that leave nothing behind leaves nothing behind. -/
theorem events_run_eq_nil {noted : NodeId → List Event}
    (values : NodeId → Value) {tree : Source.Tree Label}
    (silent : ∀ node ∈ tree.nodes, noted node = []) :
    (tree.run noted values).events = [] := by
  induction tree with
  | operand node label => exact silent node (List.mem_singleton.mpr rfl)
  | parenthesized node inner ih | negation node inner ih =>
      have below := ih fun other member =>
        silent other (List.mem_cons_of_mem node member)
      simp only [Tree.run, Outcome.after, Outcome.negation, below,
        silent node List.mem_cons_self, List.append_nil]
  | binary node left operator right leftIH rightIH =>
      have leftSilent := leftIH fun other member =>
        silent other (by simp [Tree.nodes, member])
      have rightSilent := rightIH fun other member =>
        silent other (by simp [Tree.nodes, member])
      simp only [Tree.run, Outcome.after, Outcome.binary, leftSilent,
        rightSilent, silent node List.mem_cons_self, List.append_nil, ite_self]
  | ternary node condition whenTrue whenFalse testIH trueIH falseIH =>
      have testSilent := testIH fun other member =>
        silent other (by simp [Tree.nodes, member])
      have trueSilent := trueIH fun other member =>
        silent other (by simp [Tree.nodes, member])
      have falseSilent := falseIH fun other member =>
        silent other (by simp [Tree.nodes, member])
      simp only [Tree.run, Outcome.after, Outcome.ternary, testSilent,
        trueSilent, falseSilent, silent node List.mem_cons_self,
        List.append_nil, ite_self]

end BasicLowering.Analysis
