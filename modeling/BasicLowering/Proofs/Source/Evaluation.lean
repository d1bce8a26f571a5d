import BasicLowering.Proofs.Source.Typing

/-!
# Evaluating typed trees

The value of an expression of the source language and the calls it makes, in
order. Where variables and functions have values of their types, an expression
has a value of its type; in particular it is null only if its type is nullable.
-/

namespace BasicLowering.Source

open Semantics

/-- Whether a value belongs to a type. -/
def ScalarType.admits (type : ScalarType) : Value → Bool
  | .null => type.nullable
  | .boolean _ => type.base == .boolean
  | .integer _ => type.base == .integer

/-- The value of an operand and the call it makes. -/
def Leaf.outcome (world : World) : Leaf → Outcome String
  | reference text _ => ⟨world.locals text, []⟩
  | call _ text _ => ⟨world.functions text, [text]⟩
  | truth value => ⟨.boolean value, []⟩
  | digits text => ⟨.integer (numeral text), []⟩
  | hasValue _ _ text _ => ⟨.boolean (world.locals text != .null), []⟩
  | comparedWithNothing _ _ _ negated text _ =>
      ⟨.boolean ((world.locals text == .null) != negated), []⟩

namespace Tree

/-- Evaluate an expression. -/
def evaluate (world : World) : Tree Leaf → Outcome String
  | operand _ leaf => leaf.outcome world
  | parenthesized _ inner => inner.evaluate world
  | negation _ inner => (inner.evaluate world).negation
  | binary _ left operator right =>
      .binary operator (left.evaluate world) (right.evaluate world)
  | ternary _ condition whenTrue whenFalse =>
      .ternary (condition.evaluate world) (whenTrue.evaluate world)
        (whenFalse.evaluate world)

/-- Whether the variables and the functions of an expression have values of
their types. -/
def Fits (world : World) (tree : Tree Leaf) : Prop :=
  ∀ leaf ∈ tree.leaves, leaf.type.admits (leaf.outcome world).value = true

end Tree

namespace ScalarType

variable {type leftType rightType : ScalarType} {value left right : Value}

theorem ne_null_of_admits (admits : type.admits value = true)
    (notNullable : type.nullable = false) : value ≠ .null := by
  rintro rfl
  rw [ScalarType.admits, notNullable] at admits
  cases admits

theorem isLogical_of_admits (admits : type.admits value = true)
    (isBoolean : type.base = .boolean) : value.isLogical = true := by
  cases value with
  | null | boolean => rfl
  | integer =>
      rw [ScalarType.admits, isBoolean] at admits
      cases admits

theorem isNumeric_of_admits (admits : type.admits value = true)
    (isInteger : type.base = .integer) : value.isNumeric = true := by
  cases value with
  | null | integer => rfl
  | boolean =>
      rw [ScalarType.admits, isInteger] at admits
      cases admits

end ScalarType

/-- A logical value belongs to `Boolean` unless it is null. -/
theorem admits_of_isLogical {nullable : Bool} {value : Value}
    (isLogical : value.isLogical = true)
    (missing : value = .null → nullable = true) :
    ScalarType.admits ⟨.boolean, nullable⟩ value = true := by
  cases value with
  | null => exact missing rfl
  | boolean => rfl
  | integer => cases isLogical

namespace Tree

variable {world : World}

theorem Fits.of_append {left right : List Leaf}
    (fits : ∀ leaf ∈ left ++ right,
      leaf.type.admits (leaf.outcome world).value = true) :
    (∀ leaf ∈ left, leaf.type.admits (leaf.outcome world).value = true) ∧
      ∀ leaf ∈ right, leaf.type.admits (leaf.outcome world).value = true :=
  List.forall_mem_append.mp fits

/-- The values of operands fit the operator. -/
theorem fitOperator_of_admits {operator : BinaryOperator}
    {leftType rightType : ScalarType} {left right : Value}
    (leftBase : leftType.base = operandBase operator)
    (rightBase : rightType.base = operandBase operator)
    (leftAdmits : leftType.admits left = true)
    (rightAdmits : rightType.admits right = true) :
    FitOperator operator left right := by
  unfold FitOperator
  unfold operandBase at leftBase rightBase
  split <;> rename_i relational
  · rw [if_pos relational] at leftBase rightBase
    exact ⟨ScalarType.isNumeric_of_admits leftAdmits leftBase,
      ScalarType.isNumeric_of_admits rightAdmits rightBase⟩
  · rw [if_neg relational] at leftBase rightBase
    exact ⟨ScalarType.isLogical_of_admits leftAdmits leftBase,
      ScalarType.isLogical_of_admits rightAdmits rightBase⟩

/-- An expression has a value of its type. -/
theorem admits_evaluate {tree : Tree Leaf} (wellTyped : tree.WellTyped)
    (fits : tree.Fits world) :
    tree.type.admits (tree.evaluate world).value = true := by
  induction tree with
  | operand node leaf => exact fits leaf (List.mem_singleton.mpr rfl)
  | parenthesized node inner ih => exact ih wellTyped fits
  | negation node inner ih =>
      have admits := ih wellTyped.2 fits
      rw [evaluate, Outcome.negation]
      generalize (inner.evaluate world).value = value at admits
      cases value <;> exact admits
  | binary node left operator right leftIH rightIH =>
      obtain ⟨restated, leftBase, rightBase, leftTyped, rightTyped⟩ := wellTyped
      have leftAdmits := leftIH leftTyped (Fits.of_append fits).1
      have rightAdmits := rightIH rightTyped (Fits.of_append fits).2
      obtain ⟨isLogical, missing⟩ := combine_fits
        (fitOperator_of_admits leftBase rightBase leftAdmits rightAdmits)
      apply admits_of_isLogical isLogical
      intro isNull
      rw [Bool.or_eq_true]
      rcases missing isNull with leftNull | rightNull
      · rw [leftNull] at leftAdmits
        exact .inl leftAdmits
      · rw [rightNull] at rightAdmits
        exact .inr rightAdmits
  | ternary node condition whenTrue whenFalse testIH trueIH falseIH =>
      obtain ⟨-, trueBase, falseBase, -, trueTyped, falseTyped⟩ := wellTyped
      have branches := Fits.of_append fits
      have trueAdmits := trueIH trueTyped (Fits.of_append branches.1).2
      have falseAdmits := falseIH falseTyped branches.2
      rw [type, trueBase]
      rw [evaluate, Outcome.ternary]
      simp only
      split
      · apply admits_of_isLogical
          (ScalarType.isLogical_of_admits trueAdmits trueBase)
        intro isNull
        rw [isNull] at trueAdmits
        exact Bool.or_eq_true_iff.mpr (.inl trueAdmits)
      · apply admits_of_isLogical
          (ScalarType.isLogical_of_admits falseAdmits falseBase)
        intro isNull
        rw [isNull] at falseAdmits
        exact Bool.or_eq_true_iff.mpr (.inr falseAdmits)

end Tree

end BasicLowering.Source
