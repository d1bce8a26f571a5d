import BasicLowering.Analysis.NullFlow
import BasicLowering.Proofs.Source.Valuation

/-!
# What conditions tell about a name

An operand to the right of `AndAlso` or `OrElse` is reached only if the left
side has not decided. What the left side then tells about a name is given here
by rules that are right by themselves: a conjunction that is not false tells
what either side tells, and one that is not true only what both sides tell.

The look-up of null flow takes the first answer of a conjunction in both cases.
Its answer is right wherever the rules give the same one, and where every name
is looked at only once, it is right nowhere else.
-/

namespace BasicLowering.Analysis

open Source Binding Semantics

variable {Label : Type} {model : Model} {arena : Arena}

/-- Whether a value is as a fact says. -/
def Nullability.describes : Nullability → Value → Bool
  | null, value => value == .null
  | notNull, value => value != .null

@[simp] theorem describes_ofNotNull (notNull : Bool) (value : Value) :
    (Nullability.ofNotNull notNull).describes value =
      ((value != .null) == notNull) := by
  cases notNull <;> cases value <;> rfl

/-! ## The rules -/

/-- Whether a condition tells a fact about a name where its value is not the
opposite of `result`. -/
def tells (arena : Arena) (name : String) :
    Source.Tree Label → (result : Bool) → Nullability → Bool
  | .operand node _, result, fact =>
      (arena.hasValueOf? node).any (Text.sameName · name) &&
        fact == .ofNotNull result
  | .parenthesized _ inner, result, fact => tells arena name inner result fact
  | .negation _ inner, result, fact => tells arena name inner (!result) fact
  | .binary _ left operator right, result, fact =>
      match operator, result with
      | .is, _ =>
          isNameAndNothing arena name left.slot right.slot &&
            fact == .ofNotNull !result
      | .isNot, _ =>
          isNameAndNothing arena name left.slot right.slot &&
            fact == .ofNotNull result
      | .andAlso, true | .and, true | .orElse, false | .or, false =>
          tells arena name left result fact ||
            tells arena name right result fact
      | .andAlso, false | .and, false | .orElse, true | .or, true =>
          tells arena name left result fact &&
            tells arena name right result fact
      | _, _ => false
  | .ternary _ _ _ _, _, _ => false

theorem worth_of_isNameAndNothing {name : String} {left right : Source.Tree Label}
    (leftHeld : left.HeldBy model arena) (leftDistinct : left.nodes.Nodup)
    (rightHeld : right.HeldBy model arena) (rightDistinct : right.nodes.Nodup)
    (isTest : isNameAndNothing arena name left.slot right.slot = true)
    (valuation : Valuation) :
    let value := valuation.names (foldedName name)
    left.worth arena valuation = value ∧
        right.worth arena valuation = .null ∨
      left.worth arena valuation = .null ∧
        right.worth arena valuation = value := by
  have identifierWorth {tree : Source.Tree Label} (held : tree.HeldBy model arena)
      (isName : (arena.nameText? tree.core.slot).any (Text.sameName · name) =
        true) :
      tree.worth arena valuation = valuation.names (foldedName name) := by
    unfold Arena.nameText? at isName
    split at isName
    · next text found =>
        rw [tree.worth_of_identifier held found]
        exact congrArg _ (sameName_iff.mp isName)
    · cases isName
  have nothingWorth {tree : Source.Tree Label} (held : tree.HeldBy model arena)
      (isNothing : arena.isNothing tree.core.slot = true) :
      tree.worth arena valuation = .null := by
    unfold Arena.isNothing at isNothing
    split at isNothing
    · next found => exact tree.worth_of_nothing held found valuation
    · cases isNothing
  simp only [isNameAndNothing, isName, leftHeld.skipParens leftDistinct,
    rightHeld.skipParens rightDistinct, Bool.or_eq_true, Bool.and_eq_true]
    at isTest
  rcases isTest with ⟨isName, isNothing⟩ | ⟨isNothing, isName⟩
  · exact .inl ⟨identifierWorth leftHeld isName,
      nothingWorth rightHeld isNothing⟩
  · exact .inr ⟨nothingWorth leftHeld isNothing,
      identifierWorth rightHeld isName⟩

/-- The rules are right: a name is as a condition tells. -/
theorem describes_of_tells {name : String} {tree : Source.Tree Label}
    (held : tree.HeldBy model arena) (distinct : tree.nodes.Nodup)
    {result : Bool} {fact : Nullability}
    (told : tells arena name tree result fact = true) {valuation : Valuation}
    (assumed : tree.worth arena valuation ≠ .boolean !result) :
    fact.describes (valuation.names (foldedName name)) = true := by
  induction tree generalizing result with
  | operand node label =>
      simp only [tells, Bool.and_eq_true, Option.any_eq_true, beq_iff_eq]
        at told
      obtain ⟨⟨receiver, isHasValue, sameName⟩, rfl⟩ := told
      have worth := Valuation.valueOf_hasValue isHasValue valuation
      rw [sameName_iff.mp sameName] at worth
      rw [Tree.worth, Tree.value_operand, worth] at assumed
      rw [describes_ofNotNull]
      simpa using assumed
  | parenthesized node inner ih =>
      exact ih held.2 (List.nodup_cons.mp distinct).2 told assumed
  | negation node inner ih =>
      refine ih held.2.2 (List.nodup_cons.mp distinct).2 told fun opposite => ?_
      apply assumed
      rw [Tree.worth_negation, opposite, Value.negate, Bool.not_not]
  | binary node left operator right leftIH rightIH =>
      have below := List.nodup_append.mp (List.nodup_cons.mp distinct).2
      have fromLeft := @leftIH held.2.2.1 below.1
      have fromRight := @rightIH held.2.2.2 below.2.1
      rw [Tree.worth_binary] at assumed
      cases operator with
      | is | isNot =>
          simp only [tells, Bool.and_eq_true, beq_iff_eq] at told
          obtain ⟨isTest, rfl⟩ := told
          rw [describes_ofNotNull]
          have sides := worth_of_isNameAndNothing held.2.2.1 below.1
            held.2.2.2 below.2.1 isTest valuation
          rcases sides with ⟨leftWorth, rightWorth⟩ | ⟨leftWorth, rightWorth⟩
          · rw [leftWorth, rightWorth] at assumed
            cases result <;> simpa [combine] using assumed
          · rw [leftWorth, rightWorth] at assumed
            cases result <;> simpa [combine, Value.null_beq, Value.null_bne] using assumed
      | andAlso | and =>
          cases result with
          | true =>
              have sides := Value.sides_of_conj_ne_false assumed
              rcases Bool.or_eq_true _ _ ▸ told with told | told
              · exact fromLeft told sides.1
              · exact fromRight told sides.2
          | false =>
              have told := Bool.and_eq_true _ _ ▸ told
              rcases Value.side_of_conj_ne_true assumed with side | side
              · exact fromLeft told.1 side
              · exact fromRight told.2 side
      | orElse | or =>
          cases result with
          | false =>
              have sides := Value.sides_of_disj_ne_true assumed
              rcases Bool.or_eq_true _ _ ▸ told with told | told
              · exact fromLeft told sides.1
              · exact fromRight told sides.2
          | true =>
              have told := Bool.and_eq_true _ _ ▸ told
              rcases Value.side_of_disj_ne_false assumed with side | side
              · exact fromLeft told.1 side
              · exact fromRight told.2 side
      | _ => cases told
  | ternary => cases told

/-! ## Conditions in which every name is looked at once -/

/-- Whether two operands are a name and `Nothing`. -/
def IsNullTest (arena : Arena) (left right : Slot) : Prop :=
  (∃ name, arena.nameText? left = some name) ∧ arena.isNothing right = true ∨
    arena.isNothing left = true ∧ ∃ name, arena.nameText? right = some name

/-- Whether a node is an operand from which nothing is told but what a test of
`HasValue` tells. -/
def isAtomic (arena : Arena) (node : NodeId) : Bool :=
  match arena.form? (some node) with
  | some (.binary _ operator _) =>
      !(operator.isConjunction || operator.isDisjunction ||
        operator == .is || operator == .isNot)
  | some (.unary .not _) => false
  | _ => true

end BasicLowering.Analysis

namespace BasicLowering.Source.Tree

open Binding Semantics Analysis

variable {Label : Type} {model : Model} {arena : Arena}

/-- Whether an expression is made of logical operators, comparisons, and tests
of a name for `Nothing`. -/
def IsNullLogic (arena : Arena) : Source.Tree Label → Prop
  | operand node _ => isAtomic arena node = true
  | parenthesized _ inner | negation _ inner => inner.IsNullLogic arena
  | binary _ left operator right =>
      if operator = .is ∨ operator = .isNot then
        IsNullTest arena left.core.slot right.core.slot
      else
        Lowering.isRestated operator = true ∧ left.IsNullLogic arena ∧
          right.IsNullLogic arena
  | ternary _ _ _ _ => False

/-- A name and `Nothing` are operands, in parentheses or not. -/
theorem isNullLogic_of_nullTest_side {tree : Source.Tree Label}
    (held : tree.HeldBy model arena)
    (side : (∃ name, arena.nameText? tree.core.slot = some name) ∨
      arena.isNothing tree.core.slot = true) : tree.IsNullLogic arena := by
  induction tree with
  | operand node label =>
      rcases side with ⟨name, isName⟩ | isNothing
      · unfold Arena.nameText? at isName
        split at isName
        · next found =>
            have isIdentifier : arena.form? (some node) = some (.identifier _) :=
              found
            simp [IsNullLogic, isAtomic, isIdentifier]
        · cases isName
      · unfold Arena.isNothing at isNothing
        split at isNothing
        · next found =>
            have isLiteral : arena.form? (some node) = some (.literal .nothing) :=
              found
            simp [IsNullLogic, isAtomic, isLiteral]
        · cases isNothing
  | parenthesized node inner ih => exact ih held.2 side
  | negation | binary | ternary =>
      simp [core, slot, root, Arena.nameText?, Arena.isNothing, held.1] at side

/-- Whether no operand is a literal, those that are compared by `Is` aside. -/
def hasNoLiteral (arena : Arena) : Source.Tree Label → Bool
  | operand node _ => !isLiteral arena (some node)
  | parenthesized _ inner | negation _ inner => inner.hasNoLiteral arena
  | binary _ left operator right =>
      operator == .is || operator == .isNot ||
        left.hasNoLiteral arena && right.hasNoLiteral arena
  | ternary _ _ _ _ => false

theorem exists_isNameAndNothing {left right : Source.Tree Label}
    (leftHeld : left.HeldBy model arena) (leftDistinct : left.nodes.Nodup)
    (rightHeld : right.HeldBy model arena) (rightDistinct : right.nodes.Nodup)
    (isTest : IsNullTest arena left.core.slot right.core.slot) :
    ∃ name, isNameAndNothing arena name left.slot right.slot = true := by
  simp only [isNameAndNothing, isName, leftHeld.skipParens leftDistinct,
    rightHeld.skipParens rightDistinct, Bool.or_eq_true, Bool.and_eq_true]
  rcases isTest with ⟨⟨name, isName⟩, isNothing⟩ | ⟨isNothing, name, isName⟩
  · exact ⟨name, .inl ⟨by simp [isName, sameName_iff], isNothing⟩⟩
  · exact ⟨name, .inr ⟨isNothing, by simp [isName, sameName_iff]⟩⟩

/-- The operands of an expression can be worth such that the expression is true
or false as wanted, if every name is looked at once. -/
theorem exists_valuation (tree : Source.Tree Label) (held : tree.HeldBy model arena)
    (distinct : tree.nodes.Nodup) (logic : tree.IsNullLogic arena)
    (noLiteral : tree.hasNoLiteral arena = true)
    (readOnce : (tree.names arena).Nodup) (wanted : Bool) :
    ∃ valuation, tree.worth arena valuation = .boolean wanted := by
  induction tree generalizing wanted with
  | operand node label =>
      cases isHasValue : arena.hasValueOf? node with
      | some name =>
          let truth : Value := if wanted then .boolean true else .null
          refine ⟨⟨fun _ => truth, fun _ => .null⟩, ?_⟩
          rw [worth, value_operand, Valuation.valueOf_hasValue isHasValue]
          cases wanted <;> rfl
      | none =>
          refine ⟨⟨fun _ => .boolean wanted, fun _ => .boolean wanted⟩, ?_⟩
          rw [worth, value_operand]
          simp only [Valuation.valueOf, isHasValue]
          split
          · rfl
          · next isNothing =>
              simp [hasNoLiteral, isLiteral, isNothing] at noLiteral
          · rfl
  | parenthesized node inner ih =>
      exact ih held.2 (List.nodup_cons.mp distinct).2 logic noLiteral readOnce
        wanted
  | negation node inner ih =>
      obtain ⟨valuation, opposite⟩ := ih held.2.2
        (List.nodup_cons.mp distinct).2 logic noLiteral readOnce (!wanted)
      refine ⟨valuation, ?_⟩
      rw [worth_negation, opposite, Value.negate, Bool.not_not]
  | binary node left operator right leftIH rightIH =>
      have below := List.nodup_append.mp (List.nodup_cons.mp distinct).2
      by_cases isTest : operator = .is ∨ operator = .isNot
      · rw [IsNullLogic, if_pos isTest] at logic
        obtain ⟨name, isNameAndNothing⟩ := exists_isNameAndNothing held.2.2.1
          below.1 held.2.2.2 below.2.1 logic
        let truth : Value :=
          if wanted = (operator == .is) then .null else .boolean true
        refine ⟨⟨fun _ => truth, fun _ => .null⟩, ?_⟩
        have sides := worth_of_isNameAndNothing held.2.2.1 below.1 held.2.2.2
          below.2.1 isNameAndNothing ⟨fun _ => truth, fun _ => .null⟩
        rw [worth_binary]
        rcases sides with ⟨leftWorth, rightWorth⟩ | ⟨leftWorth, rightWorth⟩ <;>
          rw [leftWorth, rightWorth] <;>
          rcases isTest with rfl | rfl <;> cases wanted <;> rfl
      · rw [IsNullLogic, if_neg isTest] at logic
        rw [not_or] at isTest
        have noLiterals : left.hasNoLiteral arena = true ∧
            right.hasNoLiteral arena = true := by
          simpa [hasNoLiteral, isTest.1, isTest.2] using noLiteral
        have namesOnce := List.nodup_append.mp readOnce
        obtain ⟨leftWanted, rightWanted, combined⟩ :=
          exists_combine_eq operator logic.1 wanted
        obtain ⟨leftValuation, leftWorth⟩ := leftIH held.2.2.1 below.1
          logic.2.1 noLiterals.1 namesOnce.1 leftWanted
        obtain ⟨rightValuation, rightWorth⟩ := rightIH held.2.2.2 below.2.1
          logic.2.2 noLiterals.2 namesOnce.2.1 rightWanted
        obtain ⟨valuation, sameLeft, sameRight, -⟩ :=
          exists_spliced held.2.2.1 held.2.2.2 (List.nodup_cons.mp distinct).2
            readOnce leftValuation rightValuation
        refine ⟨valuation, ?_⟩
        rw [worth_binary, sameLeft, sameRight, leftWorth, rightWorth, combined]
  | ternary => exact logic.elim

end BasicLowering.Source.Tree

namespace BasicLowering.Analysis

open Source Binding Semantics

variable {Label : Type} {model : Model} {arena : Arena}

theorem mem_names_of_isNameAndNothing {name : String} {left right : Source.Tree Label}
    (leftHeld : left.HeldBy model arena) (leftDistinct : left.nodes.Nodup)
    (rightHeld : right.HeldBy model arena) (rightDistinct : right.nodes.Nodup)
    (isTest : isNameAndNothing arena name left.slot right.slot = true) :
    foldedName name ∈ left.names arena ∨ foldedName name ∈ right.names arena := by
  have memNames {tree : Source.Tree Label} (held : tree.HeldBy model arena)
      (isName : (arena.nameText? tree.core.slot).any (Text.sameName · name) =
        true) :
      foldedName name ∈ tree.names arena := by
    unfold Arena.nameText? at isName
    split at isName
    · next text found =>
        rw [← sameName_iff.mp isName]
        exact tree.mem_names_of_identifier held found
    · cases isName
  simp only [isNameAndNothing, isName, leftHeld.skipParens leftDistinct,
    rightHeld.skipParens rightDistinct, Bool.or_eq_true, Bool.and_eq_true]
    at isTest
  exact isTest.imp (fun test => memNames leftHeld test.1)
    fun test => memNames rightHeld test.2

/-- Of the operands, only `v.HasValue` and `v!HasValue` are said to tell
anything, and that about `v`. -/
theorem exists_of_factWhen?_operand {name : String} {node : NodeId}
    (atomic : isAtomic arena node = true)
    (bare : arena.isParenthesized (some node) = false) {levels : Nat}
    {result : Bool}
    {fact : Nullability}
    (found : factWhen? arena name (levels + 1) (some node) result = some fact) :
    ∃ receiver member kind text,
      arena.form? (some node) = some (.memberAccess receiver member kind) ∧
        arena.nameText? receiver = some text ∧
        Text.sameName text name = true ∧ fact = .ofNotNull result ∧
        (kind = .simple → arena.hasValueOf? node = some text) := by
  rw [factWhen?] at found
  unfold isAtomic at atomic
  cases isForm : arena.form? (some node) with
  | none => simp [isForm] at found
  | some form =>
      rw [isForm] at found atomic
      cases form with
      | memberAccess receiver member kind =>
          cases memberName : arena.nameText? member with
          | none => simp [memberName] at found
          | some memberText =>
              cases receiverName : arena.nameText? receiver with
              | none => simp [memberName, receiverName] at found
              | some text =>
                  simp [memberName, receiverName] at found
                  obtain ⟨⟨isHasValue, sameName⟩, rfl⟩ := found
                  refine ⟨receiver, member, kind, text, rfl, receiverName,
                    sameName, rfl, ?_⟩
                  rintro rfl
                  simp [Arena.hasValueOf?, isForm, memberName, receiverName,
                    isHasValue]
      | binary left operator right =>
          cases operator <;> first | cases found | cases atomic
      | unary operator operand =>
          cases operator <;> first | cases found | cases atomic
      | parenthesized inner => simp [Arena.isParenthesized, isForm] at bare
      | _ => cases found

/-- A name about which a condition is said to tell is looked at in it. -/
theorem mem_names_of_factWhen? {name : String} {tree : Source.Tree Label}
    (held : tree.HeldBy model arena) (distinct : tree.nodes.Nodup)
    (logic : tree.IsNullLogic arena) {levels : Nat} {result : Bool}
    {fact : Nullability}
    (found : factWhen? arena name levels tree.slot result = some fact) :
    foldedName name ∈ tree.names arena := by
  induction tree generalizing levels result fact with
  | operand node label =>
      cases levels with
      | zero => cases found
      | succ levels =>
          obtain ⟨receiver, member, kind, text, isAccess, isReceiver, sameName,
            -⟩ := exists_of_factWhen?_operand logic held.2 found
          rw [← sameName_iff.mp sameName]
          simp [Tree.names, Arena.namesRead, isAccess, isReceiver]
  | parenthesized node inner ih =>
      cases levels with
      | zero => cases found
      | succ levels =>
          rw [Tree.slot, Tree.root, factWhen?, held.1] at found
          exact ih held.2 (List.nodup_cons.mp distinct).2 logic found
  | negation node inner ih =>
      cases levels with
      | zero => cases found
      | succ levels =>
          rw [Tree.slot, Tree.root, factWhen?, held.1] at found
          exact ih held.2.2 (List.nodup_cons.mp distinct).2 logic found
  | binary node left operator right leftIH rightIH =>
      cases levels with
      | zero => cases found
      | succ levels =>
          rw [Tree.slot, Tree.root, factWhen?, held.1] at found
          have below := List.nodup_append.mp (List.nodup_cons.mp distinct).2
          have fromLeft := @leftIH held.2.2.1 below.1
          have fromRight := @rightIH held.2.2.2 below.2.1
          rw [Tree.names, List.mem_append]
          cases operator with
          | is | isNot =>
              simp only [Option.ite_none_right_eq_some] at found
              exact mem_names_of_isNameAndNothing held.2.2.1 below.1 held.2.2.2
                below.2.1 found.1
          | andAlso | and =>
              rcases Option.or_eq_some_iff.mp found with inLeft | ⟨-, inRight⟩
              · exact .inl (fromLeft logic.2.1 inLeft)
              · exact .inr (fromRight logic.2.2 inRight)
          | orElse | or =>
              simp only [Option.ite_none_right_eq_some] at found
              exact .inl (fromLeft logic.2.1 found.2)
          | _ => cases found
  | ternary => exact logic.elim

/-- Whether a condition can come to a result whatever a name is worth. -/
def IsFreeOf (arena : Arena) (name : String) (tree : Source.Tree Label)
    (result : Bool) : Prop :=
  ∀ value, ∃ valuation : Valuation,
    valuation.names (foldedName name) = value ∧
      tree.worth arena valuation = .boolean result

section

variable {left right : Source.Tree Label} {node : NodeId}
variable {operator : BinaryOperator} {name : String} {result : Bool}
variable {fact : Nullability}
variable (leftHeld : left.HeldBy model arena) (rightHeld : right.HeldBy model arena)
variable (nodesApart : (left.nodes ++ right.nodes).Nodup)
variable (readOnce : (left.names arena ++ right.names arena).Nodup)

include leftHeld rightHeld nodesApart readOnce

/-- The sides are chosen one by one; the value of the name matters only to the side
that looks at it. -/
theorem isFreeOf_of_sides
    (sides : ∀ value, ∃ chosen given : Valuation,
      (foldedName name ∈ left.names arena →
        chosen.names (foldedName name) = value) ∧
      (foldedName name ∉ left.names arena →
        given.names (foldedName name) = value) ∧
      combine operator (left.worth arena chosen) (right.worth arena given) =
        .boolean result) :
    IsFreeOf arena name (.binary node left operator right) result := by
  intro value
  obtain ⟨chosen, given, ofLeft, ofRight, combined⟩ := sides value
  obtain ⟨valuation, sameLeft, sameRight, chosenNames, givenNames⟩ :=
    Tree.exists_spliced leftHeld rightHeld nodesApart readOnce chosen given
  refine ⟨valuation, ?_, ?_⟩
  · by_cases inLeft : foldedName name ∈ left.names arena
    · exact (chosenNames _ inLeft).trans (ofLeft inLeft)
    · exact (givenNames _ inLeft).trans (ofRight inLeft)
  · rw [Tree.worth_binary, sameLeft, sameRight, combined]

variable (isConjunction : operator = .andAlso ∨ operator = .and)

include isConjunction

/-- Where a conjunction is false because of its right side, it tells nothing about
the names of the left one. -/
theorem tells_or_isFreeOf_of_left (inLeft : foldedName name ∈ left.names arena)
    (other : ∃ valuation, right.worth arena valuation = .boolean result)
    (said : tells arena name left result fact = true ∨
      IsFreeOf arena name left result) :
    tells arena name (.binary node left operator right) result fact = true ∨
      IsFreeOf arena name (.binary node left operator right) result := by
  have combines : combine operator = Value.conj := by
    rcases isConjunction with rfl | rfl <;> rfl
  obtain ⟨given, rightWorth⟩ := other
  cases result with
  | true =>
      refine said.imp (fun told => ?_) fun free =>
        isFreeOf_of_sides leftHeld rightHeld nodesApart readOnce fun value => ?_
      · rcases isConjunction with rfl | rfl <;> simp [tells, told]
      · obtain ⟨chosen, isValue, leftWorth⟩ := free value
        refine ⟨chosen, given, fun _ => isValue, absurd inLeft, ?_⟩
        rw [combines, leftWorth, rightWorth]
        rfl
  | false =>
      refine .inr (isFreeOf_of_sides leftHeld rightHeld nodesApart readOnce
        fun value => ⟨⟨fun _ => value, fun _ => .null⟩, given, fun _ => rfl,
          absurd inLeft, ?_⟩)
      rw [combines, rightWorth]
      exact Value.conj_comm _ _

/-- Where a conjunction is false because of its left side, it tells nothing about
the names of the right one. -/
theorem tells_or_isFreeOf_of_right (notInLeft : foldedName name ∉ left.names arena)
    (other : ∃ valuation, left.worth arena valuation = .boolean result)
    (said : tells arena name right result fact = true ∨
      IsFreeOf arena name right result) :
    tells arena name (.binary node left operator right) result fact = true ∨
      IsFreeOf arena name (.binary node left operator right) result := by
  have combines : combine operator = Value.conj := by
    rcases isConjunction with rfl | rfl <;> rfl
  obtain ⟨chosen, leftWorth⟩ := other
  cases result with
  | true =>
      refine said.imp (fun told => ?_) fun free =>
        isFreeOf_of_sides leftHeld rightHeld nodesApart readOnce fun value => ?_
      · rcases isConjunction with rfl | rfl <;> simp [tells, told]
      · obtain ⟨given, isValue, rightWorth⟩ := free value
        refine ⟨chosen, given, fun inLeft => absurd inLeft notInLeft,
          fun _ => isValue, ?_⟩
        rw [combines, leftWorth, rightWorth]
        rfl
  | false =>
      refine .inr (isFreeOf_of_sides leftHeld rightHeld nodesApart readOnce
        fun value => ⟨chosen, ⟨fun _ => value, fun _ => .null⟩,
          fun inLeft => absurd inLeft notInLeft, fun _ => rfl, ?_⟩)
      rw [combines, leftWorth]
      rfl

end

/-- Where every name is looked at once, a condition that is said to tell a fact
does so by the rules, or it comes to `result` whatever the name is worth. -/
theorem tells_or_exists_valuation {name : String} {tree : Source.Tree Label}
    (held : tree.HeldBy model arena) (distinct : tree.nodes.Nodup)
    (logic : tree.IsNullLogic arena)
    (noLiteral : tree.hasNoLiteral arena = true)
    (readOnce : (tree.names arena).Nodup) {levels : Nat} {result : Bool}
    {fact : Nullability}
    (found : factWhen? arena name levels tree.slot result = some fact) :
    tells arena name tree result fact = true ∨ IsFreeOf arena name tree result := by
  induction tree generalizing levels result fact with
  | operand node label =>
      cases levels with
      | zero => cases found
      | succ levels =>
          obtain ⟨receiver, member, kind, text, isAccess, isReceiver, sameName,
            rfl, whenSimple⟩ := exists_of_factWhen?_operand logic held.2 found
          cases kind with
          | simple => simp [tells, whenSimple rfl, sameName]
          | dictionary =>
              refine .inr fun value =>
                ⟨⟨fun _ => value, fun _ => .boolean result⟩, rfl, ?_⟩
              rw [Tree.worth, Tree.value_operand]
              simp [Valuation.valueOf, Arena.hasValueOf?, isAccess]
  | parenthesized node inner ih =>
      cases levels with
      | zero => cases found
      | succ levels =>
          rw [Tree.slot, Tree.root, factWhen?, held.1] at found
          exact ih held.2 (List.nodup_cons.mp distinct).2 logic noLiteral
            readOnce found
  | negation node inner ih =>
      cases levels with
      | zero => cases found
      | succ levels =>
          rw [Tree.slot, Tree.root, factWhen?, held.1] at found
          refine (ih held.2.2 (List.nodup_cons.mp distinct).2 logic noLiteral
            readOnce found).imp_right fun free value => ?_
          obtain ⟨valuation, isValue, opposite⟩ := free value
          refine ⟨valuation, isValue, ?_⟩
          rw [Tree.worth_negation, opposite, Value.negate, Bool.not_not]
  | binary node left operator right leftIH rightIH =>
      cases levels with
      | zero => cases found
      | succ levels =>
          rw [Tree.slot, Tree.root, factWhen?, held.1] at found
          have leftHeld := held.2.2.1
          have rightHeld := held.2.2.2
          have nodesApart := (List.nodup_cons.mp distinct).2
          have below := List.nodup_append.mp nodesApart
          have namesOnce := List.nodup_append.mp readOnce
          have notBoth {other : List Char} (inLeft : other ∈ left.names arena) :
              other ∉ right.names arena :=
            fun inRight => namesOnce.2.2 other inLeft other inRight rfl
          cases operator with
          | is | isNot =>
              simp only [Option.ite_none_right_eq_some, Option.some.injEq]
                at found
              simp [tells, found.1, found.2]
          | andAlso | and =>
              have noLiterals : left.hasNoLiteral arena = true ∧
                  right.hasNoLiteral arena = true := by
                simpa [Tree.hasNoLiteral] using noLiteral
              have leftWorth := left.exists_valuation leftHeld below.1 logic.2.1
                noLiterals.1 namesOnce.1 result
              have rightWorth := right.exists_valuation rightHeld below.2.1
                logic.2.2 noLiterals.2 namesOnce.2.1 result
              rcases Option.or_eq_some_iff.mp found with found | ⟨-, found⟩
              · exact tells_or_isFreeOf_of_left leftHeld rightHeld nodesApart
                  readOnce (by simp)
                  (mem_names_of_factWhen? leftHeld below.1 logic.2.1 found)
                  rightWorth
                  (leftIH leftHeld below.1 logic.2.1 noLiterals.1 namesOnce.1 found)
              · have inRight := mem_names_of_factWhen? rightHeld below.2.1
                  logic.2.2 found
                exact tells_or_isFreeOf_of_right leftHeld rightHeld nodesApart
                  readOnce (by simp) (fun inLeft => notBoth inLeft inRight)
                  leftWorth
                  (rightIH rightHeld below.2.1 logic.2.2 noLiterals.2
                    namesOnce.2.1 found)
          | orElse | or =>
              -- Both sides would have to say it, but no name is looked at in both.
              simp only [Option.ite_none_right_eq_some] at found
              have inLeft := mem_names_of_factWhen? leftHeld below.1 logic.2.1
                found.2
              have inRight := mem_names_of_factWhen? rightHeld below.2.1
                logic.2.2 (found.1 ▸ found.2)
              exact absurd inRight (notBoth inLeft)
          | _ => cases found
  | ternary => exact logic.elim

end BasicLowering.Analysis

/-! ## Guards -/

namespace BasicLowering.Source

open Binding Semantics Analysis

variable {Label : Type} {model : Model} {arena : Arena}

namespace Frame

/-- The left operand that decides whether the part in a frame is reached, and
the truth value that leaves it to the right one. -/
def guard? : Frame Label → Option (Source.Tree Label × Bool)
  | rightOperand _ left operator => (leftResult? operator).map (left, ·)
  | _ => none

theorem value_ne_of_enters {values : NodeId → Value} {frame : Frame Label}
    (enters : frame.enters values = true) {guard : Source.Tree Label × Bool}
    (found : frame.guard? = some guard) :
    guard.1.value values ≠ .boolean !guard.2 := by
  cases frame with
  | rightOperand node left operator =>
      cases operator <;> cases found <;>
        simpa [Frame.enters, skipsRight] using enters
  | _ => cases found

theorem enters_of_value_ne {values : NodeId → Value} {frame : Frame Label}
    {part : Source.Tree Label} (logic : (frame.plug part).IsNullLogic arena)
    (undecided : ∀ guard, frame.guard? = some guard →
      guard.1.value values ≠ .boolean !guard.2) :
    frame.enters values = true := by
  cases frame with
  | rightOperand node left operator =>
      cases operator with
      | andAlso | orElse =>
          simpa [Frame.enters, skipsRight] using undecided _ rfl
      | _ => rfl
  | trueBranch | falseBranch => exact logic.elim
  | parenthesized | negation | leftOperand | ternaryTest => rfl

theorem isNullLogic_of_plug {frame : Frame Label} {part : Source.Tree Label}
    (held : (frame.plug part).HeldBy model arena)
    (logic : (frame.plug part).IsNullLogic arena) :
    part.IsNullLogic arena := by
  have partHeld := heldBy_of_plug held
  cases frame with
  | parenthesized node | negation node => exact logic
  | leftOperand node operator right =>
      by_cases isTest : operator = .is ∨ operator = .isNot
      · rw [plug, Tree.IsNullLogic, if_pos isTest] at logic
        exact Tree.isNullLogic_of_nullTest_side partHeld
          (logic.imp And.left And.left)
      · rw [plug, Tree.IsNullLogic, if_neg isTest] at logic
        exact logic.2.1
  | rightOperand node left operator =>
      by_cases isTest : operator = .is ∨ operator = .isNot
      · rw [plug, Tree.IsNullLogic, if_pos isTest] at logic
        exact Tree.isNullLogic_of_nullTest_side partHeld
          (logic.symm.imp And.right And.right)
      · rw [plug, Tree.IsNullLogic, if_neg isTest] at logic
        exact logic.2.2
  | ternaryTest | trueBranch | falseBranch => exact logic.elim

end Frame

namespace Place

/-- The operands that decide whether the part in a place is reached. -/
def guards : Place Label → List (Source.Tree Label × Bool)
  | [] => []
  | frame :: outer => frame.guard?.toList ++ guards outer

theorem mem_guards {place : Place Label} {guard : Source.Tree Label × Bool} :
    guard ∈ place.guards ↔ ∃ frame ∈ place, frame.guard? = some guard := by
  induction place with
  | nil => simp [guards]
  | cons frame outer ih =>
      rw [guards, List.mem_append, ih, Option.mem_toList]
      simp

theorem nodes_guards_sublist (place : Place Label) :
    (place.guards.flatMap fun guard => guard.1.nodes).Sublist place.nodes := by
  induction place with
  | nil => exact .slnil
  | cons frame outer ih =>
      rw [guards, List.flatMap_append]
      refine List.Sublist.append ?_ ih
      cases frame with
      | rightOperand node left operator =>
          cases operator <;> simp [Frame.guard?, leftResult?, Frame.nodes]
      | _ => exact List.nil_sublist _

/-- A guard is the left operand of an operator that stands around the part. -/
theorem exists_binary_of_mem_guards (place : Place Label)
    (part : Source.Tree Label) {guard : Source.Tree Label × Bool}
    (member : guard ∈ place.guards) :
    ∃ (outer : Place Label) (node : NodeId) (operator : BinaryOperator)
        (right : Source.Tree Label),
      place.plug part = outer.plug (.binary node guard.1 operator right) ∧
        leftResult? operator = some guard.2 := by
  induction place generalizing part with
  | nil => cases member
  | cons frame outer ih =>
      rcases List.mem_append.mp member with here | outside
      · cases frame with
        | rightOperand node left operator =>
            rw [Frame.guard?, Option.mem_toList, Option.map_eq_some_iff] at here
            obtain ⟨result, asked, rfl⟩ := here
            exact ⟨outer, node, operator, part, rfl, asked⟩
        | _ => cases here
      · exact ih _ outside

theorem heldBy_guard (place : Place Label) {part : Source.Tree Label}
    (held : (place.plug part).HeldBy model arena) :
    ∀ guard ∈ place.guards, guard.1.HeldBy model arena := by
  intro guard member
  obtain ⟨outer, node, operator, right, isPlugged, -⟩ :=
    exists_binary_of_mem_guards place part member
  rw [isPlugged] at held
  exact (heldBy_of_plug outer held).2.2.1

theorem isNullLogic_of_plug (place : Place Label) {part : Source.Tree Label}
    (held : (place.plug part).HeldBy model arena)
    (logic : (place.plug part).IsNullLogic arena) :
    part.IsNullLogic arena := by
  induction place generalizing part with
  | nil => exact logic
  | cons frame outer ih =>
      exact Frame.isNullLogic_of_plug (heldBy_of_plug outer held)
        (ih held logic)

theorem isNullLogic_guard (place : Place Label) {part : Source.Tree Label}
    (held : (place.plug part).HeldBy model arena)
    (logic : (place.plug part).IsNullLogic arena) :
    ∀ guard ∈ place.guards, guard.1.IsNullLogic arena := by
  intro guard member
  obtain ⟨outer, node, operator, right, isPlugged, asked⟩ :=
    exists_binary_of_mem_guards place part member
  rw [isPlugged] at held logic
  have operatorLogic := isNullLogic_of_plug outer held logic
  cases operator with
  | andAlso | orElse => exact operatorLogic.2.1
  | _ => cases asked

theorem enters_of_value_ne {values : NodeId → Value} (place : Place Label)
    {part : Source.Tree Label} (held : (place.plug part).HeldBy model arena)
    (logic : (place.plug part).IsNullLogic arena)
    (undecided : ∀ guard ∈ place.guards,
      guard.1.value values ≠ .boolean !guard.2) :
    ∀ frame ∈ place, frame.enters values = true := by
  induction place generalizing part with
  | nil => simp
  | cons frame outer ih =>
      have frameLogic : (frame.plug part).IsNullLogic arena :=
        isNullLogic_of_plug outer held logic
      refine List.forall_mem_cons.mpr ⟨?_, ?_⟩
      · exact Frame.enters_of_value_ne frameLogic fun guard found =>
          undecided guard (List.mem_append_left _ (by simp [found]))
      · exact ih held logic fun guard member =>
          undecided guard (List.mem_append_right _ member)

end Place

end BasicLowering.Source

namespace BasicLowering.Analysis

open Source Binding Semantics

variable {Label : Type} {model : Model} {arena : Arena}

/-- Where the look-up finds a fact, one of the operands that decide is said to
tell it. -/
theorem exists_guard_of_factFromPath? {name : String} {place : Place Label}
    {part : Source.Tree Label} {above : Path} {fact : Nullability}
    (held : (place.plug part).HeldBy model arena)
    (distinct : (place.plug part).nodes.Nodup)
    (outermost : ∀ step ∈ above.head?, arena.binary? step.effective = none)
    (found : factFromPath? arena name (place.path above) part.slot =
      some fact) :
    ∃ guard ∈ place.guards,
      factWhen? arena name nullFlowLevels guard.1.slot guard.2 =
        some fact := by
  induction place generalizing part with
  | nil =>
      cases above with
      | nil => cases found
      | cons step rest =>
          rw [Place.path_nil, factFromPath?, outermost step rfl] at found
          cases found
  | cons frame outer ih =>
      have frameHeld : (frame.plug part).HeldBy model arena :=
        Place.heldBy_of_plug outer held
      have frameDistinct : (frame.plug part).nodes.Nodup :=
        Place.nodup_of_plug outer distinct
      rw [Place.path_cons, factFromPath?] at found
      cases frame with
      | leftOperand node operator right =>
          have apart : right.slot ≠ part.slot := fun same =>
            (List.nodup_append.mp (List.nodup_cons.mp frameDistinct).2).2.2
              _ part.root_mem_nodes _ right.root_mem_nodes
              (Option.some.inj same).symm
          simp only [Step.unchanged, Arena.binary?, Frame.node, frameHeld.1,
            if_neg apart] at found
          exact ih held distinct found
      | rightOperand node left operator =>
          simp only [Step.unchanged, Arena.binary?, Frame.node, frameHeld.1,
            if_true] at found
          cases asked : leftResult? operator with
          | none =>
              rw [asked] at found
              obtain ⟨guard, member, told⟩ := ih held distinct found
              exact ⟨guard, List.mem_append_right _ member, told⟩
          | some result =>
              rw [asked, Option.bind_some] at found
              cases answer : factWhen? arena name nullFlowLevels left.slot
                  result with
              | none =>
                  rw [answer] at found
                  obtain ⟨guard, member, told⟩ := ih held distinct found
                  exact ⟨guard, List.mem_append_right _ member, told⟩
              | some told =>
                  rw [answer] at found
                  exact ⟨(left, result), by simp [Place.guards, Frame.guard?, asked],
                    answer.trans found⟩
      | parenthesized node | negation node =>
          simp [Step.unchanged, Arena.binary?, Frame.node, frameHeld.1] at found
      | ternaryTest node | trueBranch node | falseBranch node =>
          simp [Step.unchanged, Arena.binary?, Frame.node, frameHeld.1] at found

/-- Valuations for expressions that share no name and no node can be used at
once. -/
theorem exists_common_valuation {name : List Char} {value : Value}
    {guards : List (Source.Tree Label × Bool)}
    (held : ∀ guard ∈ guards, guard.1.HeldBy model arena)
    (distinct : (guards.flatMap fun guard => guard.1.nodes).Nodup)
    (readOnce : (guards.flatMap fun guard => guard.1.names arena).Nodup)
    (each : ∀ guard ∈ guards, ∃ valuation : Valuation,
      (name ∈ guard.1.names arena → valuation.names name = value) ∧
        guard.1.worth arena valuation = .boolean guard.2) :
    ∃ valuation : Valuation, ∀ guard ∈ guards,
      (name ∈ guard.1.names arena → valuation.names name = value) ∧
        guard.1.worth arena valuation = .boolean guard.2 := by
  induction guards with
  | nil => exact ⟨⟨fun _ => .null, fun _ => .null⟩, by simp⟩
  | cons guard rest ih =>
      rw [List.flatMap_cons, List.nodup_append] at distinct readOnce
      obtain ⟨guardHeld, restHeld⟩ := List.forall_mem_cons.mp held
      obtain ⟨guardEach, restEach⟩ := List.forall_mem_cons.mp each
      obtain ⟨given, restWorth⟩ :=
        ih restHeld distinct.2.1 readOnce.2.1 restEach
      obtain ⟨chosen, chosenName, chosenWorth⟩ := guardEach
      refine ⟨.splice (guard.1.names arena) guard.1.nodes chosen given,
        List.forall_mem_cons.mpr ⟨⟨fun member => ?_, ?_⟩, ?_⟩⟩
      · exact (if_pos member).trans (chosenName member)
      · rw [guard.1.worth_splice_left guardHeld, chosenWorth]
      · intro other member
        have namesApart : ∀ name ∈ other.1.names arena,
            name ∉ guard.1.names arena := fun name inOther inGuard =>
          readOnce.2.2 name inGuard name
            (List.mem_flatMap.mpr ⟨other, member, inOther⟩) rfl
        have nodesApart : ∀ node ∈ other.1.nodes, node ∉ guard.1.nodes :=
          fun node inOther inGuard => distinct.2.2 node inGuard node
            (List.mem_flatMap.mpr ⟨other, member, inOther⟩) rfl
        obtain ⟨otherName, otherWorth⟩ := restWorth other member
        refine ⟨fun inOther => ?_, ?_⟩
        · exact (if_neg (namesApart _ inOther)).trans (otherName inOther)
        · rw [other.1.worth_splice_right (restHeld other member) namesApart
            nodesApart, otherWorth]

/-! ## The look-up -/

/-- Whether an operand is as a fact says wherever evaluation comes to it. -/
def RightWhereReached (arena : Arena) (place : Place Label)
    (occurrence : Source.Tree Label) (fact : Nullability) : Prop :=
  ∀ valuation : Valuation,
    occurrence.root ∈ ((place.plug occurrence).run (fun node => [node])
        (valuation.valueOf arena)).events →
      fact.describes (occurrence.worth arena valuation) = true

theorem Nullability.exists_not_describes (fact : Nullability) :
    ∃ value, ¬ fact.describes value = true := by
  cases fact with
  | null => exact ⟨.boolean true, by decide⟩
  | notNull => exact ⟨.null, by decide⟩

theorem eq_of_mem_flatMap {Item Part : Type} {parts : Item → List Part}
    {items : List Item} (distinct : (items.flatMap parts).Nodup)
    {first second : Item} (firstMember : first ∈ items)
    (secondMember : second ∈ items) {part : Part}
    (inFirst : part ∈ parts first) (inSecond : part ∈ parts second) :
    first = second := by
  induction items with
  | nil => cases firstMember
  | cons item rest ih =>
      rw [List.flatMap_cons, List.nodup_append] at distinct
      have apart : part ∈ parts item → ∀ other ∈ rest, part ∉ parts other :=
        fun inItem other inRest inOther => distinct.2.2 part inItem part
          (List.mem_flatMap.mpr ⟨other, inRest, inOther⟩) rfl
      rcases List.mem_cons.mp firstMember with rfl | firstRest <;>
        rcases List.mem_cons.mp secondMember with rfl | secondRest
      · rfl
      · exact absurd inSecond (apart inFirst second secondRest)
      · exact absurd inFirst (apart inSecond first firstRest)
      · exact ih distinct.2.1 firstRest secondRest

/-- Whether the operands that decide look at no name twice and hold no literal
of their own. -/
def LookedAtOnce (arena : Arena) (place : Place Label) : Prop :=
  (place.guards.flatMap fun guard => guard.1.names arena).Nodup ∧
    ∀ guard ∈ place.guards, guard.1.hasNoLiteral arena = true

/-- A fact that the look-up finds about a name is right wherever the name is
reached, if an operand to the left tells it by the rules. Where the operands to
the left look at every name once, it is right only then. -/
theorem knownNullability_right {frame : Frame Label} {outer : Place Label}
    {occurrence : Source.Tree Label} {above : Path} {name : String}
    {fact : Nullability}
    (held : (Place.plug (frame :: outer) occurrence).HeldBy model arena)
    (distinct : (Place.plug (frame :: outer) occurrence).nodes.Nodup)
    (logic : (Place.plug (frame :: outer) occurrence).IsNullLogic arena)
    (outermost : ∀ step ∈ above.head?, arena.binary? step.effective = none)
    (isName : arena.nameText? occurrence.core.slot = some name)
    (answer : knownNullability? arena (Place.path outer above)
      (.unchanged (some frame.node)) occurrence.slot = some fact) :
    ((∃ guard ∈ Place.guards (frame :: outer),
        tells arena name guard.1 guard.2 fact = true) →
      RightWhereReached arena (frame :: outer) occurrence fact) ∧
    (LookedAtOnce arena (frame :: outer) →
      RightWhereReached arena (frame :: outer) occurrence fact →
      ∃ guard ∈ Place.guards (frame :: outer),
        tells arena name guard.1 guard.2 fact = true) := by
  have occurrenceHeld : occurrence.HeldBy model arena :=
    Place.heldBy_of_plug (frame :: outer) held
  have occurrenceDistinct : occurrence.nodes.Nodup :=
    Place.nodup_of_plug (frame :: outer) distinct
  have outside : occurrence.root ∉ Place.nodes (frame :: outer) :=
    Place.not_mem_nodes_of_nodup_plug (frame :: outer) distinct
      occurrence.root_mem_nodes
  have guardHeld := Place.heldBy_guard (frame :: outer) held
  have guardLogic := Place.isNullLogic_guard (frame :: outer) held logic
  have guardNodes : ((Place.guards (frame :: outer)).flatMap fun guard =>
      guard.1.nodes).Nodup :=
    (Place.nodup_nodes_of_plug (frame :: outer) distinct).sublist
      (Place.nodes_guards_sublist (frame :: outer))
  have guardDistinct := (List.nodup_flatMap.mp guardNodes).1
  have occurrenceWorth (valuation : Valuation) :
      occurrence.worth arena valuation = valuation.names (foldedName name) := by
    unfold Arena.nameText? at isName
    split at isName
    · next found =>
        cases isName
        exact occurrence.worth_of_identifier occurrenceHeld found valuation
    · cases isName
  constructor
  · rintro ⟨guard, member, told⟩ valuation reached
    rw [Place.run_plug, Place.mem_events_resume outside] at reached
    obtain ⟨surrounding, inPlace, found⟩ := Place.mem_guards.mp member
    have undecided := Frame.value_ne_of_enters
      (reached.1 surrounding inPlace) found
    rw [occurrenceWorth]
    exact describes_of_tells (guardHeld guard member)
      (guardDistinct guard member) told undecided
  · rintro ⟨readOnce, noLiteral⟩ right
    by_contra untold
    have outerHeld : (Place.plug outer (frame.plug occurrence)).HeldBy model
        arena := held
    have answer : factFromPath? arena name (Place.path outer above)
        (frame.plug occurrence).slot = some fact := by
      rw [Tree.slot, Frame.root_plug]
      simpa [knownNullability?, occurrenceHeld.skipParens occurrenceDistinct,
        isName, Step.unchanged] using answer
    obtain ⟨guard, inOuter, said⟩ :=
      exists_guard_of_factFromPath? outerHeld distinct outermost answer
    have member : guard ∈ Place.guards (frame :: outer) :=
      List.mem_append_right _ inOuter
    have inGuard := mem_names_of_factWhen? (guardHeld guard member)
      (guardDistinct guard member) (guardLogic guard member) said
    have namesOnce := (List.nodup_flatMap.mp readOnce).1
    rcases tells_or_exists_valuation (guardHeld guard member)
      (guardDistinct guard member) (guardLogic guard member)
      (noLiteral guard member) (namesOnce guard member) said with told | free
    · exact untold ⟨guard, member, told⟩
    · obtain ⟨value, contrary⟩ := fact.exists_not_describes
      have each : ∀ other ∈ Place.guards (frame :: outer),
          ∃ valuation : Valuation,
            (foldedName name ∈ other.1.names arena →
              valuation.names (foldedName name) = value) ∧
            other.1.worth arena valuation = .boolean other.2 := by
        intro other inPlace
        by_cases inOther : foldedName name ∈ other.1.names arena
        · obtain rfl := eq_of_mem_flatMap readOnce member inPlace inGuard
            inOther
          obtain ⟨valuation, isValue, comesTo⟩ := free value
          exact ⟨valuation, fun _ => isValue, comesTo⟩
        · obtain ⟨valuation, comesTo⟩ := other.1.exists_valuation
            (guardHeld other inPlace) (guardDistinct other inPlace)
            (guardLogic other inPlace) (noLiteral other inPlace)
            (namesOnce other inPlace) other.2
          exact ⟨valuation, fun inOther' => absurd inOther' inOther, comesTo⟩
      obtain ⟨valuation, common⟩ :=
        exists_common_valuation guardHeld guardNodes readOnce each
      have reached := (Place.mem_events_resume outside
        (valuation.valueOf arena) (occurrence.run (fun node => [node])
          (valuation.valueOf arena))).mpr
        ⟨Place.enters_of_value_ne (frame :: outer) held logic
          fun other inPlace => ?_, ?_⟩
      · have described := right valuation
        rw [Place.run_plug, occurrenceWorth,
          (common guard member).1 inGuard] at described
        exact contrary (described reached)
      · have comesTo := (common other inPlace).2
        rw [Tree.worth] at comesTo
        rw [comesTo]
        simp
      · exact (occurrence.noted_root_prefix _ _).subset
          (List.mem_singleton.mpr rfl)

/-- `r = ((x Is Nothing AndAlso c) OrElse x > 3)` -/
def conjunctionBeforeComparison : Arena where
  nodes := #[
    { form := .identifier "x" }, { form := .literal .nothing },
    { form := .binary (some ⟨0⟩) .is (some ⟨1⟩) }, { form := .identifier "c" },
    { form := .binary (some ⟨2⟩) .andAlso (some ⟨3⟩) },
    { form := .identifier "x" }, { form := .literal (.number "3") },
    { form := .binary (some ⟨5⟩) .greaterThan (some ⟨6⟩) },
    { form := .binary (some ⟨4⟩) .orElse (some ⟨7⟩) },
    { form := .identifier "r" },
    { form := .assignment (some ⟨9⟩) (some ⟨8⟩) }]

/-- The comparison is also reached where `x` is null and `c` is `False`, but `x`
is said not to be null. -/
theorem conjunctionBeforeComparison_wrong :
    let test : Source.Tree Unit :=
      .binary ⟨2⟩ (.operand ⟨0⟩ ()) .is (.operand ⟨1⟩ ())
    let frame : Frame Unit := .leftOperand ⟨7⟩ .greaterThan (.operand ⟨6⟩ ())
    let outer : Place Unit :=
      [.rightOperand ⟨8⟩ (.binary ⟨4⟩ test .andAlso (.operand ⟨3⟩ ())) .orElse]
    let whole := Place.plug (frame :: outer) (.operand ⟨5⟩ ())
    whole.HeldBy {} conjunctionBeforeComparison ∧
      whole.IsNullLogic conjunctionBeforeComparison ∧
      knownNullability? conjunctionBeforeComparison
        (Place.path outer [.unchanged (some ⟨10⟩)]) (.unchanged (some ⟨7⟩))
        (some ⟨5⟩) = some .notNull ∧
      ¬ RightWhereReached conjunctionBeforeComparison (frame :: outer)
        (.operand ⟨5⟩ ()) .notNull := by
  refine ⟨by decide, ?_, by decide, fun right => ?_⟩
  · exact ⟨rfl, ⟨rfl, .inl ⟨⟨"x", rfl⟩, rfl⟩, rfl⟩, rfl, rfl, rfl⟩
  · have wrong := right
      ⟨fun name => if name = ['c'] then .boolean false else .null,
        fun _ => .null⟩ (by decide)
    revert wrong
    decide

/-- `x.HasValue AndAlso x > 3` -/
def testBeforeComparison : Arena where
  nodes := #[
    { form := .identifier "x" }, { form := .identifier "HasValue" },
    { form := .memberAccess (some ⟨0⟩) (some ⟨1⟩) .simple },
    { form := .identifier "X" }, { form := .literal (.number "3") },
    { form := .binary (some ⟨3⟩) .greaterThan (some ⟨4⟩) },
    { form := .binary (some ⟨2⟩) .andAlso (some ⟨5⟩) }]

/-- In `x.HasValue AndAlso X > 3` the comparison is reached only where `X` has a
value. -/
theorem testBeforeComparison_right :
    RightWhereReached testBeforeComparison
      [.leftOperand ⟨5⟩ .greaterThan (.operand ⟨4⟩ ()),
        .rightOperand ⟨6⟩ (.operand ⟨2⟩ ()) .andAlso]
      (.operand ⟨3⟩ () : Source.Tree Unit) .notNull := by
  let frame : Frame Unit := .leftOperand ⟨5⟩ .greaterThan (.operand ⟨4⟩ ())
  let outer : Place Unit := [.rightOperand ⟨6⟩ (.operand ⟨2⟩ ()) .andAlso]
  have held : Tree.HeldBy {} testBeforeComparison
      (Place.plug (frame :: outer) (.operand ⟨3⟩ ())) := by decide
  have answer : knownNullability? testBeforeComparison (Place.path outer [])
      (.unchanged (some frame.node)) (some ⟨3⟩) = some .notNull := by decide
  exact (knownNullability_right held (by decide) ⟨rfl, rfl, rfl, rfl, rfl⟩
    (by simp) rfl answer).1 ⟨_, List.mem_singleton.mpr rfl, by decide⟩

end BasicLowering.Analysis
