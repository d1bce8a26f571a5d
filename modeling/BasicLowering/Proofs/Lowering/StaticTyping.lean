import BasicLowering.Proofs.Lowering.TypedOperands
import BasicLowering.Proofs.Lowering.Walk
import BasicLowering.Target.Piece

/-!
# Static types of converted statements

A statement over `Boolean`, `Integer` and the nullable types over them is converted to
one with static types: a `bool` wherever the target language asks for one, and a
nullable type wherever a value is asked for or taken out.

That fails for a variable of type `bool?` which a condition around it says is not null:
an operator leaves it as it stands, although its type is nullable all the same. A
short-circuiting operator with such an operand never has a type.
-/

namespace BasicLowering.Source.Tree

open Analysis

/-- Whether an expression is a variable of a nullable type that is known not to be
null. -/
def isChecked (tree : Tree Leaf) (facts : Facts) : Bool :=
  tree.type.nullable && tree.reference?.bind facts == some .notNull

/-- Whether no operand of the operators that count is known not to be null by what is
around the operator. -/
def NoneChecked (counts : BinaryOperator → Bool) : Tree Leaf → Facts → Prop
  | operand _ _, _ => True
  | parenthesized _ inner, _ | negation _ inner, _ =>
      inner.NoneChecked counts .nothing
  | binary _ left operator right, facts =>
      (counts operator = true →
        left.isChecked facts = false ∧ right.isChecked facts = false) ∧
        left.NoneChecked counts facts ∧
        right.NoneChecked counts (facts.right left operator)
  | ternary _ condition whenTrue whenFalse, _ =>
      condition.NoneChecked counts .nothing ∧
        whenTrue.NoneChecked counts .nothing ∧
        whenFalse.NoneChecked counts .nothing

instance decidableNoneChecked (counts : BinaryOperator → Bool) :
    (tree : Tree Leaf) → (facts : Facts) → Decidable (tree.NoneChecked counts facts)
  | operand _ _, _ => .isTrue trivial
  | parenthesized _ inner, _ | negation _ inner, _ =>
      decidableNoneChecked counts inner .nothing
  | binary _ left operator right, facts =>
      have := decidableNoneChecked counts left facts
      have := decidableNoneChecked counts right (facts.right left operator)
      inferInstanceAs (Decidable ((_ = _ → _ = _ ∧ _ = _) ∧ _ ∧ _))
  | ternary _ condition whenTrue whenFalse, _ =>
      have := decidableNoneChecked counts condition .nothing
      have := decidableNoneChecked counts whenTrue .nothing
      have := decidableNoneChecked counts whenFalse .nothing
      inferInstanceAs (Decidable (_ ∧ _ ∧ _))

/-- Where no operand has a nullable type, it does not matter what is known. -/
theorem NoneChecked.of_not_nullable {counts : BinaryOperator → Bool}
    {tree : Tree Leaf} {facts others : Facts}
    (notNullable : tree.type.nullable = false)
    (none : tree.NoneChecked counts facts) : tree.NoneChecked counts others := by
  induction tree generalizing facts others with
  | operand => trivial
  | parenthesized | negation | ternary => exact none
  | binary node left operator right leftIH rightIH =>
      obtain ⟨leftPlain, rightPlain⟩ := Bool.or_eq_false_iff.mp notNullable
      obtain ⟨-, leftNone, rightNone⟩ := none
      refine ⟨fun _ => ⟨?_, ?_⟩, leftIH leftPlain leftNone,
        rightIH rightPlain rightNone⟩
      · rw [isChecked, leftPlain, Bool.false_and]
      · rw [isChecked, rightPlain, Bool.false_and]

end BasicLowering.Source.Tree

namespace BasicLowering.Lowering

open Source Binding Analysis Qualification
open Target (Declarations Expr)

/-- Conjunctions and disjunctions. -/
def isLogical (operator : BinaryOperator) : Bool :=
  operator.isConjunction || operator.isDisjunction

theorem isLogical_of_isRestated {operator : BinaryOperator}
    (restated : isRestated operator = true)
    (notRelational : operator.isRelational = false) : isLogical operator = true := by
  rwa [isRestated, notRelational, Bool.false_or] at restated

/-- Where an operator is carried out by another one, the same is known of the right
operand as far as it matters. -/
theorem CarriedOutBy.noneChecked_right {operator effective : BinaryOperator}
    {left right : Source.Tree Leaf} {counts : BinaryOperator → Bool} {facts : Facts}
    (carried : CarriedOutBy operator effective left right) :
    right.NoneChecked counts (facts.right left operator) ↔
      right.NoneChecked counts (facts.right left effective) := by
  rcases carried with rfl | ⟨-, -, notNullable, -⟩
  · exact Iff.rfl
  · exact ⟨.of_not_nullable notNullable, .of_not_nullable notNullable⟩

/-- A short-circuiting operator is carried out by itself. -/
theorem CarriedOutBy.eq_of_shortCircuits {operator effective : BinaryOperator}
    {left right : Source.Tree Leaf} (carried : CarriedOutBy operator effective left right)
    (isShort : shortCircuits operator = true) : effective = operator := by
  rcases carried with rfl | ⟨isForm, -⟩
  · rfl
  · cases operator with
    | and | or => cases isShort
    | _ => cases isForm

/-! ## Expressions -/

/-- Whether the names of an operand are declared with the types that it takes them to
have. -/
def IsDeclared (declared : Declarations) : Leaf → Prop
  | .reference text type => declared.ofVariable text = some type
  | .call _ text type => declared.ofFunction text = some type
  | .truth _ | .digits _ => True
  | .hasValue _ _ text base | .comparedWithNothing _ _ _ _ text base =>
      declared.ofVariable text = some ⟨base, true⟩

/-- Whether an expression is well typed where its names are declared as they are. A
ternary is none of those that are looked at here. -/
structure Typable (declared : Declarations) (tree : Source.Tree Leaf) : Prop where
  isTyped : tree.IsTyped
  isLogical : tree.IsLogical
  isDeclared : ∀ leaf ∈ tree.leaves, IsDeclared declared leaf

/-- The static type of what an expression is converted to. It is nullable if the type
of the expression is, and the value is not known to be there. -/
def Lowered.staticType (tree : Source.Tree Leaf) (lowered : Lowered) : ScalarType :=
  ⟨tree.type.base, tree.type.nullable && !lowered.notNull⟩

/-- What there is to say of the type of a converted expression. -/
structure Types (declared : Declarations) (start : CaptureNames) (options : Options)
    (tree : Source.Tree Leaf) (facts : Facts) (low high : Nat) (lowered : Lowered) :
    Prop where
  hasType : (options.simplifyCheckedComparisons = true →
      tree.NoneChecked Lowering.isLogical facts) →
    Assigned declared start low high fun types =>
      lowered.expr.HasType types (lowered.staticType tree)
  noneChecked : options.simplifyCheckedComparisons = true →
    ∀ types, declared.Within types → lowered.expr.IsTyped types →
      tree.NoneChecked shortCircuits facts
  ofReference : ∀ text, tree.reference? = some text →
    ∀ types, declared.Within types → lowered.expr.HasType types tree.type

section

variable {declared : Declarations} {start : CaptureNames} {options : Options}
variable {facts : Facts} {low middle high count : Nat} {node : NodeId}
variable {tree inner left right : Source.Tree Leaf}

/-- An operand is converted to what has its type. -/
theorem hasType_ofLeaf {leaf : Leaf} (isDeclared : IsDeclared declared leaf)
    {types : Declarations} (within : declared.Within types) :
    (Lowered.ofLeaf leaf).expr.HasType types leaf.type := by
  cases leaf with
  | reference text type => exact within.ofVariable _ _ isDeclared
  | call callee text type => exact (congrFun within.ofFunction text).trans isDeclared
  | truth value | digits text => rfl
  | hasValue receiver member text base =>
      have named : (Expr.identifier text).HasType types ⟨base, true⟩ :=
        within.ofVariable _ _ isDeclared
      exact named.hasValue rfl
  | comparedWithNothing leftNode rightNode nameFirst negated text base =>
      have named : (Expr.identifier text).HasType types ⟨base, true⟩ :=
        within.ofVariable _ _ isDeclared
      refine named.test ?_
      cases negated <;> rfl

theorem staticType_ofLeaf (node : NodeId) (leaf : Leaf) :
    (Lowered.ofLeaf leaf).staticType (.operand node leaf) = leaf.type := by
  cases leaf <;>
    simp [Lowered.staticType, Lowered.ofLeaf, Lowered.plain, Lowered.proven, Tree.type,
      Leaf.type]

theorem types_operand {leaf : Leaf} (isDeclared : IsDeclared declared leaf) :
    Types declared start options (.operand node leaf) facts count count
      (.ofLeaf leaf) where
  hasType _ := by
    rw [staticType_ofLeaf]
    exact Assigned.of_declared fun types => hasType_ofLeaf isDeclared
  noneChecked _ _ _ _ := trivial
  ofReference _ _ _ := hasType_ofLeaf isDeclared

/-- An operand that is not known not to be null by mistake suits its operator. -/
theorem suits_ofTree {operator : BinaryOperator} {lowered : Lowered}
    (isTaken : takes operator tree.type.base = true)
    (unchecked : options.simplifyCheckedComparisons = true →
      operator.isRelational = false → tree.isChecked facts = false) :
    (Operand.ofTree options facts tree lowered).Suits operator
      (lowered.staticType tree) where
  nullable mayBeNull := (Bool.and_eq_true_iff.mp mayBeNull).1
  logical logical := by
    have isBoolean : tree.type.base = .boolean := by
      cases base : tree.type.base with
      | boolean => rfl
      | integer =>
          rw [base] at isTaken
          exact absurd isTaken (Bool.eq_false_iff.mp logical)
    rw [Lowered.staticType, isBoolean, Operand.ofTree]
    congr 1
    cases simplifies : options.simplifyCheckedComparisons with
    | false => rw [Bool.false_and, Bool.not_false, Bool.and_true]
    | true =>
        have isFalse := unchecked simplifies logical
        rw [Tree.isChecked] at isFalse
        cases nullable : tree.type.nullable with
        | false => rfl
        | true =>
            rw [nullable, Bool.true_and] at isFalse
            rw [isFalse, Bool.and_false, Bool.not_false, Bool.and_true]

/-- An operand that is used rightly is not known not to be null by mistake. -/
theorem isChecked_eq_false {lowered : Lowered} {types : Declarations}
    (simplifies : options.simplifyCheckedComparisons = true)
    (ofReference : ∀ text, tree.reference? = some text →
      lowered.expr.HasType types tree.type)
    (used : (Operand.ofTree options facts tree lowered).Used types) :
    tree.isChecked facts = false := by
  rw [Bool.eq_false_iff]
  intro isChecked
  obtain ⟨nullable, known⟩ := Bool.and_eq_true_iff.mp isChecked
  obtain ⟨text, isReference, -⟩ := Option.bind_eq_some_iff.mp (beq_iff_eq.mp known)
  obtain ⟨type, hasType, isBool⟩ := used
  have present : (Operand.ofTree options facts tree lowered).mayBeNull = false := by
    rw [Operand.ofTree, simplifies, known, Bool.and_self, Bool.not_true, Bool.and_false]
  rw [(ofReference text isReference).unique hasType, isBool present] at nullable
  cases nullable

section

variable {operator effective : BinaryOperator}
variable {leftLowered rightLowered : Lowered} {site : Site} (collapses : Bool)
variable (typable : Typable declared (.binary node left operator right))
variable (carried : CarriedOutBy operator effective left right)
variable (leftTypes : Types declared start site.options left facts low middle leftLowered)
variable (rightTypes : Types declared start site.options right
  (facts.right left effective) middle high rightLowered)

include typable carried leftTypes rightTypes

/-- An operator is lifted to one with a type, if none of its operands is known not to be
null by mistake. -/
theorem lift_hasType (casts : site.options.explicitNullableCasts = true)
    (above : low ≤ middle) (below : middle ≤ high)
    (none : site.options.simplifyCheckedComparisons = true →
      (Tree.binary node left operator right).NoneChecked Lowering.isLogical facts) :
    start.Issues 2 high
      (site.lift collapses (left.type.nullable || right.type.nullable) effective
        (.ofTree site.options facts left leftLowered)
        (.ofTree site.options facts right rightLowered))
      fun next lowered => Assigned declared start low next fun types =>
        lowered.expr.HasType types
          (lowered.staticType (.binary node left operator right)) := by
  obtain ⟨restated, sameBase, isTaken, -, -⟩ := typable.isTyped
  have restated := carried.isRestated restated
  have takesLeft : takes effective (leftLowered.staticType left).base = true :=
    (carried.takes_eq _).trans isTaken
  have takesRight : takes effective right.type.base = true := sameBase ▸ takesLeft
  have sameBase :
      (leftLowered.staticType left).base = (rightLowered.staticType right).base :=
    sameBase
  have unchecked (simplifies : site.options.simplifyCheckedComparisons = true)
      (logical : effective.isRelational = false) :=
    (none simplifies).1 (isLogical_of_isRestated typable.isTyped.1
      (carried.isRelational_eq.symm.trans logical))
  have leftSuits : (Operand.ofTree site.options facts left leftLowered).Suits effective
      (leftLowered.staticType left) :=
    suits_ofTree takesLeft fun simplifies logical => (unchecked simplifies logical).1
  have rightSuits : (Operand.ofTree site.options facts right rightLowered).Suits
      effective (rightLowered.staticType right) :=
    suits_ofTree takesRight fun simplifies logical => (unchecked simplifies logical).2
  have rightNone (simplifies : site.options.simplifyCheckedComparisons = true) :
      right.NoneChecked Lowering.isLogical (facts.right left effective) :=
    carried.noneChecked_right.mp (none simplifies).2.2
  have both := (leftTypes.hasType fun simplifies => (none simplifies).2.1).and
    (rightTypes.hasType rightNone) above below
  have plain (leftPresent :
        (Operand.ofTree site.options facts left leftLowered).mayBeNull = false)
      (rightPresent :
        (Operand.ofTree site.options facts right rightLowered).mayBeNull = false) :
      Assigned declared start low high fun types =>
        (Expr.binary leftLowered.expr (convertOperator effective)
          rightLowered.expr).HasType types .bool := by
    refine both.imp ?_
    rintro types ⟨leftHas, rightHas⟩
    exact unchanged_typed restated takesLeft sameBase leftSuits rightSuits leftPresent
      rightPresent leftHas rightHas
  unfold Site.lift
  split
  · next lifted =>
      have static (lowered : Lowered) :
          lowered.staticType (.binary node left operator right) =
            ⟨.boolean, !lowered.notNull⟩ := by
        rw [Lowered.staticType, Tree.type, lifted, Bool.true_and]
      simp only [static]
      split
      · next mayBeNull =>
          exact restate_typed site casts restated takesLeft sameBase leftSuits
            rightSuits mayBeNull (above.trans below) both
      · next present =>
          rw [Bool.not_eq_true, Bool.or_eq_false_iff] at present
          exact CaptureNames.Issues.pure (plain present.1 present.2)
  · next notLifted =>
      rw [Bool.not_eq_true] at notLifted
      obtain ⟨leftPlain, rightPlain⟩ := Bool.or_eq_false_iff.mp notLifted
      apply CaptureNames.Issues.pure
      unfold Lowered.staticType
      rw [Tree.type, notLifted, Bool.false_and]
      refine plain ?_ ?_
      · rw [Operand.ofTree, leftPlain, Bool.false_and, Bool.false_and]
      · rw [Operand.ofTree, rightPlain, Bool.false_and, Bool.false_and]

/-- An operator that is lifted to one with a type has no operand that is known not to be
null by mistake, if it short-circuits. -/
theorem lift_noneChecked :
    start.Issues 2 high
      (site.lift collapses (left.type.nullable || right.type.nullable) effective
        (.ofTree site.options facts left leftLowered)
        (.ofTree site.options facts right rightLowered))
      fun _ lowered => site.options.simplifyCheckedComparisons = true →
        ∀ types, declared.Within types → lowered.expr.IsTyped types →
          (Tree.binary node left operator right).NoneChecked shortCircuits facts := by
  have uses : start.Issues 2 high
      (site.lift collapses (left.type.nullable || right.type.nullable) effective
        (.ofTree site.options facts left leftLowered)
        (.ofTree site.options facts right rightLowered))
      fun _ lowered => Uses effective (.ofTree site.options facts left leftLowered)
        (.ofTree site.options facts right rightLowered) lowered.expr := by
    unfold Site.lift
    split
    · split
      · next mayBeNull =>
          exact restate_uses site (carried.isRestated typable.isTyped.1) mayBeNull
      · exact CaptureNames.Issues.pure (unchanged_uses effective)
    · exact CaptureNames.Issues.pure (unchanged_uses effective)
  refine uses.weaken (Nat.le_refl 2)
    fun next lowered _ _ uses simplifies types within typed => ?_
  obtain ⟨leftTyped, rightTyped⟩ := uses.asks types typed
  refine ⟨fun isShort => ?_, leftTypes.noneChecked simplifies types within leftTyped,
    carried.noneChecked_right.mpr
      (rightTypes.noneChecked simplifies types within rightTyped)⟩
  obtain rfl := carried.eq_of_shortCircuits isShort
  obtain ⟨leftUsed, rightUsed⟩ := uses.uses isShort types typed
  exact ⟨isChecked_eq_false simplifies
      (fun text isText => leftTypes.ofReference text isText types within) leftUsed,
    isChecked_eq_false simplifies
      (fun text isText => rightTypes.ofReference text isText types within) rightUsed⟩

theorem lift_types (casts : site.options.explicitNullableCasts = true)
    (above : low ≤ middle) (below : middle ≤ high) :
    start.Issues 2 high
      (site.lift collapses (left.type.nullable || right.type.nullable) effective
        (.ofTree site.options facts left leftLowered)
        (.ofTree site.options facts right rightLowered))
      fun next lowered => Types declared start site.options
        (.binary node left operator right) facts low next lowered := by
  have noneChecked := lift_noneChecked collapses typable carried leftTypes rightTypes
  have noReference {holds : String → Prop} (text : String)
      (isReference : (Tree.binary node left operator right).reference? = some text) :
      holds text := by
    cases isReference
  by_cases none : site.options.simplifyCheckedComparisons = true →
      (Tree.binary node left operator right).NoneChecked Lowering.isLogical facts
  · have hasType := lift_hasType collapses typable carried leftTypes rightTypes
      casts above below none
    exact (hasType.and (by decide) noneChecked).weaken (Nat.le_refl 2)
      fun next lowered _ _ both => ⟨fun _ => both.1, both.2, noReference⟩
  · exact noneChecked.weaken (Nat.le_refl 2)
      fun next lowered _ _ noneChecked =>
        ⟨fun some => absurd some none, noneChecked, noReference⟩

end

/-! ## The whole -/

/-- Types are kept from the operands of an expression to the whole. -/
theorem preserved_types (casts : options.explicitNullableCasts = true) :
    Preserved options start (fun tree _ => Typable declared tree)
      (fun tree facts _ => Types declared start options tree facts) where
  isTyped typable := typable.isTyped
  operand typable :=
    types_operand (typable.isDeclared _ (List.mem_singleton.mpr rfl))
  inParentheses typable := ⟨typable.isTyped, typable.isLogical, typable.isDeclared⟩
  parenthesized _ types := ⟨types.hasType, types.noneChecked, types.ofReference⟩
  underNegation typable := { typable with isTyped := typable.isTyped.2 }
  negation typable types :=
    { hasType := fun none => (types.hasType none).imp fun types hasType =>
        hasType.negate typable.isTyped.1
      noneChecked := fun simplifies all within typed =>
        types.noneChecked simplifies all within typed.of_negate
      ofReference := fun text isReference => by cases isReference }
  leftOperand typable :=
    { isTyped := typable.isTyped.2.2.2.1
      isLogical := typable.isLogical.2.1
      isDeclared := fun leaf isLeaf =>
        typable.isDeclared leaf (List.mem_append_left _ isLeaf) }
  rightOperand typable _ :=
    { isTyped := typable.isTyped.2.2.2.2
      isLogical := typable.isLogical.2.2
      isDeclared := fun leaf isLeaf =>
        typable.isDeclared leaf (List.mem_append_right _ isLeaf) }
  binary site typable carried sameOptions _ leftTypes rightTypes above below _ := by
    subst sameOptions
    exact lift_types _ typable carried leftTypes rightTypes casts above below
  ternaryTest typable := typable.isLogical.elim
  ternaryBranch typable := typable.isLogical.elim
  ternary typable := typable.isLogical.elim

end

/-! ## Statements -/

/-- Whether a statement has an expression as its condition or its value. What is
assigned may be given to the variable. -/
inductive IsMadeOf (model : Model) (arena : Arena) (declared : Declarations)
    (tree : Source.Tree Leaf) : Form → Prop where
  | condition {kind : ConditionKind}
      (converts : convertsTo model tree.root tree.type = true)
      (isBoolean : tree.type.base = .boolean) :
      IsMadeOf model arena declared tree (.conditionStatement kind tree.slot)
  | returned : IsMadeOf model arena declared tree (.returnStatement tree.slot)
  | declared {name : String} :
      IsMadeOf model arena declared tree (.localDeclaration name tree.slot)
  | assigned {node : NodeId} {text : String} {type : ScalarType}
      (isName : isLocalName model arena node text = true)
      (isDeclared : declared.ofVariable text = some type)
      (converts : tree.type.ConvertsTo type) :
      IsMadeOf model arena declared tree (.assignment (some node) tree.slot)
  | evaluated : IsMadeOf model arena declared tree (.expressionStatement tree.slot)

/-- Whether a statement is made of a well typed expression, which does not have more
levels than are converted. Nodes are numbered by 32-bit words. -/
structure HasExpression (model : Model) (arena : Arena) (declared : Declarations)
    (statement : Slot) (tree : Source.Tree Leaf) : Prop where
  isMadeOf : ∃ form, arena.form? statement = some form ∧
    IsMadeOf model arena declared tree form
  read : tree.ReadBy model arena
  typable : Typable declared tree
  room : tree.depth < depthLimit
  few : arena.size ≤ UInt32.size

/-- Whether a statement is well typed once the names that it binds are declared. -/
def IsTypable (declared : Declarations) (statement : Target.Statement) : Prop :=
  ∃ types, declared.Within types ∧ statement.WellTyped types

section

variable {setting : Setting} {session : Session} {declared : Declarations}
variable {statement : Slot} {tree : Source.Tree Leaf} {lowered : Lowered}

/-- Whether a statement is well typed where an expression in it has its static type, and
only where the expression has a type. -/
structure AsksFor (declared : Declarations) (tree : Source.Tree Leaf)
    (lowered : Lowered) (output : Target.Statement) : Prop where
  wellTyped : ∀ types, declared.Within types →
    lowered.expr.HasType types (lowered.staticType tree) → output.WellTyped types
  isTyped : ∀ types, output.WellTyped types → lowered.expr.IsTyped types

/-- A condition is a `bool` where the expression has its static type. -/
theorem hasType_condition {types : Declarations} (isBoolean : tree.type.base = .boolean)
    (hasType : lowered.expr.HasType types (lowered.staticType tree)) :
    (lowered.condition tree).HasType types .bool := by
  unfold Lowered.condition
  split
  · exact hasType.equalsTrue isBoolean
  · next present =>
      rwa [Lowered.staticType, Bool.eq_false_of_not_eq_true present, isBoolean] at hasType

theorem isTyped_of_condition {types : Declarations}
    (typed : (lowered.condition tree).IsTyped types) : lowered.expr.IsTyped types := by
  unfold Lowered.condition at typed
  split at typed
  · exact typed.of_equals
  · exact typed

/-- The expression of a statement is converted to one of which the types are known. -/
theorem HasExpression.exists_slotRun
    (has : HasExpression setting.model session.arena declared statement tree)
    (isNames : setting.expander = names)
    (lowers : setting.options.lowerNullableLogic = true)
    (casts : setting.options.explicitNullableCasts = true)
    (primitives : HoldsPrimitives setting.model.types) {start : Session}
    {collapses : Bool} (grows : session.arena.Grows start.arena)
    (same : start.captures = session.captures)
    (stands : Stands setting.model session.arena [.unchanged statement] tree collapses
      .nothing) :
    ∃ lowered later visits next,
      SlotRun setting (depthLimit - 1) [.unchanged statement] true tree.slot start
        lowered later visits ∧
      session.arena.Grows later.arena ∧ next < UInt32.size ∧
      Types declared session.captures setting.options tree .nothing 0 next lowered := by
  have few := (has.read.held.length_nodes_le has.read.distinct).trans has.few
  obtain ⟨lowered, later, visits, next, run, walked⟩ :=
    (preserved_types casts).exists_slotRun isNames lowers primitives has.typable
      (has.read.of_grows grows) (stands.of_grows grows)
      (same.trans session.captures.advance_zero.symm) ((Nat.zero_add _).trans_le few)
      (Nat.le_sub_one_of_lt has.room)
  refine ⟨lowered, later, visits, next, run, grows.trans walked.grows, ?_, walked.holds⟩
  have below := walked.below
  omega

/-- A statement that is made of an expression is converted to one that asks for the
type of what the expression is converted to. -/
theorem HasExpression.exists_converted (setting : Setting) (session : Session)
    (has : HasExpression setting.model session.arena declared statement tree)
    (isNames : setting.expander = names)
    (lowers : setting.options.lowerNullableLogic = true)
    (casts : setting.options.explicitNullableCasts = true)
    (primitives : HoldsPrimitives setting.model.types) :
    ∃ output later lowered next,
      convertStatement setting statement session = (.ok output, later) ∧
        AsksFor declared tree lowered output ∧ next < UInt32.size ∧
        Types declared session.captures setting.options tree .nothing 0 next
          lowered := by
  obtain ⟨form, found, isMadeOf⟩ := has.isMadeOf
  have converted {output : Target.Statement} {later : Session} {visits : List Visit}
      (run : StatementRun setting statement session output later visits) :
      convertStatement setting statement session = (.ok output, later) :=
    (describes_convertStatement setting statement _ _ _).mpr ⟨visits, run⟩
  cases isMadeOf with
  | @condition kind converts isBoolean =>
      obtain ⟨lowered, later, visits, next, run, grows, typed⟩ :=
        has.exists_slotRun isNames lowers casts primitives (.refl _) rfl
          (.condition has.read found)
      have isPlain := collapseCondition_eq primitives (has.read.of_grows grows) isBoolean
        converts lowered
      refine ⟨_, later, lowered, next, converted ⟨_, found, .conditionStatement run⟩,
        ⟨?_, ?_⟩, typed⟩
      · intro types within hasType
        rw [isPlain]
        cases kind <;> exact hasType_condition isBoolean hasType
      · intro types wellTyped
        rw [isPlain] at wellTyped
        exact isTyped_of_condition (by cases kind <;> exact wellTyped.isTyped)
  | returned =>
      obtain ⟨lowered, later, visits, next, run, -, typed⟩ :=
        has.exists_slotRun isNames lowers casts primitives (.refl _) rfl
          (.ofStatement found rfl fun _ _ => Form.noConfusion)
      refine ⟨_, later, lowered, next,
        converted ⟨_, found, .returnStatement (.present run)⟩,
        ⟨?_, fun types wellTyped => wellTyped _ rfl⟩, typed⟩
      rintro types - hasType _ ⟨⟩
      exact hasType.isTyped
  | declared =>
      obtain ⟨lowered, later, visits, next, run, -, typed⟩ :=
        has.exists_slotRun isNames lowers casts primitives (.refl _) rfl
          (.ofStatement found rfl fun _ _ => Form.noConfusion)
      refine ⟨_, later, lowered, next,
        converted ⟨_, found, .localDeclaration (.present run)⟩,
        ⟨?_, fun types wellTyped => wellTyped _ rfl⟩, typed⟩
      rintro types - hasType _ ⟨⟩
      exact hasType.isTyped
  | @assigned node text type isName isDeclared converts =>
      have room : 1 ≤ depthLimit - 1 := by decide
      obtain ⟨between, targetVisits, targetRun, grows, same⟩ := exists_slotRun_local
        isNames isName room
      obtain ⟨lowered, later, visits, next, run, -, typed⟩ :=
        has.exists_slotRun isNames lowers casts primitives grows same
          (.ofStatement found rfl fun _ _ => Form.noConfusion)
      refine ⟨_, later, lowered, next, converted ⟨_, found, .assignment targetRun run⟩,
        ⟨?_, ?_⟩, typed⟩
      · intro types within hasType
        refine ⟨type, _, within.ofVariable _ _ isDeclared, hasType, converts.1, ?_⟩
        exact fun nullable => converts.2 (Bool.and_eq_true_iff.mp nullable).1
      · rintro types ⟨_, _, -, hasType, -⟩
        exact hasType.isTyped
  | evaluated =>
      obtain ⟨lowered, later, visits, next, run, -, typed⟩ :=
        has.exists_slotRun isNames lowers casts primitives (.refl _) rfl
          (.ofStatement found rfl fun _ _ => Form.noConfusion)
      exact ⟨_, later, lowered, next, converted ⟨_, found, .expressionStatement run⟩,
        ⟨fun types _ hasType => hasType.isTyped, fun types wellTyped => wellTyped⟩, typed⟩

/-- A statement over `Boolean`, `Integer` and the nullable types over them is always
converted. The result is well typed if no operand of a logical operator is known not to
be null by a condition around it, and only if no operand of a short-circuiting operator
is. -/
theorem convertStatement_isTypable (setting : Setting) (session : Session)
    (isNames : setting.expander = names)
    (lowers : setting.options.lowerNullableLogic = true)
    (casts : setting.options.explicitNullableCasts = true)
    (primitives : HoldsPrimitives setting.model.types)
    (has : HasExpression setting.model session.arena declared statement tree)
    (apart : ∀ number, declared.ofVariable (session.captures.name number) = none) :
    ∃ output later,
      convertStatement setting statement session = (.ok output, later) ∧
        ((setting.options.simplifyCheckedComparisons = true →
            tree.NoneChecked isLogical .nothing) → IsTypable declared output) ∧
        (setting.options.simplifyCheckedComparisons = true →
          IsTypable declared output → tree.NoneChecked shortCircuits .nothing) := by
  obtain ⟨output, later, lowered, next, converted, asks, few, typed⟩ :=
    has.exists_converted setting session isNames lowers casts primitives
  refine ⟨output, later, converted, fun none => ?_, ?_⟩
  · obtain ⟨types, within, hasType⟩ := (typed.hasType none).exists_within few apart
    exact ⟨types, within, asks.wellTyped types within hasType⟩
  · rintro simplifies ⟨types, within, wellTyped⟩
    exact typed.noneChecked simplifies types within (asks.isTyped types wellTyped)

end

/-! ## A condition that is checked, and one that is not -/

/-- `If x.HasValue AndAlso x > 3 Then`, where `x` is a local variable of type
`Integer?`. -/
def comparisonOfChecked : Arena where
  nodes := #[
    { form := .identifier "x" }, { form := .identifier "HasValue" },
    { form := .memberAccess (some ⟨0⟩) (some ⟨1⟩) .simple },
    { form := .identifier "x" }, { form := .literal (.number "3") },
    { form := .binary (some ⟨3⟩) .greaterThan (some ⟨4⟩) },
    { form := .binary (some ⟨2⟩) .andAlso (some ⟨5⟩) },
    { form := .conditionStatement .ifBlock (some ⟨6⟩) }]

/-- The condition as a tree. -/
def comparisonOfCheckedTree : Source.Tree Leaf :=
  .binary ⟨6⟩ (.operand ⟨2⟩ (.hasValue ⟨0⟩ ⟨1⟩ "x" .integer)) .andAlso
    (.binary ⟨5⟩ (.operand ⟨3⟩ (.reference "x" ⟨.integer, true⟩)) .greaterThan
      (.operand ⟨4⟩ (.digits "3")))

/-- What a front end says about it. -/
def comparisonOfCheckedModel : Model :=
  let symbols : SymbolTable := ⟨#[⟨⟨0⟩, "x", .localVariable, {}, none, none, none, none⟩]⟩
  ((((((({ symbols } : Model).bindSymbol (some ⟨0⟩) ⟨0⟩).bindSymbol (some ⟨3⟩) ⟨0⟩).setType
    (some ⟨2⟩) ⟨some .boolean, some .nullableBoolean⟩).setType
    (some ⟨3⟩) (.unconverted .nullableInteger)).setType
    (some ⟨4⟩) ⟨some .integer, some .nullableInteger⟩).setType
    (some ⟨5⟩) (.unconverted .nullableBoolean)).setType
    (some ⟨6⟩) (.unconverted .nullableBoolean)

/-- The declaration of its variable. -/
def comparisonOfCheckedNames : Declarations where
  ofVariable name := if name = "x" then some ⟨.integer, true⟩ else none
  ofFunction _ := none

theorem comparisonOfChecked_isTypable :
    ∃ output later, convertStatement ⟨comparisonOfCheckedModel, {}, names⟩ (some ⟨7⟩)
        { arena := comparisonOfChecked } = (.ok output, later) ∧
      IsTypable comparisonOfCheckedNames output := by
  have has : HasExpression comparisonOfCheckedModel comparisonOfChecked
      comparisonOfCheckedNames (some ⟨7⟩) comparisonOfCheckedTree :=
    { isMadeOf := ⟨_, rfl, .condition (by decide +kernel) rfl⟩
      read := ⟨by decide +kernel, by decide, by decide +kernel⟩
      typable := ⟨by decide, by decide, by
        simp [comparisonOfCheckedTree, Tree.leaves, IsDeclared,
          comparisonOfCheckedNames]⟩
      room := by decide
      few := by decide }
  have apart (number : UInt32) :
      comparisonOfCheckedNames.ofVariable (CaptureNames.name {} number) = none := by
    have other : CaptureNames.name {} number ∉ ["x"] :=
      CaptureNames.name_notMem (by decide) number
    simpa [comparisonOfCheckedNames] using other
  obtain ⟨output, later, converted, isTypable, -⟩ :=
    convertStatement_isTypable ⟨comparisonOfCheckedModel, {}, names⟩
      { arena := comparisonOfChecked } rfl rfl rfl holdsPrimitives_standard has apart
  exact ⟨output, later, converted, isTypable fun _ => by decide⟩

/-- `If a Is Nothing OrElse a AndAlso c Then`, where `a` is a local variable of type
`Boolean?` and `c` one of type `Boolean`. -/
def conjunctionOfChecked : Arena where
  nodes := #[
    { form := .identifier "a" }, { form := .literal .nothing },
    { form := .binary (some ⟨0⟩) .is (some ⟨1⟩) },
    { form := .identifier "a" }, { form := .identifier "c" },
    { form := .binary (some ⟨3⟩) .andAlso (some ⟨4⟩) },
    { form := .binary (some ⟨2⟩) .orElse (some ⟨5⟩) },
    { form := .conditionStatement .ifBlock (some ⟨6⟩) }]

/-- The condition as a tree. -/
def conjunctionOfCheckedTree : Source.Tree Leaf :=
  .binary ⟨6⟩ (.operand ⟨2⟩ (.comparedWithNothing ⟨0⟩ ⟨1⟩ true false "a" .boolean)) .orElse
    (.binary ⟨5⟩ (.operand ⟨3⟩ (.reference "a" ⟨.boolean, true⟩)) .andAlso
      (.operand ⟨4⟩ (.reference "c" ⟨.boolean, false⟩)))

/-- What a front end says about it. -/
def conjunctionOfCheckedModel : Model :=
  let symbols : SymbolTable := ⟨#[
    ⟨⟨0⟩, "a", .localVariable, {}, none, none, none, none⟩,
    ⟨⟨1⟩, "c", .localVariable, {}, none, none, none, none⟩]⟩
  (((((((({ symbols } : Model).bindSymbol (some ⟨0⟩) ⟨0⟩).bindSymbol (some ⟨3⟩)
    ⟨0⟩).bindSymbol (some ⟨4⟩) ⟨1⟩).setType
    (some ⟨2⟩) ⟨some .boolean, some .nullableBoolean⟩).setType
    (some ⟨3⟩) (.unconverted .nullableBoolean)).setType
    (some ⟨4⟩) ⟨some .boolean, some .nullableBoolean⟩).setType
    (some ⟨5⟩) (.unconverted .nullableBoolean)).setType
    (some ⟨6⟩) (.unconverted .nullableBoolean)

/-- The declarations of its variables. -/
def conjunctionOfCheckedNames : Declarations where
  ofVariable name :=
    if name = "a" then some ⟨.boolean, true⟩
    else if name = "c" then some .bool
    else none
  ofFunction _ := none

/-- The condition is converted to `a is null || a && c`, which has no type. -/
theorem conjunctionOfChecked_not_isTypable :
    HasExpression conjunctionOfCheckedModel conjunctionOfChecked
        conjunctionOfCheckedNames (some ⟨7⟩) conjunctionOfCheckedTree ∧
      (convertStatement ⟨conjunctionOfCheckedModel, {}, names⟩ (some ⟨7⟩)
          { arena := conjunctionOfChecked }).1.toOption.map (·.toText) =
        some "if (a is null || a && c)" ∧
      ∃ output later, convertStatement ⟨conjunctionOfCheckedModel, {}, names⟩
          (some ⟨7⟩) { arena := conjunctionOfChecked } = (.ok output, later) ∧
        ¬ IsTypable conjunctionOfCheckedNames output := by
  have has : HasExpression conjunctionOfCheckedModel conjunctionOfChecked
      conjunctionOfCheckedNames (some ⟨7⟩) conjunctionOfCheckedTree :=
    { isMadeOf := ⟨_, rfl, .condition (by decide +kernel) rfl⟩
      read := ⟨by decide +kernel, by decide, by decide +kernel⟩
      typable := ⟨by decide, by decide, by
        simp [conjunctionOfCheckedTree, Tree.leaves, IsDeclared,
          conjunctionOfCheckedNames]⟩
      room := by decide
      few := by decide }
  refine ⟨has, by decide +kernel, ?_⟩
  obtain ⟨output, later, lowered, next, converted, asks, -, typed⟩ :=
    has.exists_converted ⟨conjunctionOfCheckedModel, {}, names⟩
      { arena := conjunctionOfChecked } rfl rfl rfl holdsPrimitives_standard
  refine ⟨output, later, converted, ?_⟩
  rintro ⟨types, within, wellTyped⟩
  have none := typed.noneChecked rfl types within (asks.isTyped types wellTyped)
  exact absurd none (by decide)

end BasicLowering.Lowering
