import BasicLowering.Proofs.Lowering.Templates
import BasicLowering.Proofs.Lowering.Walk

/-!
# What converted conditions mean

A condition over `Boolean`, `Integer` and the nullable types over them is converted to
an expression that is true where the condition is true, and false where it is false or
null, whatever values its variables and functions have. Each function is called as often
as the source language calls it; a comparison may call its operands in another order.

Inside of a condition, an expression where null counts as false may be converted to one
that has its truth as its value (`IsValueOf`). Whatever is around it then goes by the
truth alone, or leaves out nothing that could be noticed.
-/

namespace BasicLowering.Lowering

open Source Binding Analysis Semantics Qualification
open Target (Environment Expr Yields)

/-! ## Worlds as programs -/

/-- The program in which variables and functions have the values of a world. Its states
are the calls that have been made so far. -/
def programOf (world : World) (names : List String) :
    Environment (Multiset String) where
  read _ name := if name ∈ names then some (world.locals name) else none
  perform calls
    | .call (.identifier name) [] => some (world.functions name, calls + {name})
    | _ => none

/-- Where conditions are evaluated in a world. -/
def sceneOf (world : World) (names : List String) (start : CaptureNames)
    (apart : ∀ number, start.name number ∉ names) : Scene (Multiset String) where
  environment := programOf world names
  start
  apart _ number := if_neg (apart number)

/-- Whether a value is the one that is expected, or its truth where null counts as
false. -/
def IsValueOf (collapses : Bool) (type : ScalarType) (expected actual : Value) : Prop :=
  actual = expected ∨
    collapses = true ∧ type.base = .boolean ∧ actual = .boolean expected.isTrue

/-- Whether a converted expression has a value that stands for that of a tree, and
makes its calls. -/
structure Gives (scene : Scene (Multiset String)) (world : World)
    (tree : Source.Tree Leaf) (collapses : Bool) (low high : Nat) (lowered : Lowered)
    (value : Value) : Prop where
  isValue : IsValueOf collapses tree.type (tree.evaluate world).value value
  restates : ∀ calls, scene.Restates low high lowered calls value
    (calls + Multiset.ofList (tree.evaluate world).events)

namespace IsValueOf

variable {collapses : Bool} {type : ScalarType} {expected actual : Value}

theorem isTrue_eq (isValue : IsValueOf collapses type expected actual) :
    actual.isTrue = expected.isTrue := by
  rcases isValue with rfl | ⟨-, -, rfl⟩
  · rfl
  · exact Value.isTrue_boolean _

theorem eq_of_integer (isValue : IsValueOf collapses type expected actual)
    (isInteger : type.base = .integer) : actual = expected := by
  rcases isValue with same | ⟨-, isBoolean, -⟩
  · exact same
  · rw [isInteger] at isBoolean
    cases isBoolean

theorem eq_of_noticed (isValue : IsValueOf false type expected actual) :
    actual = expected :=
  isValue.elim id fun collapsed => nomatch collapsed.1

theorem admits (isValue : IsValueOf collapses type expected actual)
    (admitted : type.admits expected = true) : type.admits actual = true := by
  rcases isValue with rfl | ⟨-, isBoolean, rfl⟩
  · exact admitted
  · exact beq_iff_eq.mpr isBoolean

end IsValueOf

/-! ## Trees without tests for null -/

/-- Whether a tree is evaluated in a world by reading certain variables. Nothing is
known of the variables, as there are no tests for null. -/
structure Admits (world : World) (names : List String) (tree : Source.Tree Leaf)
    (facts : Facts) : Prop where
  nothingKnown : facts = .nothing
  wellTyped : tree.WellTyped
  fits : tree.Fits world
  untested : ∀ leaf ∈ tree.leaves, leaf.isNullTest = false
  named : ∀ leaf ∈ tree.leaves, ∀ name ∈ leaf.name?, name ∈ names

section

variable {world : World} {names : List String} {tree inner : Source.Tree Leaf}
variable {facts : Facts}

/-- The parts of a tree are evaluated by reading the same variables. -/
theorem Admits.part (admits : Admits world names tree facts)
    (wellTyped : inner.WellTyped) (below : inner.leaves ⊆ tree.leaves) :
    Admits world names inner .nothing where
  nothingKnown := rfl
  wellTyped := wellTyped
  fits leaf isLeaf := admits.fits leaf (below isLeaf)
  untested leaf isLeaf := admits.untested leaf (below isLeaf)
  named leaf isLeaf := admits.named leaf (below isLeaf)

/-- Without tests for null an expression says nothing about variables. -/
theorem fact?_eq_none (untested : ∀ leaf ∈ tree.leaves, leaf.isNullTest = false)
    (name : String) (levels : Nat) (result : Bool) :
    tree.fact? name levels result = none := by
  induction tree generalizing levels result with
  | operand node leaf =>
      cases levels with
      | zero => rfl
      | succ levels =>
          have noTest := untested leaf (List.mem_singleton.mpr rfl)
          cases leaf <;> first | rfl | cases noTest
  | parenthesized node inner ih | negation node inner ih =>
      cases levels with
      | zero => rfl
      | succ levels => exact ih untested levels _
  | binary node left operator right leftIH rightIH =>
      cases levels with
      | zero => rfl
      | succ levels =>
          have both := List.forall_mem_append.mp untested
          cases operator <;>
            simp [Tree.fact?, leftIH both.1, rightIH both.2]
  | ternary => cases levels <;> rfl

theorem right_nothing (untested : ∀ leaf ∈ tree.leaves, leaf.isNullTest = false)
    (operator : BinaryOperator) : Facts.nothing.right tree operator = .nothing := by
  funext name
  rw [Facts.right, funext (fact?_eq_none untested name nullFlowLevels)]
  cases leftResult? operator <;> rfl

end

/-! ## Operands -/

namespace Gives

variable {scene : Scene (Multiset String)} {world : World} {tree : Source.Tree Leaf}
variable {collapses : Bool} {low high : Nat} {lowered : Lowered} {value : Value}
variable {options : Options}

/-- A converted operand is read with its value, and makes its calls. -/
theorem reads (gives : Gives scene world tree collapses low high lowered value)
    (admitted : tree.type.admits (tree.evaluate world).value = true)
    (calls : Multiset String) :
    scene.Reads low high (.ofTree options .nothing tree lowered)
      ⟨calls, value, calls + Multiset.ofList (tree.evaluate world).events⟩ where
  denotes := (gives.restates calls).denotes
  notNull present := by
    have unknown : tree.reference?.bind Facts.nothing = none := by
      cases tree.reference? <;> rfl
    simp only [Operand.ofTree, unknown, Bool.and_eq_false_iff, Bool.not_eq_false']
      at present
    rcases present with (notNullable | notNull) | known
    · exact ScalarType.ne_null_of_admits (gives.isValue.admits admitted) notNullable
    · exact (gives.restates calls).notNull notNull
    · simp at known
  still reusable := by
    dsimp only
    rw [Tree.events_evaluate_of_isReusable reusable, Multiset.coe_nil, add_zero]

/-- An operand that is read again has the same value. -/
theorem rereads (gives : Gives scene world tree collapses low high lowered value)
    (calls : Multiset String) :
    scene.Rereads low high (.ofTree options .nothing tree lowered) value calls
      value where
  captured _ := rfl
  evaluated reusable := by
    have denotes := (gives.restates calls).denotes
    rwa [Tree.events_evaluate_of_isReusable reusable, Multiset.coe_nil, add_zero]
      at denotes

end Gives

/-! ## Operators -/

namespace CarriedOutBy

variable {operator effective : BinaryOperator} {left right : Source.Tree Leaf}

theorem combine_eq (carried : CarriedOutBy operator effective left right)
    (leftValue rightValue : Value) :
    combine effective leftValue rightValue =
      combine operator leftValue rightValue := by
  rcases carried with rfl | ⟨isForm, -⟩
  · rfl
  · cases operator <;> cases isForm <;> rfl

variable {world : World} {collapses : Bool} {leftValue rightValue : Value}

/-- What is left out by the operator that carries out another one makes no calls. -/
theorem ends_eq (carried : CarriedOutBy operator effective left right)
    (isLeft : IsValueOf (collapses && passesLeft effective right) left.type
      (left.evaluate world).value leftValue) (node : NodeId)
    (calls : Multiset String) :
    (if skipsRight effective leftValue then
        calls + Multiset.ofList (left.evaluate world).events
      else calls + Multiset.ofList (left.evaluate world).events +
        Multiset.ofList (right.evaluate world).events) =
      calls + Multiset.ofList
        ((Tree.binary node left operator right).evaluate world).events := by
  have sameEvents : (if skipsRight effective leftValue then
        (left.evaluate world).events
      else (left.evaluate world).events ++ (right.evaluate world).events) =
      ((Tree.binary node left operator right).evaluate world).events := by
    rw [Tree.evaluate, Outcome.binary]
    cases isPure : right.isPure with
    | true =>
        rw [Tree.events_evaluate_of_isPure isPure, List.append_nil, ite_self,
          ite_self]
    | false =>
        obtain rfl : effective = operator := carried.elim id fun isForm =>
          absurd (isPure.symm.trans isForm.2.2.2) Bool.false_ne_true
        cases effective with
        | andAlso =>
            rw [passesLeft, isPure, Bool.and_false] at isLeft
            rw [isLeft.eq_of_noticed]
        | orElse => rw [skipsRight_orElse, skipsRight_orElse, isLeft.isTrue_eq]
        | _ => rfl
  rw [← sameEvents]
  split
  · rfl
  · rw [← Multiset.coe_add, add_assoc]

end CarriedOutBy

/-- Operands that are given by their truth give the truth of an operator. -/
theorem isTrue_combine {operator : BinaryOperator} {leftType rightType : ScalarType}
    {collapsesLeft collapsesRight : Bool}
    {left right leftValue rightValue : Value}
    (restated : isRestated operator = true)
    (leftBase : leftType.base = operandBase operator)
    (rightBase : rightType.base = operandBase operator)
    (isLeft : IsValueOf collapsesLeft leftType left leftValue)
    (isRight : IsValueOf collapsesRight rightType right rightValue) :
    (combine operator leftValue rightValue).isTrue =
      (combine operator left right).isTrue := by
  have sameLeft := isLeft.isTrue_eq
  have sameRight := isRight.isTrue_eq
  cases relational : operator.isRelational with
  | true =>
      rw [operandBase, if_pos relational] at leftBase rightBase
      rw [isLeft.eq_of_integer leftBase, isRight.eq_of_integer rightBase]
  | false =>
      cases operator with
      | andAlso | and =>
          rw [combine, combine, Value.isTrue_conj, Value.isTrue_conj, sameLeft,
            sameRight]
      | orElse | or =>
          rw [combine, combine, Value.isTrue_disj, Value.isTrue_disj, sameLeft,
            sameRight]
      | equals | notEquals | lessThan | lessThanOrEqual | greaterThan
      | greaterThanOrEqual => cases relational
      | _ => cases restated

section

variable {scene : Scene (Multiset String)} {world : World} {names : List String}
variable {node : NodeId} {left right : Source.Tree Leaf}
variable {operator effective : BinaryOperator} {facts : Facts} {collapses : Bool}
variable {low middle high : Nat} {leftLowered rightLowered : Lowered}
variable {leftValue rightValue : Value}

/-- The value of an operator, as far as its place asks for it. -/
theorem isValueOf_outcome
    (admits : Admits world names (.binary node left operator right) facts)
    (carried : CarriedOutBy operator effective left right)
    (isLeft : IsValueOf (collapses && passesLeft effective right) left.type
      (left.evaluate world).value leftValue)
    (isRight : IsValueOf (collapses && passesRight effective) right.type
      (right.evaluate world).value rightValue) :
    IsValueOf collapses (Tree.binary node left operator right).type
      ((Tree.binary node left operator right).evaluate world).value
      (outcomeOf collapses effective leftValue rightValue) := by
  obtain ⟨restated, leftBase, rightBase, -, -⟩ := admits.wellTyped
  rw [outcomeOf, carried.combine_eq]
  cases collapses with
  | true =>
      rw [isTrue_combine restated leftBase rightBase isLeft isRight]
      exact .inr ⟨rfl, rfl, rfl⟩
  | false =>
      rw [isLeft.eq_of_noticed, isRight.eq_of_noticed]
      exact .inl rfl

/-- The operands of an operator fit the one that carries it out. -/
theorem fitOperator_of_isValueOf
    (admits : Admits world names (.binary node left operator right) facts)
    (carried : CarriedOutBy operator effective left right)
    {collapsesLeft collapsesRight : Bool}
    (isLeft : IsValueOf collapsesLeft left.type (left.evaluate world).value leftValue)
    (isRight : IsValueOf collapsesRight right.type (right.evaluate world).value
      rightValue) :
    FitOperator effective leftValue rightValue := by
  obtain ⟨-, leftBase, rightBase, leftTyped, rightTyped⟩ := admits.wellTyped
  rw [operandBase, ← carried.isRelational_eq, ← operandBase] at leftBase rightBase
  have fits := Tree.Fits.of_append admits.fits
  exact Tree.fitOperator_of_admits leftBase rightBase
    (isLeft.admits (Tree.admits_evaluate leftTyped fits.1))
    (isRight.admits (Tree.admits_evaluate rightTyped fits.2))

section

variable (admits : Admits world names (.binary node left operator right) facts)
variable (carried : CarriedOutBy operator effective left right)
variable (leftGives : Gives scene world left (collapses && passesLeft effective right)
  low middle leftLowered leftValue)
variable (rightGives : Gives scene world right (collapses && passesRight effective)
  middle high rightLowered rightValue)
variable (above : low ≤ middle) (below : middle ≤ high)
variable (bounded : high + 2 < UInt32.size)

include admits carried leftGives rightGives above below bounded

omit carried in
/-- The operands of an operator, from whatever calls they start. -/
theorem sides_ofTree (options : Options) (leftCalls rightCalls : Multiset String)
    (needed : Prop) :
    scene.Sides low middle high (.ofTree options .nothing left leftLowered)
      (.ofTree options .nothing right rightLowered)
      ⟨leftCalls, leftValue, leftCalls + Multiset.ofList (left.evaluate world).events⟩
      ⟨rightCalls, rightValue,
        rightCalls + Multiset.ofList (right.evaluate world).events⟩ needed := by
  obtain ⟨-, -, -, leftTyped, rightTyped⟩ := admits.wellTyped
  have fits := Tree.Fits.of_append admits.fits
  exact ⟨leftGives.reads (Tree.admits_evaluate leftTyped fits.1) leftCalls,
    fun _ => rightGives.reads (Tree.admits_evaluate rightTyped fits.2) rightCalls,
    above, below, bounded⟩

/-- An operator on two operands that are present is left as it is. -/
theorem unchanged_restates (options : Options)
    (leftPresent :
      (Operand.ofTree options .nothing left leftLowered).mayBeNull = false)
    (rightPresent :
      (Operand.ofTree options .nothing right rightLowered).mayBeNull = false)
    (notNull : Bool) (calls : Multiset String) :
    scene.Restates low high
      ⟨.binary leftLowered.expr (convertOperator effective) rightLowered.expr, notNull⟩
      calls (outcomeOf collapses effective leftValue rightValue)
      (calls + Multiset.ofList
        ((Tree.binary node left operator right).evaluate world).events) := by
  have fit := fitOperator_of_isValueOf admits carried leftGives.isValue
    rightGives.isValue
  have sides := sides_ofTree admits leftGives rightGives above below bounded
    options calls (calls + Multiset.ofList (left.evaluate world).events)
    (skipsRight effective leftValue = false)
  have leftNotNull := sides.left.notNull leftPresent
  have rightNotNull := (rightGives.reads (Tree.admits_evaluate
    admits.wellTyped.2.2.2.2 (Tree.Fits.of_append admits.fits).2) calls).notNull
      rightPresent
  obtain ⟨isLogical, missing⟩ := combine_fits fit
  have isPresent : combine effective leftValue rightValue ≠ .null := fun isNull =>
    (missing isNull).elim leftNotNull rightNotNull
  have isOutcome : outcomeOf collapses effective leftValue rightValue =
      combine effective leftValue rightValue := by
    rw [outcomeOf, ← Value.eq_boolean_isTrue isLogical isPresent, ite_self]
  rw [isOutcome, ← carried.ends_eq leftGives.isValue node calls]
  exact ⟨sides.unchanged_denotes (carried.isRestated admits.wellTyped.1) fit rfl
    leftNotNull rightNotNull, fun _ => isPresent⟩

omit admits rightGives above below bounded in
/-- The calls from which the operands start, in the order in which they run. -/
theorem exists_inTurn (rightFirst : Bool)
    (relational : rightFirst = true → effective.isRelational = true)
    (calls : Multiset String) :
    ∃ leftCalls rightCalls after,
      InTurn ⟨leftCalls, leftValue,
          leftCalls + Multiset.ofList (left.evaluate world).events⟩
        ⟨rightCalls, rightValue,
          rightCalls + Multiset.ofList (right.evaluate world).events⟩
        rightFirst calls after ∧
      (if skipsRight effective leftValue then
          leftCalls + Multiset.ofList (left.evaluate world).events
        else after) =
        calls + Multiset.ofList
          ((Tree.binary node left operator right).evaluate world).events := by
  have ends := carried.ends_eq leftGives.isValue node calls
  cases rightFirst with
  | false => exact ⟨calls, _, _, ⟨rfl, rfl, rfl⟩, ends⟩
  | true =>
      have needed : skipsRight effective leftValue = false :=
        skipsRight_of_isRelational (relational rfl) leftValue
      rw [needed, if_neg Bool.false_ne_true] at ends
      refine ⟨_, calls, _, ⟨rfl, rfl, rfl⟩, ?_⟩
      rw [needed, if_neg Bool.false_ne_true, ← ends, add_right_comm]

/-- An operator whose operands mean what they say is lifted to one that does. -/
theorem lift_restates {site : Site}
    (samePurity :
      Analysis.isPure site.model site.arena right.slot = right.isPure)
    (calls : Multiset String) :
    scene.start.Issues 2 high
      (site.lift collapses (left.type.nullable || right.type.nullable) effective
        (.ofTree site.options facts left leftLowered)
        (.ofTree site.options facts right rightLowered))
      fun next lowered =>
        scene.Restates low next lowered calls
          (outcomeOf collapses effective leftValue rightValue)
          (calls + Multiset.ofList
            ((Tree.binary node left operator right).evaluate world).events) := by
  obtain rfl := admits.nothingKnown
  have restated := carried.isRestated admits.wellTyped.1
  have fit := fitOperator_of_isValueOf admits carried leftGives.isValue
    rightGives.isValue
  have unchanged := unchanged_restates admits carried leftGives rightGives above below
    bounded site.options
  unfold Site.lift
  split
  · split
    · obtain ⟨leftCalls, rightCalls, after, inTurn, ends⟩ := exists_inTurn carried
        leftGives
        (runsRightFirst collapses effective
          (.ofTree site.options .nothing left leftLowered)
          (.ofTree site.options .nothing right rightLowered))
        isRelational_of_runsRightFirst calls
      have sides := sides_ofTree admits leftGives rightGives above below bounded
        site.options leftCalls rightCalls (skipsRight effective leftValue = false)
      obtain ⟨value, isValue, issues⟩ := sides.restate_restates site collapses restated
        (fit_of_fitOperator fit) inTurn
        (fun isPure _ => by
          have isPure : right.isPure = true := samePurity.symm.trans isPure
          dsimp only
          rw [Tree.events_evaluate_of_isPure isPure, Multiset.coe_nil, add_zero])
        leftValue fun _ _ => leftGives.rereads after
      rw [isValue fun _ => rfl, ends] at issues
      exact issues
    · next present =>
        rw [Bool.or_eq_true, not_or, Bool.not_eq_true, Bool.not_eq_true] at present
        exact CaptureNames.Issues.pure (unchanged present.1 present.2 true calls)
  · next notLifted =>
      rw [Bool.or_eq_true, not_or, Bool.not_eq_true, Bool.not_eq_true] at notLifted
      have present {tree : Source.Tree Leaf} {lowered : Lowered}
          (notNullable : tree.type.nullable = false) :
          (Operand.ofTree site.options .nothing tree lowered).mayBeNull = false := by
        rw [Operand.ofTree, notNullable, Bool.false_and, Bool.false_and]
      exact CaptureNames.Issues.pure
        (unchanged (present notLifted.1) (present notLifted.2) false calls)

end

end

/-! ## Expressions -/

/-- Whether a converted expression means what a tree says: it has a value that stands
for that of the tree, and makes its calls. -/
def Means (scene : Scene (Multiset String)) (world : World) (tree : Source.Tree Leaf)
    (collapses : Bool) (low high : Nat) (lowered : Lowered) : Prop :=
  ∃ value, Gives scene world tree collapses low high lowered value

section

variable {world : World} {names : List String} {start : CaptureNames}
variable {apart : ∀ number, start.name number ∉ names}
variable {facts : Facts} {collapses : Bool} {count low high : Nat}

/-- An operand is converted to what has its value. -/
theorem means_operand {node : NodeId} {leaf : Leaf}
    (admits : Admits world names (.operand node leaf) facts) :
    Means (sceneOf world names start apart) world (.operand node leaf) collapses count
      count (.ofLeaf leaf) := by
  have noTest := admits.untested leaf (List.mem_singleton.mpr rfl)
  have named := admits.named leaf (List.mem_singleton.mpr rfl)
  have still (calls : Multiset String) : calls = calls + Multiset.ofList [] :=
    (add_zero calls).symm
  refine ⟨_, .inl rfl, fun calls => ?_⟩
  cases leaf with
  | reference text type =>
      have isVariable : (programOf world names).read calls text =
          some (world.locals text) := if_pos (named text rfl)
      exact Scene.Denotes.plain fun known _ =>
        (Yields.reference isVariable).of_eq rfl (still calls)
  | call callee text type => exact Scene.Denotes.plain fun known _ => .call rfl
  | truth value =>
      exact Scene.Denotes.plain fun known _ =>
        (Yields.boolean value).of_eq rfl (still calls)
  | digits text =>
      exact Scene.Denotes.plain fun known _ =>
        (Yields.number text).of_eq rfl (still calls)
  | hasValue | comparedWithNothing => cases noTest

variable {node : NodeId} {inner : Source.Tree Leaf} {lowered : Lowered}

/-- Under `Not` null is not taken for false. -/
theorem means_negation
    (admits : Admits world names (.negation node inner) facts)
    (means : Means (sceneOf world names start apart) world inner false low high
      lowered) :
    Means (sceneOf world names start apart) world (.negation node inner) collapses low
      high ⟨lowered.expr.negate, lowered.notNull⟩ := by
  obtain ⟨value, isValue, restates⟩ := means
  obtain rfl := isValue.eq_of_noticed
  have isLogical := ScalarType.isLogical_of_admits
    (Tree.admits_evaluate admits.wellTyped.2 admits.fits) admits.wellTyped.1
  refine ⟨_, .inl rfl, fun calls => ⟨fun known opened =>
    ((restates calls).denotes known opened).negate isLogical, fun notNull isNull => ?_⟩⟩
  exact (restates calls).notNull notNull (Value.negate_eq_null.mp isNull)

variable {tree test whenTrue whenFalse : Source.Tree Leaf} {tested first : Nat}
variable {testLowered trueLowered falseLowered : Lowered}

/-- A plain condition has the truth of the condition as its value. -/
theorem Means.condition (wellTyped : tree.WellTyped) (fits : tree.Fits world)
    (isBoolean : tree.type.base = .boolean)
    {scene : Scene (Multiset String)}
    (means : Means scene world tree collapses low high lowered)
    (calls : Multiset String) :
    scene.Denotes low high (lowered.condition tree) calls
      (.boolean (tree.evaluate world).value.isTrue)
      (calls + Multiset.ofList (tree.evaluate world).events) := by
  obtain ⟨value, isValue, restates⟩ := means
  intro known opened
  have yields := (restates calls).denotes known opened
  rw [← isValue.isTrue_eq]
  unfold Lowered.condition
  split
  · exact yields.equalsTrue
  · next present =>
      have admitted := isValue.admits (Tree.admits_evaluate wellTyped fits)
      have notNull : value ≠ .null := by
        rw [Bool.and_eq_true, not_and, Bool.not_eq_true, Bool.not_eq_false'] at present
        intro isNull
        cases nullable : tree.type.nullable with
        | false => exact ScalarType.ne_null_of_admits admitted nullable isNull
        | true => exact (restates calls).notNull (present nullable) isNull
      rwa [← Value.eq_boolean_isTrue
        (ScalarType.isLogical_of_admits admitted isBoolean) notNull]

/-- A ternary is decided by the truth of its condition. -/
theorem means_ternary
    (admits : Admits world names (.ternary node test whenTrue whenFalse) facts)
    (testMeans : Means (sceneOf world names start apart) world test true low tested
      testLowered)
    (trueMeans : Means (sceneOf world names start apart) world whenTrue false tested
      first trueLowered)
    (falseMeans : Means (sceneOf world names start apart) world whenFalse false first
      high falseLowered)
    (aboveTested : low ≤ tested) (aboveFirst : tested ≤ first)
    (aboveHigh : first ≤ high) :
    Means (sceneOf world names start apart) world
      (.ternary node test whenTrue whenFalse) collapses low high
      ⟨.conditional (testLowered.condition test) trueLowered.expr falseLowered.expr,
        trueLowered.notNull && falseLowered.notNull⟩ := by
  obtain ⟨isBoolean, -, -, testTyped, -, -⟩ := admits.wellTyped
  have testFits := (Tree.Fits.of_append (Tree.Fits.of_append admits.fits).1).1
  obtain ⟨trueValue, trueIs, trueRestates⟩ := trueMeans
  obtain ⟨falseValue, falseIs, falseRestates⟩ := falseMeans
  obtain rfl := trueIs.eq_of_noticed
  obtain rfl := falseIs.eq_of_noticed
  refine ⟨_, .inl rfl, fun calls => ⟨fun known opened => ?_, fun notNull => ?_⟩⟩
  · have testYields := testMeans.condition testTyped testFits isBoolean calls known
      (opened.narrow (Nat.le_refl low) (aboveFirst.trans aboveHigh))
    refine (testYields.conditional
      (fun _ => (trueRestates _).denotes known (opened.narrow aboveTested aboveHigh))
      (fun _ => (falseRestates _).denotes known (opened.narrow
        (aboveTested.trans aboveFirst) (Nat.le_refl high)))).of_eq rfl ?_
    rw [Tree.evaluate, Outcome.ternary]
    dsimp only
    split <;> rw [← Multiset.coe_add, add_assoc]
  · rw [Bool.and_eq_true] at notNull
    rw [Tree.evaluate, Outcome.ternary]
    dsimp only
    split
    · exact (trueRestates 0).notNull notNull.1
    · exact (falseRestates 0).notNull notNull.2

/-- What a converted expression means is kept from the operands to the whole. -/
theorem preserved_means (options : Options) (world : World) (names : List String)
    (apart : ∀ number, start.name number ∉ names) :
    Preserved options start (Admits world names)
      (fun tree _ => Means (sceneOf world names start apart) world tree) where
  isTyped admits := admits.wellTyped.isTyped
  operand := means_operand
  inParentheses admits := admits.part admits.wellTyped (List.Subset.refl _)
  parenthesized _ means := by
    obtain ⟨value, isValue, restates⟩ := means
    exact ⟨value, isValue, restates⟩
  underNegation admits := admits.part admits.wellTyped.2 (List.Subset.refl _)
  negation := means_negation
  leftOperand admits := by
    have part := admits.part admits.wellTyped.2.2.2.1 (List.subset_append_left _ _)
    rwa [← admits.nothingKnown] at part
  rightOperand admits _ := by
    have part := admits.part admits.wellTyped.2.2.2.2 (List.subset_append_right _ _)
    have untested := (List.forall_mem_append.mp admits.untested).1
    rwa [admits.nothingKnown, right_nothing untested]
  binary site admits carried sameOptions samePurity leftMeans rightMeans above below
      bounded := by
    obtain ⟨leftValue, leftGives⟩ := leftMeans
    obtain ⟨rightValue, rightGives⟩ := rightMeans
    subst sameOptions
    refine (CaptureNames.Issues.all (by decide) fun calls =>
      lift_restates admits carried leftGives rightGives above below bounded samePurity
        calls).weaken (Nat.le_refl 2) fun next lowered _ _ restates => ?_
    exact ⟨_, isValueOf_outcome admits carried leftGives.isValue rightGives.isValue,
      restates⟩
  ternaryTest admits :=
    admits.part admits.wellTyped.2.2.2.1
      (List.Subset.trans (List.subset_append_left _ _) (List.subset_append_left _ _))
  ternaryBranch admits isBranch := by
    obtain ⟨-, -, -, -, trueTyped, falseTyped⟩ := admits.wellTyped
    rcases isBranch with rfl | rfl
    · exact admits.part trueTyped
        (List.Subset.trans (List.subset_append_right _ _) (List.subset_append_left _ _))
    · exact admits.part falseTyped (List.subset_append_right _ _)
  ternary admits testMeans trueMeans falseMeans aboveTested aboveFirst aboveHigh _ :=
    means_ternary admits testMeans trueMeans falseMeans aboveTested aboveFirst aboveHigh

end

/-! ## Conditions -/

/-- Whether a statement has a typed tree as its condition, which does not have more
levels than are converted. Nodes are numbered by 32-bit words. -/
structure HasCondition (model : Model) (arena : Arena) (statement : Slot)
    (kind : ConditionKind) (tree : Source.Tree Leaf) : Prop where
  found : arena.form? statement = some (.conditionStatement kind tree.slot)
  read : tree.ReadBy model arena
  converts : convertsTo model tree.root tree.type = true
  isBoolean : tree.type.base = .boolean
  wellTyped : tree.WellTyped
  room : tree.depth < depthLimit
  few : arena.size ≤ UInt32.size

/-- A condition without tests for null is converted. Whatever the variables and
functions are worth, the result is true where the condition is true, false where it is
false or null, and makes the calls that the condition makes. -/
theorem convertStatement_condition (setting : Setting) (session : Session)
    {statement : Slot} {kind : ConditionKind} {tree : Source.Tree Leaf} {world : World}
    {names : List String} (isNames : setting.expander = Qualification.names)
    (lowers : setting.options.lowerNullableLogic = true)
    (primitives : HoldsPrimitives setting.model.types)
    (condition : HasCondition setting.model session.arena statement kind tree)
    (untested : ∀ leaf ∈ tree.leaves, leaf.isNullTest = false)
    (named : ∀ leaf ∈ tree.leaves, ∀ name ∈ leaf.name?, name ∈ names)
    (apart : ∀ number, session.captures.name number ∉ names)
    (fits : tree.Fits world) :
    ∃ test later, convertStatement setting statement session =
        (.ok (convertHeader test kind), later) ∧
      ∃ bound, test.run (programOf world names) ⟨fun _ => none, 0⟩ =
        some (.boolean (tree.evaluate world).value.isTrue,
          ⟨bound, Multiset.ofList (tree.evaluate world).events⟩) := by
  obtain ⟨found, read, converts, isBoolean, wellTyped, room, few⟩ := condition
  have admits : Admits world names tree .nothing :=
    ⟨rfl, wellTyped, fits, untested, named⟩
  have room : tree.depth ≤ depthLimit - 1 := Nat.le_sub_one_of_lt room
  obtain ⟨lowered, later, visits, next, run, walked⟩ :=
    (preserved_means setting.options world names apart).exists_slotRun isNames lowers
      primitives admits read
      (@Stands.condition _ _ [] (.unchanged statement) _ _ read found)
      session.captures.advance_zero.symm
      ((Nat.zero_add _).trans_le
        ((read.held.length_nodes_le read.distinct).trans few)) room
  have converted : StatementRun setting statement session
      (convertHeader
        (collapseCondition setting.model later.arena tree.slot lowered) kind)
      later visits := ⟨_, found, .conditionStatement run⟩
  rw [collapseCondition_eq primitives (read.of_grows walked.grows) isBoolean converts]
    at converted
  refine ⟨_, later, (describes_convertStatement setting statement _ _ _).mpr
    ⟨visits, converted⟩, ?_⟩
  have denotes := walked.holds.condition wellTyped fits isBoolean 0
  obtain ⟨bound, -, ran⟩ := denotes (fun _ => none) (fun _ _ _ => rfl) (fun _ => none)
    (.refl _)
  rw [zero_add] at ran
  exact ⟨bound, ran⟩

/-- `If Not p OrElse f() Then`, where `p` is a local variable of type `Boolean?` and
`f` one that holds a function with a `Boolean` result. -/
def negationOrCall : Arena where
  nodes := #[
    { form := .identifier "p" }, { form := .unary .not (some ⟨0⟩) },
    { form := .identifier "f" }, { form := .invocation (some ⟨2⟩) [] },
    { form := .binary (some ⟨1⟩) .orElse (some ⟨3⟩) },
    { form := .conditionStatement .ifBlock (some ⟨4⟩) }]

/-- The condition as a tree. -/
def negationOrCallTree : Source.Tree Leaf :=
  .binary ⟨4⟩ (.negation ⟨1⟩ (.operand ⟨0⟩ (.reference "p" ⟨.boolean, true⟩))) .orElse
    (.operand ⟨3⟩ (.call ⟨2⟩ "f" ⟨.boolean, false⟩))

/-- What a front end says about it. -/
def negationOrCallModel : Model :=
  let symbols : SymbolTable := ⟨#[
    ⟨⟨0⟩, "p", .localVariable, {}, none, none, none, none⟩,
    ⟨⟨1⟩, "f", .localVariable, {}, none, none, none, none⟩]⟩
  (((((({ symbols } : Model).bindSymbol (some ⟨0⟩) ⟨0⟩).bindSymbol (some ⟨2⟩) ⟨1⟩).setType
    (some ⟨0⟩) (.unconverted .nullableBoolean)).setType
    (some ⟨1⟩) (.unconverted .nullableBoolean)).setType
    (some ⟨3⟩) ⟨some .boolean, some .nullableBoolean⟩).setType
    (some ⟨4⟩) (.unconverted .nullableBoolean)

/-- The condition comes to hold where `p` is null and `f` returns `True`. -/
theorem negationOrCall_holds :
    ∃ test later, convertStatement ⟨negationOrCallModel, {}, names⟩ (some ⟨5⟩)
        { arena := negationOrCall } = (.ok (.ifHeader test), later) ∧
      ∃ bound, test.run (programOf ⟨fun _ => .null, fun _ => .boolean true⟩ ["p", "f"])
        ⟨fun _ => none, 0⟩ = some (.boolean true, ⟨bound, {"f"}⟩) := by
  have condition : HasCondition negationOrCallModel negationOrCall (some ⟨5⟩) .ifBlock
      negationOrCallTree :=
    { found := rfl
      read := ⟨by decide +kernel, by decide, by decide +kernel⟩
      converts := by decide +kernel
      isBoolean := rfl
      wellTyped := by decide
      room := by decide
      few := by decide }
  have apart : ∀ number, CaptureNames.name {} number ∉ ["p", "f"] :=
    CaptureNames.name_notMem (by decide)
  have fits : negationOrCallTree.Fits ⟨fun _ => .null, fun _ => .boolean true⟩ := by
    unfold Tree.Fits
    decide
  have named : ∀ leaf ∈ negationOrCallTree.leaves, ∀ name ∈ leaf.name?,
      name ∈ ["p", "f"] := by
    decide
  exact convertStatement_condition ⟨negationOrCallModel, {}, Qualification.names⟩
    { arena := negationOrCall } rfl rfl holdsPrimitives_standard condition (by decide)
    named apart fits

end BasicLowering.Lowering
