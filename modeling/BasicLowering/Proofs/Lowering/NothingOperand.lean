import BasicLowering.Proofs.Lowering.FixedOperands
import BasicLowering.Proofs.Source.Reading

/-!
# An operand that is `Nothing`

The literal `Nothing` has no type of its own, and is therefore taken for an operand
that is not null although it is converted to `null`.
-/

namespace BasicLowering.Lowering

open Source Binding Analysis Semantics
open Target (Expr Environment Knowledge Acts Yields)

/-! ## Values and dead ends -/

section

variable {State : Type} {environment : Environment State}
variable {known later : Knowledge} {before middle after : State}
variable {first second third : Expr} {value : Value}

/-- Whether an evaluation fails wherever the program is in a state and names have
the known values. -/
def Stuck (environment : Environment State) (known : Knowledge) (before : State)
    (expr : Expr) : Prop :=
  ∀ bindings, known.Within bindings →
    expr.run environment ⟨bindings, before⟩ = none

/-- Null is no operand of `&&`. -/
theorem stuck_null_and : Stuck environment known before (Expr.null.and second) := by
  intro bindings _
  simp [Expr.and, Target.BinaryOperator.isArithmetic,
    Target.BinaryOperator.decides, Target.BinaryOperator.result?]

/-- Null is no operand of `||`. -/
theorem stuck_null_or : Stuck environment known before (Expr.null.or second) := by
  intro bindings _
  simp [Expr.or, Target.BinaryOperator.isArithmetic,
    Target.BinaryOperator.decides, Target.BinaryOperator.result?]

/-- Null is no condition. -/
theorem stuck_null_conditional :
    Stuck environment known before (.conditional .null second third) := by
  intro bindings _
  simp

/-- Null cannot stand behind `&&` either, unless it is left out. -/
theorem stuck_and_null
    (yields : Yields environment known before first value after later)
    (undecided : (value == .boolean false) = false) :
    Stuck environment known before (first.and .null) := by
  intro bindings satisfied
  obtain ⟨bound, -, ran⟩ := yields bindings satisfied
  cases value <;> simp_all [Expr.and, Target.BinaryOperator.isArithmetic,
    Target.BinaryOperator.decides, Target.BinaryOperator.result?]

/-- Null cannot stand behind `||` either, unless it is left out. -/
theorem stuck_or_null
    (yields : Yields environment known before first value after later)
    (undecided : value.isTrue = false) :
    Stuck environment known before (first.or .null) := by
  rw [Value.isTrue] at undecided
  intro bindings satisfied
  obtain ⟨bound, -, ran⟩ := yields bindings satisfied
  cases value <;> simp_all [Expr.or, Target.BinaryOperator.isArithmetic,
    Target.BinaryOperator.decides, Target.BinaryOperator.result?]

/-- A conditional of which the first branch is not taken and the other fails. -/
theorem stuck_conditional
    (yields : Yields environment known before first (.boolean false) after later)
    (stuck : Stuck environment later after third) :
    Stuck environment known before (.conditional first second third) := by
  intro bindings satisfied
  obtain ⟨bound, holds, ran⟩ := yields bindings satisfied
  simp [ran, stuck bound holds]

end

/-- Whether an expression that makes some calls has the expected value if a
condition is met, and otherwise another one or none. -/
structure ComesTo {Call : Type} (environment : Environment (List Call))
    (known : Knowledge) (calls : List Call) (expected : Value) (expr : Expr)
    (condition : Bool) : Prop where
  met : condition = true → ∀ made,
    Yields environment known made expr expected (made ++ calls) known
  notMet : condition = false → ∀ made,
    Stuck environment known made expr ∨
      ∃ other, other ≠ expected ∧
        Yields environment known made expr other (made ++ calls) known

section

variable {Call : Type} {environment : Environment (List Call)}
variable {known : Knowledge} {calls : List Call} {expected value : Value}
variable {expr : Expr}

/-- The condition is met exactly if the expression has the expected value. -/
theorem ComesTo.agrees_iff {condition : Bool}
    (comes : ComesTo environment known calls expected expr condition) :
    (∀ bindings made, known.Within bindings →
      ∃ bound, expr.run environment ⟨bindings, made⟩ =
        some (expected, ⟨bound, made ++ calls⟩)) ↔ condition = true := by
  constructor
  · intro agrees
    obtain ⟨bound, ran⟩ := agrees known [] (.refl known)
    by_contra notMet
    obtain stuck | ⟨other, different, yields⟩ :=
      comes.notMet (Bool.eq_false_of_not_eq_true notMet) []
    · cases ran.symm.trans (stuck known (.refl known))
    · obtain ⟨_, -, otherRan⟩ := yields known (.refl known)
      cases ran.symm.trans otherRan
      exact different rfl
  · intro met bindings made within
    obtain ⟨bound, -, ran⟩ := comes.met met made bindings within
    exact ⟨bound, ran⟩

theorem comesTo_stuck (stuck : ∀ made, Stuck environment known made expr) :
    ComesTo environment known calls expected expr false where
  met := nofun
  notMet _ made := .inl (stuck made)

theorem comesTo_expected
    (yields : ∀ made,
      Yields environment known made expr expected (made ++ calls) known) :
    ComesTo environment known calls expected expr true where
  met _ := yields
  notMet := nofun

theorem comesTo_value
    (yields : ∀ made,
      Yields environment known made expr value (made ++ calls) known) :
    ComesTo environment known calls expected expr (value == expected) where
  met same made := (yields made).of_eq (beq_iff_eq.mp same) rfl
  notMet different made :=
    .inr ⟨value, beq_eq_false_iff_ne.mp different, yields made⟩

end

/-! ## Templates -/

/-- What is known about the literal. -/
structure Site.TakesForNothing (site : Site) (operand : Operand) : Prop where
  expr : operand.expr = .null
  notNull : operand.mayBeNull = false
  reusable : operand.isReusable = true
  pure : site.isPure operand = true

section

variable {Call : Type} {environment : Environment (List Call)}
variable {known : Knowledge} {site : Site} {nothing other : Operand}
variable {value : Value} {calls : List Call} {names : CaptureNames}
variable {operator : BinaryOperator} {collapse : Bool}

/-! ### `Nothing` on the left -/

section

variable (isNothing : site.TakesForNothing nothing) {unchanged : Expr}
variable {expected : Value}

include isNothing

theorem andAlso_nothingFirst :
    ComesTo environment known calls expected
      (site.restate collapse .andAlso unchanged nothing other names).1.expr
      false := by
  apply comesTo_stuck
  intro made
  cases collapse with
  | true =>
      simp only [Site.restate, Site.collapsedConjunction, isNothing.notNull]
      rw [isNothing.expr]
      exact stuck_null_and
  | false =>
      simp only [Site.restate, Site.conjunction, isNothing.notNull]
      rw [isNothing.expr]
      exact stuck_null_conditional

theorem orElse_nothingFirst :
    ComesTo environment known calls expected
      (site.restate collapse .orElse unchanged nothing other names).1.expr
      false := by
  apply comesTo_stuck
  intro made
  cases collapse with
  | true =>
      simp only [Site.restate, collapsedDisjunction, isNothing.notNull]
      rw [isNothing.expr]
      exact stuck_null_or
  | false =>
      simp only [Site.restate, Site.disjunction, isNothing.notNull]
      rw [isNothing.expr]
      exact stuck_null_conditional

/-- The eager operators take null, but not the short-circuiting ones in their
place. -/
theorem eager_nothingFirst (eager : operator.isEager = true)
    (yields : ∀ made, Yields environment known made unchanged
      (combine operator .null value) (made ++ calls) known) :
    ComesTo environment known calls (outcomeOf collapse operator .null value)
      (site.restate collapse operator unchanged nothing other names).1.expr
      (!collapse || !site.isPure other) := by
  cases collapse with
  | false =>
      cases operator with
      | and | or => exact comesTo_expected yields
      | _ => cases eager
  | true =>
      cases isPure : site.isPure other with
      | false =>
          have collapsed (made : List Call) := (yields made).equalsTrue
          cases operator with
          | and | or =>
              simp only [Site.restate, isPure]
              exact comesTo_expected collapsed
          | _ => cases eager
      | true =>
          apply comesTo_stuck
          intro made
          cases operator with
          | and =>
              simp only [Site.restate, isPure, Site.collapsedConjunction,
                isNothing.notNull]
              rw [isNothing.expr]
              exact stuck_null_and
          | or =>
              simp only [Site.restate, isPure, collapsedDisjunction,
                isNothing.notNull]
              rw [isNothing.expr]
              exact stuck_null_or
          | _ => cases eager

end

/-! ### Captures -/

section

variable {captured : String} {expr furtherTest : Expr} {before after : List Call}
variable {truth : Bool}
variable (unread : ∀ made, environment.read made captured = none)
variable (unknown : known captured = none)
variable (yields : Yields environment known before expr value after known)

include unread unknown yields

/-- A captured operand that is tested at once. -/
theorem testCaptured_yields
    (further : ∀ more : Knowledge,
      Yields environment more after (.identifier captured) value after more →
      Yields environment more after furtherTest (.boolean truth) after more) :
    ∃ later, known.Within later ∧
      Yields environment known before
        ((Expr.test expr (.anything captured)).and furtherTest) (.boolean truth)
        after later := by
  have reads : Yields environment
      (Function.update known captured (some value)) after (.identifier captured)
      value after _ :=
    .identifier (Function.update_self _ _ _) (unread after)
  exact ⟨_, Knowledge.within_update unknown value,
    .binary rfl rfl (.test_anything captured yields) (further _ reads)⟩

end

/-! ### `Nothing` on the right -/

section

variable (isNothing : site.TakesForNothing nothing)
variable (mayBeNull : other.mayBeNull = true) (isLogical : value.isLogical = true)
variable (yields : ∀ made, Yields environment known made other.expr value
  (made ++ calls) known)

include isNothing mayBeNull yields

/-- `other == true && null` -/
theorem collapsedConjunction_nothingSecond :
    ComesTo environment known calls (.boolean (value.conj .null).isTrue)
      (site.collapsedConjunction other nothing names).1.expr
      (value != .boolean true) := by
  have compared (made : List Call) := (yields made).equalsTrue
  have template : (site.collapsedConjunction other nothing names).1.expr =
      other.expr.equalsTrue.and .null := by
    simp only [Site.collapsedConjunction, mayBeNull, isNothing.pure,
      Operand.collapsed, isNothing.notNull, isNothing.expr]
    rfl
  rw [template, Value.isTrue_conj, Value.isTrue_null, Bool.and_false]
  cases isTrue : value.isTrue with
  | true =>
      rw [beq_iff_eq.mp isTrue] at compared ⊢
      exact comesTo_stuck fun made => stuck_and_null (compared made) rfl
  | false =>
      rw [isTrue] at compared
      have notTrue : (value != .boolean true) = true := by
        rw [bne, ← Value.isTrue, isTrue]
        rfl
      rw [notTrue]
      exact comesTo_expected fun made => .decided rfl (compared made)

/-- `other == true || null` -/
theorem collapsedDisjunction_nothingSecond :
    ComesTo environment known calls (.boolean (value.disj .null).isTrue)
      (collapsedDisjunction other nothing names).1.expr value.isTrue := by
  have compared (made : List Call) := (yields made).equalsTrue
  have template : (collapsedDisjunction other nothing names).1.expr =
      other.expr.equalsTrue.or .null := by
    simp only [collapsedDisjunction, mayBeNull, Operand.collapsed,
      isNothing.notNull, isNothing.expr]
    rfl
  rw [template, Value.isTrue_disj, Value.isTrue_null, Bool.or_false]
  cases isTrue : value.isTrue with
  | true =>
      rw [isTrue] at compared
      exact comesTo_expected fun made => .decided rfl (compared made)
  | false =>
      rw [isTrue] at compared
      exact comesTo_stuck fun made => stuck_or_null (compared made) rfl

variable (unread : ∀ made, environment.read made (names.nth 1) = none)
variable (unknown : known (names.nth 1) = none)

include unread unknown

/-- `other == false ? false : null ? ‥ : ‥` -/
theorem conjunction_nothingSecond :
    ComesTo environment known calls (value.conj .null)
      (site.conjunction other nothing names).1.expr
      (value == .boolean false) := by
  have template : (site.conjunction other nothing names).1.expr =
      .conditional (captureForFalseTest other names).1.test site.nullableFalse
        (.conditional .null (captureForFalseTest other names).1.value
          site.nullableFalse) := by
    simp only [Site.conjunction, mayBeNull, isNothing.notNull, isNothing.expr]
    rfl
  have tests (made : List Call) : ∃ later, known.Within later ∧
      Yields environment known made (captureForFalseTest other names).1.test
        (.boolean (value == .boolean false)) (made ++ calls) later := by
    unfold captureForFalseTest
    split
    · exact ⟨known, .refl known, (yields made).equalsFalse⟩
    · exact testCaptured_yields unread unknown (yields made)
        fun _ reads => reads.equalsFalse
  rw [template]
  cases isFalse : value == .boolean false with
  | true =>
      rw [isFalse] at tests
      rw [beq_iff_eq.mp isFalse]
      apply comesTo_expected
      intro made
      obtain ⟨later, within, test⟩ := tests made
      exact (test.conditional_of_true
        (Scene.nullableFalse_yields site later _)).forget within
  | false =>
      rw [isFalse] at tests
      apply comesTo_stuck
      intro made
      obtain ⟨later, -, test⟩ := tests made
      exact stuck_conditional test stuck_null_conditional

/-- `other is var n && n == true ? true : null ? ‥ : ‥` -/
theorem disjunction_nothingSecond :
    ComesTo environment known calls (value.disj .null)
      (site.disjunction other nothing names).1.expr value.isTrue := by
  have template : (site.disjunction other nothing names).1.expr =
      .conditional ((Expr.test other.expr (.anything (names.nth 1))).and
          (Expr.identifier (names.nth 1)).equalsTrue) site.nullableTrue
        (.conditional .null site.nullableTrue (.identifier (names.nth 1))) := by
    simp only [Site.disjunction, mayBeNull, isNothing.notNull, isNothing.expr]
    rfl
  have tests (made : List Call) := testCaptured_yields unread unknown
    (yields made) fun _ reads => reads.equalsTrue
  rw [template]
  cases isTrue : value.isTrue with
  | true =>
      rw [isTrue] at tests
      rw [beq_iff_eq.mp isTrue]
      apply comesTo_expected
      intro made
      obtain ⟨later, within, test⟩ := tests made
      exact (test.conditional_of_true
        (Scene.nullableTrue_yields site later _)).forget within
  | false =>
      rw [isTrue] at tests
      apply comesTo_stuck
      intro made
      obtain ⟨later, -, test⟩ := tests made
      exact stuck_conditional test stuck_null_conditional

end

/-! ### Comparisons -/

/-- A comparison of the literal with something. -/
def comparedWithNothing (nothingFirst : Bool) (operator : BinaryOperator)
    (expr : Expr) : Expr :=
  if nothingFirst then .binary .null (convertOperator operator) expr
  else .binary expr (convertOperator operator) .null

/-- The test that an operand next to `Nothing` has a value. -/
def guardBesideNothing (other : Operand) : Naming Capture :=
  if other.isReusable then return ⟨other.expr.hasValue, other.expr⟩
  else captureValue other.expr

/-- The comparison of a value with null. -/
def equalsNull (operator : BinaryOperator) (value : Value) : Bool :=
  match operator with
  | .equals => value == .null
  | .notEquals => value != .null
  | _ => false

theorem guardOperand_besideNothing (mayBeNull : other.mayBeNull = true) :
    guardOperand other = do
      let captured ← guardBesideNothing other
      return ([⟨!other.isReusable, captured.test⟩], captured.value) := by
  unfold guardOperand guardBesideNothing
  cases reusable : other.isReusable <;> simp [mayBeNull]

@[simp] theorem orderGuards_singleton (guard : Guard) :
    orderGuards [guard] = [guard.test] := by
  cases isMandatory : guard.isMandatory <;> simp [orderGuards, isMandatory]

section

variable (isNothing : site.TakesForNothing nothing)
variable (mayBeNull : other.mayBeNull = true)

include isNothing

theorem guardOperand_nothing : guardOperand nothing = return ([], .null) := by
  rw [guardOperand_of_reusable isNothing.reusable, optionalTests,
    isNothing.notNull, isNothing.expr]
  rfl

include mayBeNull

theorem guardOperands_nothingFirst :
    guardOperands nothing other = do
      let captured ← guardBesideNothing other
      return ([⟨!other.isReusable, captured.test⟩], .null, captured.value) := by
  unfold guardOperands
  simp [isNothing.reusable, guardOperand_nothing isNothing,
    guardOperand_besideNothing mayBeNull]

theorem guardOperands_nothingSecond :
    guardOperands other nothing = do
      let captured ← guardBesideNothing other
      return ([⟨!other.isReusable, captured.test⟩], captured.value, .null) := by
  unfold guardOperands
  simp [isNothing.reusable, guardOperand_nothing isNothing,
    guardOperand_besideNothing mayBeNull]

theorem comparison_nothing (nothingFirst : Bool) :
    (site.comparison collapse operator
      (comparedWithNothing nothingFirst operator other.expr)
      (if nothingFirst then nothing else other)
      (if nothingFirst then other else nothing) names).1.expr =
    if collapse && (operator.isOrdering || operator == .equals) then
      comparedWithNothing nothingFirst operator other.expr
    else if collapse then
      (guardBesideNothing other names).1.test.and
        (comparedWithNothing nothingFirst operator
          (guardBesideNothing other names).1.value)
    else
      .conditional (guardBesideNothing other names).1.test
        (comparedWithNothing nothingFirst operator
          (guardBesideNothing other names).1.value)
        site.nullableNull := by
  have agrees : agreesWhenCollapsed operator
      (if nothingFirst then nothing else other)
      (if nothingFirst then other else nothing) =
      (operator.isOrdering || operator == .equals) := by
    cases nothingFirst <;> simp [agreesWhenCollapsed, isNothing.notNull]
  have keepsAll : lastTestIsSuperfluous collapse operator
      (if nothingFirst then nothing else other)
      (if nothingFirst then other else nothing) = false := by
    cases nothingFirst <;> simp [lastTestIsSuperfluous, isNothing.notNull]
  unfold Site.comparison
  rw [agrees, keepsAll]
  split
  · rfl
  · cases nothingFirst with
    | true =>
        simp only [comparedWithNothing, if_true,
          guardOperands_nothingFirst isNothing mayBeNull]
        simp only [naming_bind, naming_pure, orderGuards_singleton, joinTests?]
        cases collapse <;> rfl
    | false =>
        simp only [comparedWithNothing, if_false, Bool.false_eq_true,
          guardOperands_nothingSecond isNothing mayBeNull]
        simp only [naming_bind, naming_pure, orderGuards_singleton, joinTests?]
        cases collapse <;> rfl

end

/-- What a comparison with null is where null counts as false, and elsewhere. -/
def missing (collapse : Bool) : Value :=
  if collapse then .boolean false else .null

theorem missing_eq (collapse : Bool) (relational : operator.isRelational = true)
    {left right : Value} (oneMissing : left = .null ∨ right = .null) :
    outcomeOf collapse operator left right = missing collapse := by
  rw [outcomeOf, combine_of_missing relational oneMissing]
  rfl

/-- A comparison with null in the target language. -/
theorem result?_null (relational : operator.isRelational = true)
    (comparable : Comparable operator .null value) :
    (convertOperator operator).result? .null value =
        some (.boolean (equalsNull operator value)) ∧
      (convertOperator operator).result? value .null =
        some (.boolean (equalsNull operator value)) := by
  cases operator with
  | equals =>
      exact ⟨congrArg (some ∘ Value.boolean) (Value.null_beq value), rfl⟩
  | notEquals =>
      exact ⟨congrArg (some ∘ Value.boolean) (Value.null_bne value), rfl⟩
  | lessThan | lessThanOrEqual | greaterThan | greaterThanOrEqual =>
      have numeric : value.isNumeric = true := by
        obtain ⟨-, numeric⟩ | ⟨isEquality | isEquality, -⟩ := comparable
        · exact numeric
        all_goals cases isEquality
      obtain rfl | ⟨number, rfl⟩ := Value.null_or_integer numeric <;>
        exact ⟨rfl, rfl⟩
  | _ => cases relational

theorem comparedWithNothing_yields {before after : List Call} {later : Knowledge}
    {expr : Expr} (nothingFirst : Bool) (relational : operator.isRelational = true)
    (comparable : Comparable operator .null value)
    (yields : Yields environment known before expr value after later) :
    Yields environment known before
      (comparedWithNothing nothingFirst operator expr)
      (.boolean (equalsNull operator value)) after later := by
  have results := result?_null relational comparable
  cases nothingFirst with
  | true =>
      exact .binary (decides_of_isRelational relational .null) results.1 .null
        yields
  | false =>
      exact .binary (decides_of_isRelational relational value) results.2 yields
        .null

/-- A comparison with null that is not guarded. -/
theorem unguarded_nothing {expr : Expr} (nothingFirst : Bool)
    (relational : operator.isRelational = true)
    (comparable : Comparable operator .null value)
    (yields : ∀ made,
      Yields environment known made expr value (made ++ calls) known) :
    ComesTo environment known calls (missing collapse)
      (comparedWithNothing nothingFirst operator expr)
      (collapse && !equalsNull operator value) := by
  have comes : ComesTo environment known calls (missing collapse) _ _ :=
    comesTo_value fun made =>
      comparedWithNothing_yields nothingFirst relational comparable (yields made)
  cases collapse with
  | true =>
      rw [missing, if_pos rfl, Value.boolean_beq_false] at comes
      exact comes
  | false => exact comes

section

variable (relational : operator.isRelational = true)
variable (comparable : Comparable operator .null value)
variable (yields : ∀ made, Yields environment known made other.expr value
  (made ++ calls) known)

include relational comparable yields

variable (silent : other.isReusable = true → calls = [])
variable (unread : ∀ made, environment.read made (names.nth 1) = none)
variable (unknown : known (names.nth 1) = none)

include silent unread unknown

omit relational comparable in
/-- The guard of the operand, and the operand once it has passed. -/
theorem guardBesideNothing_yields (made : List Call) :
    ∃ later, known.Within later ∧
      Yields environment known made (guardBesideNothing other names).1.test
        (.boolean (value != .null)) (made ++ calls) later ∧
      (value ≠ .null →
        Yields environment later (made ++ calls)
          (guardBesideNothing other names).1.value value (made ++ calls)
          later) := by
  unfold guardBesideNothing
  split
  · next reusable =>
      have again := yields (made ++ calls)
      rw [silent reusable, List.append_nil, List.append_nil] at again
      refine ⟨known, .refl known, (yields made).hasValue, fun _ => ?_⟩
      rw [silent reusable, List.append_nil]
      exact again
  · by_cases isNull : value = .null
    · subst isNull
      exact ⟨known, .refl known, .test_notNull_null _ (yields made),
        absurd rfl⟩
    · rw [bne_iff_ne.mpr isNull]
      exact ⟨_, Knowledge.within_update unknown value,
        .test_notNull _ isNull (yields made), fun _ =>
          .identifier (Function.update_self _ _ _) (unread _)⟩

/-- A comparison with null that is guarded. -/
theorem guarded_nothing (nothingFirst : Bool)
    (disagrees : collapse = true → operator = .notEquals) :
    ComesTo environment known calls (missing collapse)
      (if collapse then
        (guardBesideNothing other names).1.test.and
          (comparedWithNothing nothingFirst operator
            (guardBesideNothing other names).1.value)
      else
        .conditional (guardBesideNothing other names).1.test
          (comparedWithNothing nothingFirst operator
            (guardBesideNothing other names).1.value)
          site.nullableNull)
      (value == .null) := by
  have guards := guardBesideNothing_yields yields silent unread unknown
  by_cases isNull : value = .null
  · subst isNull
    apply comesTo_expected
    intro made
    obtain ⟨later, within, test, -⟩ := guards made
    cases collapse with
    | true => exact Yields.forget (.decided rfl test) within
    | false =>
        exact (test.conditional_of_false
          (Scene.nullableNull_yields site later _)).forget within
  · rw [beq_eq_false_iff_ne.mpr isNull]
    refine ⟨nofun, fun _ made => .inr ?_⟩
    obtain ⟨later, within, test, again⟩ := guards made
    have compared := comparedWithNothing_yields nothingFirst relational
      comparable (again isNull)
    rw [bne_iff_ne.mpr isNull] at test
    cases collapse with
    | true =>
        obtain rfl := disagrees rfl
        rw [equalsNull, bne_iff_ne.mpr isNull] at compared
        exact ⟨.boolean true, nofun,
          Yields.forget (.binary rfl rfl test compared) within⟩
    | false =>
        exact ⟨.boolean (equalsNull operator value), nofun,
          (test.conditional_of_true compared).forget within⟩

end

/-! ## Every operator -/

/-- The value of an operator of which one operand is null. -/
def outcomeBesideNothing (collapse : Bool) (operator : BinaryOperator)
    (nothingFirst : Bool) (value : Value) : Value :=
  if nothingFirst then outcomeOf collapse operator .null value
  else outcomeOf collapse operator value .null

/-- Whether an operator beside `Nothing` keeps its meaning, where the other operand
has a value, and may be null or pure as far as is known. -/
def keepsBesideNothing (collapse : Bool) (operator : BinaryOperator)
    (nothingFirst mayBeNull isPure : Bool) (value : Value) : Bool :=
  match operator with
  | .andAlso =>
      !nothingFirst &&
        if mayBeNull && collapse then value != .boolean true
        else value == .boolean false
  | .orElse => !nothingFirst && value.isTrue
  | .and =>
      !collapse ||
        if mayBeNull then
          if nothingFirst then !isPure else value != .boolean true
        else value == .boolean false
  | .or =>
      !collapse ||
        if mayBeNull && nothingFirst then !isPure else value.isTrue
  | .equals => if collapse then value != .null else mayBeNull && value == .null
  | .notEquals => (collapse || mayBeNull) && value == .null
  | _ => collapse || mayBeNull && value == .null

theorem outcomeBesideNothing_relational
    (relational : operator.isRelational = true) {nothingFirst : Bool} :
    outcomeBesideNothing collapse operator nothingFirst value =
      missing collapse := by
  cases nothingFirst with
  | true => exact missing_eq collapse relational (.inl rfl)
  | false => exact missing_eq collapse relational (.inr rfl)

/-- A comparison that is not guarded differs where null is taken for a value. -/
theorem keeps_unguarded (relational : operator.isRelational = true)
    {nothingFirst isPure : Bool} :
    keepsBesideNothing collapse operator nothingFirst false isPure value =
      (collapse && !equalsNull operator value) := by
  cases operator with
  | equals => cases collapse <;> rfl
  | notEquals => cases collapse <;> simp [keepsBesideNothing, equalsNull, bne]
  | lessThan | lessThanOrEqual | greaterThan | greaterThanOrEqual =>
      cases collapse <;> rfl
  | _ => cases relational

/-- Whether a comparison is left as it is where null counts as false. -/
abbrev isLeftAlone (collapse : Bool) (operator : BinaryOperator) : Bool :=
  collapse && (operator.isOrdering || operator == .equals)

theorem keeps_agreeing (relational : operator.isRelational = true)
    (alone : isLeftAlone collapse operator = true) {nothingFirst isPure : Bool} :
    keepsBesideNothing collapse operator nothingFirst true isPure value =
      (collapse && !equalsNull operator value) := by
  obtain ⟨rfl, agrees⟩ := Bool.and_eq_true_iff.mp alone
  cases operator with
  | equals | lessThan | lessThanOrEqual | greaterThan | greaterThanOrEqual => rfl
  | notEquals => cases agrees
  | _ => cases relational

theorem keeps_guarded (relational : operator.isRelational = true)
    (guarded : ¬ isLeftAlone collapse operator = true)
    {nothingFirst isPure : Bool} :
    keepsBesideNothing collapse operator nothingFirst true isPure value =
      (value == .null) := by
  cases collapse with
  | true =>
      cases operator with
      | notEquals => rfl
      | equals | lessThan | lessThanOrEqual | greaterThan | greaterThanOrEqual =>
          exact absurd rfl guarded
      | _ => cases relational
  | false => cases operator <;> first | rfl | cases relational

theorem eq_notEquals (relational : operator.isRelational = true)
    (guarded : ¬ isLeftAlone collapse operator = true)
    (collapses : collapse = true) : operator = .notEquals := by
  subst collapses
  cases operator with
  | notEquals => rfl
  | equals | lessThan | lessThanOrEqual | greaterThan | greaterThanOrEqual =>
      exact absurd rfl guarded
  | _ => cases relational

/-- The eager operators take null. -/
theorem eagerBesideNothing_yields {before after : List Call} {later : Knowledge}
    {expr : Expr} (nothingFirst : Bool) (eager : operator.isEager = true)
    (isLogical : value.isLogical = true)
    (yields : Yields environment known before expr value after later) :
    Yields environment known before
      (comparedWithNothing nothingFirst operator expr)
      (outcomeBesideNothing false operator nothingFirst value) after later := by
  obtain rfl | ⟨truth, rfl⟩ := Value.null_or_boolean isLogical
  all_goals
    cases operator with
    | and | or =>
        cases nothingFirst with
        | true => exact .binary rfl rfl .null yields
        | false => exact .binary rfl rfl yields .null
    | _ => cases eager

/-- The plain operator, where nothing is restated. -/
theorem unchanged_nothing {expr : Expr} (nothingFirst isPure : Bool)
    (isRestated : isRestated operator = true) (fit : Fit operator .null value)
    (yields : ∀ made,
      Yields environment known made expr value (made ++ calls) known) :
    ComesTo environment known calls
      (outcomeBesideNothing collapse operator nothingFirst value)
      (comparedWithNothing nothingFirst operator expr)
      (keepsBesideNothing collapse operator nothingFirst false isPure value) := by
  cases operator with
  | andAlso =>
      cases nothingFirst with
      | true => exact comesTo_stuck fun _ => stuck_null_and
      | false =>
          cases isFalse : value == .boolean false with
          | true =>
              obtain rfl := beq_iff_eq.mp isFalse
              cases collapse <;>
                exact comesTo_expected fun made => .decided rfl (yields made)
          | false =>
              simp only [keepsBesideNothing, isFalse]
              exact comesTo_stuck fun made => stuck_and_null (yields made) isFalse
  | orElse =>
      cases nothingFirst with
      | true => exact comesTo_stuck fun _ => stuck_null_or
      | false =>
          cases isTrue : value.isTrue with
          | true =>
              obtain rfl := beq_iff_eq.mp isTrue
              cases collapse <;>
                exact comesTo_expected fun made => .decided rfl (yields made)
          | false =>
              simp only [keepsBesideNothing, isTrue]
              exact comesTo_stuck fun made => stuck_or_null (yields made) isTrue
  | and | or =>
      have isLogical := fit.2 rfl
      have plain {eager : BinaryOperator} (isEager : eager.isEager = true)
          (made : List Call) :=
        eagerBesideNothing_yields nothingFirst isEager isLogical (yields made)
      cases collapse with
      | false => exact comesTo_expected (plain rfl)
      | true =>
          have comes {eager : BinaryOperator} (isEager : eager.isEager = true) :
              ComesTo environment known calls
                (outcomeBesideNothing true eager nothingFirst value) _ _ :=
            comesTo_value (plain isEager)
          obtain rfl | ⟨truth, rfl⟩ := Value.null_or_boolean isLogical
          · cases nothingFirst <;> exact comes rfl
          · cases truth <;> cases nothingFirst <;> exact comes rfl
  | equals | notEquals | lessThan | lessThanOrEqual | greaterThan
  | greaterThanOrEqual =>
      rw [outcomeBesideNothing_relational rfl, keeps_unguarded rfl]
      exact unguarded_nothing nothingFirst rfl fit yields
  | _ => cases isRestated

/-- What is known about an operator that has to be restated beside `Nothing`. -/
theorem restate_nothing (isNothing : site.TakesForNothing nothing)
    (mayBeNull : other.mayBeNull = true)
    (yields : ∀ made, Yields environment known made other.expr value
      (made ++ calls) known)
    (silent : other.isReusable = true → calls = [])
    (unread : ∀ made, environment.read made (names.nth 1) = none)
    (unknown : known (names.nth 1) = none)
    (nothingFirst : Bool) (isRestated : isRestated operator = true)
    (fit : Fit operator .null value) :
    ComesTo environment known calls
      (outcomeBesideNothing collapse operator nothingFirst value)
      (site.restate collapse operator
        (comparedWithNothing nothingFirst operator other.expr)
        (if nothingFirst then nothing else other)
        (if nothingFirst then other else nothing) names).1.expr
      (keepsBesideNothing collapse operator nothingFirst true
        (site.isPure other) value) := by
  cases operator with
  | andAlso =>
      cases nothingFirst with
      | true => exact andAlso_nothingFirst isNothing
      | false =>
          cases collapse with
          | true =>
              exact collapsedConjunction_nothingSecond isNothing mayBeNull yields
          | false =>
              exact conjunction_nothingSecond isNothing mayBeNull yields unread
                unknown
  | orElse =>
      cases nothingFirst with
      | true => exact orElse_nothingFirst isNothing
      | false =>
          cases collapse with
          | true =>
              exact collapsedDisjunction_nothingSecond isNothing mayBeNull yields
          | false =>
              exact disjunction_nothingSecond isNothing mayBeNull yields unread
                unknown
  | and =>
      have eager : BinaryOperator.and.isEager = true := rfl
      have plain (made : List Call) :=
        eagerBesideNothing_yields nothingFirst eager (fit.2 rfl) (yields made)
      cases nothingFirst with
      | true => exact eager_nothingFirst isNothing rfl plain
      | false =>
          cases collapse with
          | true =>
              simp only [Site.restate, Bool.false_eq_true, if_false,
                isNothing.pure]
              exact collapsedConjunction_nothingSecond isNothing mayBeNull yields
          | false => exact comesTo_expected plain
  | or =>
      have eager : BinaryOperator.or.isEager = true := rfl
      have plain (made : List Call) :=
        eagerBesideNothing_yields nothingFirst eager (fit.2 rfl) (yields made)
      cases nothingFirst with
      | true => exact eager_nothingFirst isNothing rfl plain
      | false =>
          cases collapse with
          | true =>
              simp only [Site.restate, Bool.false_eq_true, if_false,
                isNothing.pure]
              exact collapsedDisjunction_nothingSecond isNothing mayBeNull yields
          | false => exact comesTo_expected plain
  | equals | notEquals | lessThan | lessThanOrEqual | greaterThan
  | greaterThanOrEqual =>
      rw [outcomeBesideNothing_relational rfl, restate_of_isRelational rfl,
        comparison_nothing isNothing mayBeNull]
      split
      · next agrees =>
          rw [keeps_agreeing rfl agrees]
          exact unguarded_nothing nothingFirst rfl fit yields
      · next disagrees =>
          rw [keeps_guarded rfl disagrees]
          exact guarded_nothing rfl fit yields silent unread unknown nothingFirst
            (eq_notEquals rfl disagrees)
  | _ => cases isRestated

end

/-! ## The operand itself -/

/-- The literal `Nothing`, which has no type of its own. -/
def nothingOperand {Call : Type} (slot : Slot) (converted : Option TypeId) :
    FixedOperand Call where
  slot := slot
  type := ⟨none, converted⟩
  lowered := .plain .null
  value := .null
  calls := []

/-- The left operand of an operator that stands beside `Nothing`. -/
def leftBeside {Thing : Type} (nothingFirst : Bool) (nothing other : Thing) :
    Thing :=
  if nothingFirst then nothing else other

/-- The right operand of an operator that stands beside `Nothing`. -/
def rightBeside {Thing : Type} (nothingFirst : Bool) (nothing other : Thing) :
    Thing :=
  if nothingFirst then other else nothing

/-- Whether an operator stands between `Nothing` and an operand of a fixed value,
both of which are converted to nullable types. The operand may be of any type and
have any value; one that may be evaluated again makes no calls. -/
structure Site.Beside {Call : Type} (site : Site) (parent : Step)
    (names : CaptureNames) (environment : Environment (List Call))
    (outer : Knowledge) (operator : BinaryOperator) (nothingFirst : Bool)
    (nothing : Slot) (converted : Option TypeId) (other : FixedOperand Call) :
    Prop where
  found : site.arena.binary? parent.effective =
    some (leftBeside nothingFirst nothing other.slot, operator,
      rightBeside nothingFirst nothing other.slot)
  literal : site.arena.isNothing (site.arena.skipParens nothing) = true
  nothingNullable : convertsToNullable site.model ⟨none, converted⟩ = true
  otherNullable : convertsToNullable site.model other.type = true
  acts : Acts environment outer other.lowered.expr other.does
  silent : isSafelyReusable site.model site.arena other.slot = true →
    other.calls = []
  unknown : outer (names.nth 1) = none
  unread : ∀ made, environment.read made (names.nth 1) = none

section

variable {Call : Type} {site : Site} {path : Path} {parent : Step}
variable {names : CaptureNames} {environment : Environment (List Call)}
variable {outer : Knowledge} {operator : BinaryOperator} {nothingFirst : Bool}
variable {nothing : Slot} {converted : Option TypeId}
variable {other : FixedOperand Call}

/-- The literal may be evaluated again and left out. -/
theorem takesForNothing
    (literal : site.arena.isNothing (site.arena.skipParens nothing) = true) :
    site.TakesForNothing
      (site.known path parent
        (nothingOperand nothing converted : FixedOperand Call)) := by
  have bare : site.arena.isParenthesized (site.arena.skipParens nothing) =
      false := by
    unfold Arena.isNothing at literal
    unfold Arena.isParenthesized
    split at literal
    · next isLiteral => rw [isLiteral]
    · cases literal
  have skipped : site.arena.skipParens (site.arena.skipParens nothing) =
      site.arena.skipParens nothing :=
    Arena.skipParensWithin_of_not_parenthesized bare _
  have isLiteral : isLiteral site.arena (site.arena.skipParens nothing) = true := by
    unfold Arena.isNothing at literal
    unfold Analysis.isLiteral
    split at literal
    · next isLiteral => rw [isLiteral]
    · cases literal
  have reusable : isSafelyReusable site.model site.arena nothing = true := by
    simp [isSafelyReusable, isLiteral]
  have pure : Analysis.isPure site.model site.arena nothing = true := by
    unfold Analysis.isPure isPureWithin
    simp [isSafelyReusable, skipped, isLiteral]
  exact ⟨rfl, rfl, reusable, pure⟩

/-- The operator is restated if the other operand may be null. -/
theorem Site.Beside.restated_eq
    (beside : site.Beside parent names environment outer operator nothingFirst
      nothing converted other)
    (isRestated : isRestated operator = true) :
    (site.restated path parent operator
        (leftBeside nothingFirst (nothingOperand nothing converted) other)
        (rightBeside nothingFirst (nothingOperand nothing converted) other)
        names).1.expr =
      if (site.known path parent other).mayBeNull then
        (site.restate (site.collapses path parent) operator
          (comparedWithNothing nothingFirst operator other.lowered.expr)
          (leftBeside nothingFirst
            (site.known path parent (nothingOperand nothing converted :
              FixedOperand Call)) (site.known path parent other))
          (rightBeside nothingFirst
            (site.known path parent (nothingOperand nothing converted :
              FixedOperand Call)) (site.known path parent other))
          names).1.expr
      else comparedWithNothing nothingFirst operator other.lowered.expr := by
  have isNothing : site.TakesForNothing
      (site.known path parent
        (nothingOperand nothing converted : FixedOperand Call)) :=
    takesForNothing beside.literal
  cases nothingFirst with
  | true =>
      have restated : site.restated path parent operator
          (nothingOperand nothing converted) other = _ :=
        Site.restated_eq beside.found beside.nothingNullable
          beside.otherNullable isRestated
      rw [isNothing.notNull, Bool.false_or] at restated
      simp only [leftBeside, rightBeside, if_true, restated]
      split <;> rfl
  | false =>
      have restated : site.restated path parent operator other
          (nothingOperand nothing converted) = _ :=
        Site.restated_eq beside.found beside.otherNullable
          beside.nothingNullable isRestated
      rw [isNothing.notNull, Bool.or_false] at restated
      simp only [leftBeside, rightBeside, Bool.false_eq_true, if_false, restated]
      split <;> rfl

/-- An operator beside `Nothing` comes to the operator applied to null, and makes the
calls of the other operand once, exactly where `keepsBesideNothing` says so. The literal
has no type of its own, so that it is not known to be null. -/
theorem restated_besideNothing_iff
    (beside : site.Beside parent names environment outer operator nothingFirst
      nothing converted other)
    (isRestated : isRestated operator = true)
    (fit : Fit operator .null other.value) :
    (∀ bindings made, outer.Within bindings →
      ∃ bound, (site.restated path parent operator
          (leftBeside nothingFirst (nothingOperand nothing converted) other)
          (rightBeside nothingFirst (nothingOperand nothing converted) other)
          names).1.expr.run environment ⟨bindings, made⟩ =
        some (outcomeOf (site.collapses path parent) operator
            (leftBeside nothingFirst .null other.value)
            (rightBeside nothingFirst .null other.value),
          ⟨bound, made ++ other.calls⟩)) ↔
      keepsBesideNothing (site.collapses path parent) operator nothingFirst
        (site.known path parent other).mayBeNull
        (Analysis.isPure site.model site.arena other.slot) other.value = true := by
  have yields := beside.acts.yields
  have isNothing : site.TakesForNothing
      (site.known path parent
        (nothingOperand nothing converted : FixedOperand Call)) :=
    takesForNothing beside.literal
  have outcome : outcomeOf (site.collapses path parent) operator
      (leftBeside nothingFirst .null other.value)
      (rightBeside nothingFirst .null other.value) =
        outcomeBesideNothing (site.collapses path parent) operator nothingFirst
          other.value := by
    cases nothingFirst <;> rfl
  rw [outcome]
  apply ComesTo.agrees_iff
  rw [beside.restated_eq isRestated]
  cases mayBeNull : (site.known path parent other).mayBeNull with
  | true =>
      exact restate_nothing isNothing mayBeNull yields beside.silent
        beside.unread beside.unknown nothingFirst isRestated fit
  | false =>
      exact unchanged_nothing nothingFirst _ isRestated fit yields

end

/-! ## A condition -/

/-- `If x = Nothing Then`, of a local `x` of type `Integer?`. -/
def nothingSite : Site where
  model :=
    { ({} : Model).bindSymbol (some ⟨0⟩) ⟨0⟩ with
      symbols := ⟨#[⟨⟨0⟩, "x", .localVariable, {}, none, none, none, none⟩]⟩ }
  options := {}
  arena :=
    { nodes := #[
        { form := .identifier "x" },
        { form := .literal .nothing },
        { form := .binary (some ⟨0⟩) .equals (some ⟨1⟩) },
        { form := .conditionStatement .ifBlock (some ⟨2⟩) }] }

/-- The local variable. -/
def localX (value : Value) : FixedOperand String where
  slot := some ⟨0⟩
  type := .unconverted .nullableInteger
  lowered := .plain (.identifier "x")
  value := value
  calls := []

/-- A program in which `x` has a value. -/
def readingX (value : Value) : Environment (List String) where
  read _ name := if name = "x" then some value else none
  perform _ _ := none

/-- What the restated condition comes to. -/
def comparedNothing (value : Value) : Option (Value × List String) :=
  ((nothingSite.restated [.unchanged (some ⟨3⟩)] (.unchanged (some ⟨2⟩)) .equals
    (localX value) (nothingOperand (some ⟨1⟩) (some .nullableInteger)) {}).1.expr.run
      (readingX value) ⟨fun _ => none, []⟩).map fun (value, store) =>
        (value, store.state)

/-- `If x = Nothing Then` is not taken where `x` is five. -/
theorem comparedNothing_five :
    ∃ bound, (nothingSite.restated [.unchanged (some ⟨3⟩)]
        (.unchanged (some ⟨2⟩)) .equals (localX (.integer 5))
        (nothingOperand (some ⟨1⟩) (some .nullableInteger)) {}).1.expr.run
          (readingX (.integer 5)) ⟨fun _ => none, []⟩ =
      some (.boolean false, ⟨bound, []⟩) := by
  have other : ({} : CaptureNames).nth 1 ≠ "x" := by decide +kernel
  have beside : nothingSite.Beside (.unchanged (some ⟨2⟩)) {}
      (readingX (.integer 5)) (fun _ => none) .equals false (some ⟨1⟩)
      (some .nullableInteger) (localX (.integer 5)) :=
    { found := rfl
      literal := rfl
      nothingNullable := by decide +kernel
      otherNullable := by decide +kernel
      acts :=
        { runs := fun bindings made _ => ⟨bindings, by
            simp [localX, Lowered.plain, readingX, FixedOperand.does, calling]⟩
          keeps := fun _ _ => rfl }
      silent := fun _ => rfl
      unknown := rfl
      unread := fun _ => by simp [readingX, other] }
  refine (restated_besideNothing_iff beside rfl (.inl ⟨rfl, rfl⟩)).mpr
    (by decide +kernel) (fun _ => none) [] ?_
  intro name value known
  cases known

/-- `If x = Nothing Then` is taken where `x` is null, although the comparison is
null then. -/
theorem comparedNothing_taken :
    nothingSite.collapses [.unchanged (some ⟨3⟩)] (.unchanged (some ⟨2⟩)) = true ∧
      combine .equals .null .null = .null ∧
      comparedNothing .null = some (.boolean true, []) := by
  decide +kernel

end BasicLowering.Lowering
