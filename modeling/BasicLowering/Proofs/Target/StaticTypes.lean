import BasicLowering.Proofs.Source.Typing
import BasicLowering.Target.Expr

/-!
# Static types of target expressions

The rules by which the target language types logical operators, comparisons and
patterns over `bool`, `int` and the nullable types over them. The names that
patterns bind are variables like any other: `is var n` gives `n` the type of its
operand, and `is { } n` the type below it. Whatever these rules do not type has no
type here.
-/

namespace BasicLowering.Source.ScalarType

/-- The type `bool`. -/
abbrev bool : ScalarType := ⟨.boolean, false⟩

/-- The type below a nullable type. -/
def underlying (type : ScalarType) : ScalarType :=
  { type with nullable := false }

/-- Whether a value of one type may be given to a variable of another. -/
def ConvertsTo (type other : ScalarType) : Prop :=
  type.base = other.base ∧ (type.nullable = true → other.nullable = true)

end BasicLowering.Source.ScalarType

namespace BasicLowering.Target

open Source (ScalarType)

/-- The types of variables, and of what functions without parameters return. -/
structure Declarations where
  ofVariable : String → Option ScalarType
  ofFunction : String → Option ScalarType

/-- Whether further variables may be declared. -/
structure Declarations.Within (less more : Declarations) : Prop where
  ofVariable : ∀ name type, less.ofVariable name = some type →
    more.ofVariable name = some type
  ofFunction : more.ofFunction = less.ofFunction

/-- The type of an operator on operands of two types. A short-circuiting operator
takes `bool` only, an ordering takes numbers. -/
def BinaryOperator.type? (operator : BinaryOperator) (left right : ScalarType) :
    Option ScalarType :=
  match operator with
  | .logicalAnd | .logicalOr =>
      if left = .bool ∧ right = .bool then some .bool else none
  | .bitAnd | .bitOr =>
      if left.base = right.base then
        some ⟨left.base, left.nullable || right.nullable⟩
      else none
  | .equal | .notEqual => if left.base = right.base then some .bool else none
  | .less | .lessOrEqual | .greater | .greaterOrEqual =>
      if left.base = .integer ∧ right.base = .integer then some .bool else none
  | _ => none

/-- Whether a pattern may be asked of a value of a type, and gives the names that it
binds the types that they have. -/
def Pattern.Fits (types : Declarations) (type : ScalarType) : Pattern → Prop
  | .anything name => types.ofVariable name = some type
  | .notNull (some name) => types.ofVariable name = some type.underlying
  | .notNull none => True
  | .null => type.nullable = true
  | .type _ => False
  | .not inner => inner.Fits types type

instance Pattern.decidableFits (types : Declarations) (type : ScalarType) :
    (pattern : Pattern) → Decidable (pattern.Fits types type)
  | .anything _ => inferInstanceAs (Decidable (_ = _))
  | .notNull (some _) => inferInstanceAs (Decidable (_ = _))
  | .notNull none => .isTrue trivial
  | .null => inferInstanceAs (Decidable (_ = _))
  | .type _ => .isFalse id
  | .not inner => decidableFits types type inner

namespace Expr

/-- The type of an expression, if it has one. -/
def type? (types : Declarations) : Expr → Option ScalarType
  | identifier text => types.ofVariable text
  | boolean _ => some .bool
  | number _ => some ⟨.integer, false⟩
  | call (identifier text) [] => types.ofFunction text
  | member receiver name => do
      let type ← receiver.type? types
      if type.nullable = false then none
      else if name = "HasValue" then some .bool
      else if name = "Value" then some type.underlying
      else none
  | binary left operator right => do
      let leftType ← left.type? types
      let rightType ← right.type? types
      operator.type? leftType rightType
  | unary .logicalNot operand => do
      let type ← operand.type? types
      if type.base = .boolean then some type else none
  | conditional condition whenTrue whenFalse => do
      let tested ← condition.type? types
      let trueType ← whenTrue.type? types
      let falseType ← whenFalse.type? types
      if tested = .bool ∧ trueType.base = falseType.base then
        some ⟨trueType.base, trueType.nullable || falseType.nullable⟩
      else none
  | test operand pattern => do
      let type ← operand.type? types
      if pattern.Fits types type then some .bool else none
  | cast "bool?" null => some ⟨.boolean, true⟩
  | cast "bool?" operand => do
      let type ← operand.type? types
      if type.base = .boolean then some ⟨.boolean, true⟩ else none
  | _ => none

/-! The type of a form from the types of its parts. -/

section

variable (types : Declarations) (operand left right condition : Expr)
variable (whenTrue whenFalse : Expr)

theorem type?_member (name : String) :
    (operand.member name).type? types = (do
      let type ← operand.type? types
      if type.nullable = false then none
      else if name = "HasValue" then some .bool
      else if name = "Value" then some type.underlying
      else none) :=
  rfl

theorem type?_binary (operator : BinaryOperator) :
    (binary left operator right).type? types = (do
      let leftType ← left.type? types
      let rightType ← right.type? types
      operator.type? leftType rightType) :=
  rfl

theorem type?_negate :
    operand.negate.type? types = (do
      let type ← operand.type? types
      if type.base = .boolean then some type else none) :=
  rfl

theorem type?_conditional :
    (conditional condition whenTrue whenFalse).type? types = (do
      let tested ← condition.type? types
      let trueType ← whenTrue.type? types
      let falseType ← whenFalse.type? types
      if tested = .bool ∧ trueType.base = falseType.base then
        some ⟨trueType.base, trueType.nullable || falseType.nullable⟩
      else none) :=
  rfl

theorem type?_test (pattern : Pattern) :
    (test operand pattern).type? types = (do
      let type ← operand.type? types
      if pattern.Fits types type then some .bool else none) :=
  rfl

end

/-- Whether an expression has a type. -/
def HasType (types : Declarations) (expr : Expr) (type : ScalarType) : Prop :=
  expr.type? types = some type

namespace HasType

variable {types : Declarations} {operand left right condition : Expr}
variable {whenTrue whenFalse : Expr} {type leftType rightType : ScalarType}

theorem boolean (value : Bool) : (Expr.boolean value).HasType types .bool :=
  rfl

theorem binary {operator : BinaryOperator} {result : ScalarType}
    (leftTyped : left.HasType types leftType)
    (rightTyped : right.HasType types rightType)
    (isResult : operator.type? leftType rightType = some result) :
    (Expr.binary left operator right).HasType types result := by
  unfold HasType at *
  rw [type?_binary, leftTyped, rightTyped]
  exact isResult

theorem and (leftTyped : left.HasType types .bool)
    (rightTyped : right.HasType types .bool) :
    (left.and right).HasType types .bool :=
  leftTyped.binary rightTyped rfl

theorem or (leftTyped : left.HasType types .bool)
    (rightTyped : right.HasType types .bool) :
    (left.or right).HasType types .bool :=
  leftTyped.binary rightTyped rfl

theorem equalsTrue (typed : operand.HasType types type)
    (isBoolean : type.base = .boolean) :
    operand.equalsTrue.HasType types .bool :=
  typed.binary (.boolean true) (if_pos isBoolean)

theorem equalsFalse (typed : operand.HasType types type)
    (isBoolean : type.base = .boolean) :
    operand.equalsFalse.HasType types .bool :=
  typed.binary (.boolean false) (if_pos isBoolean)

theorem negate (typed : operand.HasType types type)
    (isBoolean : type.base = .boolean) : operand.negate.HasType types type := by
  unfold HasType at *
  rw [type?_negate, typed]
  exact if_pos isBoolean

theorem hasValue (typed : operand.HasType types type)
    (nullable : type.nullable = true) : operand.hasValue.HasType types .bool := by
  unfold HasType at *
  simp [Expr.hasValue, type?_member, typed, nullable]

theorem hasNoValue (typed : operand.HasType types type)
    (nullable : type.nullable = true) :
    operand.hasNoValue.HasType types .bool :=
  (typed.hasValue nullable).negate rfl

theorem getValue (typed : operand.HasType types type)
    (nullable : type.nullable = true) :
    operand.getValue.HasType types type.underlying := by
  unfold HasType at *
  simp [Expr.getValue, type?_member, typed, nullable]

theorem conditional (tested : condition.HasType types .bool)
    (trueTyped : whenTrue.HasType types leftType)
    (falseTyped : whenFalse.HasType types rightType)
    (sameBase : leftType.base = rightType.base) :
    (Expr.conditional condition whenTrue whenFalse).HasType types
      ⟨leftType.base, leftType.nullable || rightType.nullable⟩ := by
  unfold HasType at *
  simp [type?_conditional, tested, trueTyped, falseTyped, sameBase]

theorem test {pattern : Pattern} (typed : operand.HasType types type)
    (fits : pattern.Fits types type) :
    (Expr.test operand pattern).HasType types .bool := by
  unfold HasType at *
  simp [type?_test, typed, fits]

end HasType

/-- Whether an expression has some type. -/
def IsTyped (types : Declarations) (expr : Expr) : Prop :=
  ∃ type, expr.HasType types type

theorem HasType.isTyped {types : Declarations} {expr : Expr} {type : ScalarType}
    (typed : expr.HasType types type) : expr.IsTyped types :=
  ⟨type, typed⟩

theorem HasType.unique {types : Declarations} {expr : Expr}
    {type other : ScalarType} (typed : expr.HasType types type)
    (typedToo : expr.HasType types other) : type = other :=
  Option.some.inj (typed.symm.trans typedToo)

/-! ## What the parts of a typed expression have for types -/

namespace IsTyped

variable {types : Declarations} {operand left right condition : Expr}
variable {whenTrue whenFalse : Expr} {operator : BinaryOperator}

theorem exists_binary (typed : (Expr.binary left operator right).IsTyped types) :
    ∃ leftType rightType, left.HasType types leftType ∧
      right.HasType types rightType ∧
      (operator.type? leftType rightType).isSome = true := by
  obtain ⟨type, typed⟩ := typed
  simp only [HasType, type?_binary, Option.bind_eq_bind,
    Option.bind_eq_some_iff] at typed
  obtain ⟨leftType, leftTyped, rightType, rightTyped, isType⟩ := typed
  exact ⟨leftType, rightType, leftTyped, rightTyped, Option.isSome_of_eq_some isType⟩

theorem of_binary (typed : (Expr.binary left operator right).IsTyped types) :
    left.IsTyped types ∧ right.IsTyped types := by
  obtain ⟨leftType, rightType, leftTyped, rightTyped, -⟩ := typed.exists_binary
  exact ⟨⟨leftType, leftTyped⟩, ⟨rightType, rightTyped⟩⟩

/-- Both operands of a short-circuiting operator are of type `bool`. -/
theorem of_logical (isLogical : operator = .logicalAnd ∨ operator = .logicalOr)
    (typed : (Expr.binary left operator right).IsTyped types) :
    left.HasType types .bool ∧ right.HasType types .bool := by
  obtain ⟨leftType, rightType, leftTyped, rightTyped, isSome⟩ := typed.exists_binary
  have both : leftType = .bool ∧ rightType = .bool := by
    rcases isLogical with rfl | rfl <;>
      simpa [BinaryOperator.type?] using isSome
  exact ⟨both.1 ▸ leftTyped, both.2 ▸ rightTyped⟩

theorem of_and (typed : (left.and right).IsTyped types) :
    left.HasType types .bool ∧ right.HasType types .bool :=
  of_logical (.inl rfl) typed

theorem of_or (typed : (left.or right).IsTyped types) :
    left.HasType types .bool ∧ right.HasType types .bool :=
  of_logical (.inr rfl) typed

theorem of_equals {truth : Bool}
    (typed : (Expr.binary operand .equal (.boolean truth)).IsTyped types) :
    operand.IsTyped types :=
  typed.of_binary.1

theorem of_member {name : String} (typed : (operand.member name).IsTyped types) :
    operand.IsTyped types := by
  obtain ⟨type, typed⟩ := typed
  simp only [HasType, type?_member, Option.bind_eq_bind,
    Option.bind_eq_some_iff] at typed
  obtain ⟨type, operandTyped, -⟩ := typed
  exact ⟨type, operandTyped⟩

theorem of_negate (typed : operand.negate.IsTyped types) :
    operand.IsTyped types := by
  obtain ⟨type, typed⟩ := typed
  simp only [HasType, type?_negate, Option.bind_eq_bind,
    Option.bind_eq_some_iff] at typed
  obtain ⟨type, operandTyped, -⟩ := typed
  exact ⟨type, operandTyped⟩

theorem of_test {pattern : Pattern} (typed : (Expr.test operand pattern).IsTyped types) :
    operand.IsTyped types := by
  obtain ⟨type, typed⟩ := typed
  simp only [HasType, type?_test, Option.bind_eq_bind,
    Option.bind_eq_some_iff] at typed
  obtain ⟨type, operandTyped, -⟩ := typed
  exact ⟨type, operandTyped⟩

/-- The condition of a conditional is of type `bool`. -/
theorem of_conditional
    (typed : (Expr.conditional condition whenTrue whenFalse).IsTyped types) :
    condition.HasType types .bool ∧ whenTrue.IsTyped types ∧
      whenFalse.IsTyped types := by
  obtain ⟨type, typed⟩ := typed
  simp only [HasType, type?_conditional, Option.bind_eq_bind, Option.bind_eq_some_iff,
    Option.ite_none_right_eq_some] at typed
  obtain ⟨tested, test, trueType, trueTyped, falseType, falseTyped, ⟨rfl, -⟩, -⟩ :=
    typed
  exact ⟨test, ⟨trueType, trueTyped⟩, ⟨falseType, falseTyped⟩⟩

end IsTyped

end Expr

/-- Whether a statement may be written: a condition is a `bool`, and what is assigned
may be given to the variable. -/
def Statement.WellTyped (types : Declarations) : Statement → Prop
  | .ifHeader condition | .elseIfHeader condition | .whileHeader condition
  | .doWhileTrailer condition => condition.HasType types .bool
  | .returnValue value | .localDeclaration _ value =>
      ∀ expr ∈ value, expr.IsTyped types
  | .assignment target value => ∃ targetType valueType,
      target.HasType types targetType ∧ value.HasType types valueType ∧
        valueType.ConvertsTo targetType
  | .expression value => value.IsTyped types

end BasicLowering.Target
