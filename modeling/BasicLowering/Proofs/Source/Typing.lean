import BasicLowering.Proofs.Source.Sound

/-!
# Typed trees

The expressions over `Boolean`, `Integer` and the nullable types over them. An
operator on operands of which one has a nullable type is lifted: both operands
are converted to nullable types, and the result is `Boolean?`.

A tree is read by a front end when the arena holds it and the model says of each
node what the language says of it. Nodes that are added to the arena later leave
it so.
-/

namespace BasicLowering.Source

open Binding Analysis

/-! ## Types -/

/-- The types below the nullable ones. -/
inductive Scalar where
  | boolean | integer
  deriving DecidableEq

/-- The type of an expression. -/
structure ScalarType where
  base : Scalar
  nullable : Bool
  deriving DecidableEq

namespace ScalarType

/-- The entry of the type in every type table. -/
def id : ScalarType → TypeId
  | ⟨.boolean, false⟩ => .boolean
  | ⟨.integer, false⟩ => .integer
  | ⟨.boolean, true⟩ => .nullableBoolean
  | ⟨.integer, true⟩ => .nullableInteger

/-- What the entry says. -/
def kind : ScalarType → TypeKind
  | ⟨.boolean, false⟩ => .boolean
  | ⟨.integer, false⟩ => .numeric
  | ⟨.boolean, true⟩ => .nullable .boolean
  | ⟨.integer, true⟩ => .nullable .integer

end ScalarType

/-- Whether a type table holds the primitive types where they belong. -/
def HoldsPrimitives (types : TypeTable) : Prop :=
  ∀ type : ScalarType, types.kind? type.id = some type.kind

theorem holdsPrimitives_standard : HoldsPrimitives .standard := by
  rintro ⟨_ | _, _ | _⟩ <;> rfl

namespace HoldsPrimitives

variable {types : TypeTable} (primitives : HoldsPrimitives types)

include primitives

theorem isNullable_id (type : ScalarType) :
    types.isNullable type.id = type.nullable := by
  rw [TypeTable.isNullable, primitives type]
  obtain ⟨_ | _, _ | _⟩ := type <;> rfl

theorem isBoolean_id (type : ScalarType) :
    types.isBoolean type.id = (type.base == .boolean && !type.nullable) := by
  rw [TypeTable.isBoolean, primitives type]
  obtain ⟨_ | _, _ | _⟩ := type <;> rfl

theorem isBooleanOrNullable_id (type : ScalarType) :
    types.isBooleanOrNullable type.id = (type.base == .boolean) := by
  have below : types.underlying type.id = ScalarType.id ⟨type.base, false⟩ := by
    rw [TypeTable.underlying, primitives type]
    obtain ⟨_ | _, _ | _⟩ := type <;> rfl
  rw [TypeTable.isBooleanOrNullable, below, primitives.isBoolean_id]
  exact Bool.and_true _

end HoldsPrimitives

/-- An operand: a local variable, a call of a local delegate, a literal, or a
test of a local variable for null. The test `Is Nothing` may have its sides in
either order. -/
inductive Leaf where
  | reference (text : String) (type : ScalarType)
  | call (callee : NodeId) (text : String) (type : ScalarType)
  | truth (value : Bool)
  | digits (text : String)
  | hasValue (receiver member : NodeId) (text : String) (base : Scalar)
  | comparedWithNothing (left right : NodeId) (nameFirst negated : Bool)
      (text : String) (base : Scalar)

namespace Leaf

def type : Leaf → ScalarType
  | reference _ type | call _ _ type => type
  | truth _ | hasValue .. | comparedWithNothing .. => ⟨.boolean, false⟩
  | digits _ => ⟨.integer, false⟩

/-- The name that an operand reads or calls. -/
def name? : Leaf → Option String
  | reference text _ | call _ text _ | hasValue _ _ text _
  | comparedWithNothing _ _ _ _ text _ => some text
  | truth _ | digits _ => none

/-- Whether an operand is a test for null. -/
def isNullTest : Leaf → Bool
  | hasValue .. | comparedWithNothing .. => true
  | _ => false

end Leaf

/-- What a logical operator or a comparison takes. -/
def operandBase (operator : BinaryOperator) : Scalar :=
  if operator.isRelational then .integer else .boolean

/-- Whether an operator can be applied to operands of a type. -/
def takes (operator : BinaryOperator) : Scalar → Bool
  | .boolean => !operator.isOrdering
  | .integer => operator.isRelational

theorem takes_operandBase (operator : BinaryOperator) :
    takes operator (operandBase operator) = true := by
  cases operator <;> rfl

namespace Tree

/-- The type of an expression. -/
def type : Tree Leaf → ScalarType
  | operand _ leaf => leaf.type
  | parenthesized _ inner | negation _ inner => inner.type
  | binary _ left _ right =>
      ⟨.boolean, left.type.nullable || right.type.nullable⟩
  | ternary _ _ whenTrue whenFalse =>
      ⟨whenTrue.type.base, whenTrue.type.nullable || whenFalse.type.nullable⟩

/-- Whether operands have types that fit their operators. The branches of a
ternary are Boolean. -/
def WellTyped : Tree Leaf → Prop
  | operand _ _ => True
  | parenthesized _ inner => inner.WellTyped
  | negation _ inner => inner.type.base = .boolean ∧ inner.WellTyped
  | binary _ left operator right =>
      Lowering.isRestated operator = true ∧
        left.type.base = operandBase operator ∧
        right.type.base = operandBase operator ∧
        left.WellTyped ∧ right.WellTyped
  | ternary _ condition whenTrue whenFalse =>
      condition.type.base = .boolean ∧ whenTrue.type.base = .boolean ∧
        whenFalse.type.base = .boolean ∧ condition.WellTyped ∧
        whenTrue.WellTyped ∧ whenFalse.WellTyped

instance decidableWellTyped : (tree : Tree Leaf) → Decidable tree.WellTyped
  | operand _ _ => .isTrue trivial
  | parenthesized _ inner => decidableWellTyped inner
  | negation _ inner =>
      have := decidableWellTyped inner
      inferInstanceAs (Decidable (_ ∧ _))
  | binary _ left _ right =>
      have := decidableWellTyped left
      have := decidableWellTyped right
      inferInstanceAs (Decidable (_ ∧ _ ∧ _ ∧ _ ∧ _))
  | ternary _ condition whenTrue whenFalse =>
      have := decidableWellTyped condition
      have := decidableWellTyped whenTrue
      have := decidableWellTyped whenFalse
      inferInstanceAs (Decidable (_ ∧ _ ∧ _ ∧ _ ∧ _ ∧ _))

/-- Whether operators stand on operands that they can be applied to. A comparison
takes two operands of the same type, either of which may be nullable; Boolean ones
have no order. -/
def IsTyped : Tree Leaf → Prop
  | operand _ _ => True
  | parenthesized _ inner => inner.IsTyped
  | negation _ inner => inner.type.base = .boolean ∧ inner.IsTyped
  | binary _ left operator right =>
      Lowering.isRestated operator = true ∧
        left.type.base = right.type.base ∧
        takes operator left.type.base = true ∧ left.IsTyped ∧ right.IsTyped
  | ternary _ condition whenTrue whenFalse =>
      condition.type.base = .boolean ∧ whenTrue.type.base = .boolean ∧
        whenFalse.type.base = .boolean ∧ condition.IsTyped ∧
        whenTrue.IsTyped ∧ whenFalse.IsTyped

instance decidableIsTyped : (tree : Tree Leaf) → Decidable tree.IsTyped
  | operand _ _ => .isTrue trivial
  | parenthesized _ inner => decidableIsTyped inner
  | negation _ inner =>
      have := decidableIsTyped inner
      inferInstanceAs (Decidable (_ ∧ _))
  | binary _ left _ right =>
      have := decidableIsTyped left
      have := decidableIsTyped right
      inferInstanceAs (Decidable (_ ∧ _ ∧ _ ∧ _ ∧ _))
  | ternary _ condition whenTrue whenFalse =>
      have := decidableIsTyped condition
      have := decidableIsTyped whenTrue
      have := decidableIsTyped whenFalse
      inferInstanceAs (Decidable (_ ∧ _ ∧ _ ∧ _ ∧ _ ∧ _))

theorem WellTyped.isTyped {tree : Tree Leaf} (wellTyped : tree.WellTyped) :
    tree.IsTyped := by
  induction tree with
  | operand => trivial
  | parenthesized node inner ih => exact ih wellTyped
  | negation node inner ih => exact ⟨wellTyped.1, ih wellTyped.2⟩
  | binary node left operator right leftIH rightIH =>
      obtain ⟨restated, leftBase, rightBase, left, right⟩ := wellTyped
      refine ⟨restated, leftBase.trans rightBase.symm, ?_, leftIH left,
        rightIH right⟩
      rw [leftBase]
      exact takes_operandBase operator
  | ternary node condition whenTrue whenFalse testIH trueIH falseIH =>
      obtain ⟨testBase, trueBase, falseBase, test, whenTrue, whenFalse⟩ :=
        wellTyped
      exact ⟨testBase, trueBase, falseBase, testIH test, trueIH whenTrue,
        falseIH whenFalse⟩

/-- The operands of an expression from left to right. -/
def leaves : Tree Leaf → List Leaf
  | operand _ leaf => [leaf]
  | parenthesized _ inner | negation _ inner => inner.leaves
  | binary _ left _ right => left.leaves ++ right.leaves
  | ternary _ condition whenTrue whenFalse =>
      condition.leaves ++ whenTrue.leaves ++ whenFalse.leaves

/-- How many levels an expression has. The name in a call is a level of its
own. -/
def depth : Tree Leaf → Nat
  | operand _ (.call ..) | operand _ (.hasValue ..)
  | operand _ (.comparedWithNothing ..) => 2
  | operand _ _ => 1
  | parenthesized _ inner | negation _ inner => inner.depth + 1
  | binary _ left _ right => max left.depth right.depth + 1
  | ternary _ condition whenTrue whenFalse =>
      max condition.depth (max whenTrue.depth whenFalse.depth) + 1

end Tree

/-! ## What the front end says -/

/-- Whether a node is a parsed one. -/
def isParsed (arena : Arena) (node : NodeId) : Bool :=
  (arena.node? (some node)).any (·.origin == none)

/-- Whether a node refers to a local variable. -/
def isLocal (model : Model) (node : NodeId) : Bool :=
  (model.symbol? (some node)).any fun symbol =>
    symbol.kind == .localVariable && !symbol.isStatic

/-- Whether a node is a parsed name of a local variable. -/
def isLocalName (model : Model) (arena : Arena) (node : NodeId)
    (text : String) : Bool :=
  arena.form? (some node) == some (.identifier text) &&
    isParsed arena node && isLocal model node

/-- Whether an expression by itself has a type. -/
def hasType (model : Model) (node : NodeId) (type : ScalarType) : Bool :=
  (model.typeOf (some node)).own == some type.id

/-- Whether an expression is converted to a type. -/
def convertsTo (model : Model) (node : NodeId) (type : ScalarType) : Bool :=
  (model.typeOf (some node)).converted == some type.id

/-- Whether an arena holds the nodes that an operand is made of, and the front
end takes them for what they are. -/
def Leaf.readBy (model : Model) (arena : Arena) (node : NodeId) : Leaf → Bool
  | reference text _ => isLocalName model arena node text
  | call callee text _ =>
      arena.form? (some node) == some (.invocation callee []) &&
        isLocalName model arena callee text &&
        !(model.symbol? (some node)).any isVariable
  | truth value =>
      arena.form? (some node) == some (.literal (.boolean value))
  | digits text => arena.form? (some node) == some (.literal (.number text))
  | hasValue receiver member text _ =>
      arena.form? (some node) ==
          some (.memberAccess receiver member .simple) &&
        arena.form? (some member) == some (.identifier "HasValue") &&
        isLocalName model arena receiver text &&
        (model.symbol? (some node)).isNone
  | comparedWithNothing left right nameFirst negated text _ =>
      arena.form? (some node) ==
          some (.binary left (if negated then .isNot else .is) right) &&
        isLocalName model arena (if nameFirst then left else right) text &&
        arena.isNothing (some (if nameFirst then right else left)) &&
        !(model.symbol? (some node)).any isVariable

theorem form?_of_isLocalName {model : Model} {arena : Arena} {node : NodeId}
    {text : String} (isName : isLocalName model arena node text = true) :
    arena.form? (some node) = some (.identifier text) := by
  simp only [isLocalName, Bool.and_eq_true, beq_iff_eq] at isName
  exact isName.1.1

namespace Tree

/-- Whether the front end says of each node of an expression what the language
says. What an expression is converted to matters for operands and conditions
only. -/
def KnownTo (model : Model) (arena : Arena) : Tree Leaf → Prop
  | operand node leaf =>
      isParsed arena node = true ∧ hasType model node leaf.type = true ∧
        leaf.readBy model arena node = true
  | parenthesized node inner =>
      isParsed arena node = true ∧ hasType model node inner.type = true ∧
        inner.KnownTo model arena
  | negation node inner =>
      isParsed arena node = true ∧ hasType model node inner.type = true ∧
        inner.KnownTo model arena
  | binary node left operator right =>
      isParsed arena node = true ∧
        hasType model node (binary node left operator right).type = true ∧
        convertsTo model left.root
          ⟨left.type.base, left.type.nullable || right.type.nullable⟩ = true ∧
        convertsTo model right.root
          ⟨right.type.base, left.type.nullable || right.type.nullable⟩ = true ∧
        left.KnownTo model arena ∧ right.KnownTo model arena
  | ternary node condition whenTrue whenFalse =>
      isParsed arena node = true ∧
        hasType model node (ternary node condition whenTrue whenFalse).type
          = true ∧
        convertsTo model condition.root condition.type = true ∧
        condition.KnownTo model arena ∧ whenTrue.KnownTo model arena ∧
        whenFalse.KnownTo model arena

instance decidableKnownTo (model : Model) (arena : Arena) :
    (tree : Tree Leaf) → Decidable (tree.KnownTo model arena)
  | operand _ _ => inferInstanceAs (Decidable (_ ∧ _ ∧ _))
  | parenthesized _ inner | negation _ inner =>
      have := decidableKnownTo model arena inner
      inferInstanceAs (Decidable (_ ∧ _ ∧ _))
  | binary _ left _ right =>
      have := decidableKnownTo model arena left
      have := decidableKnownTo model arena right
      inferInstanceAs (Decidable (_ ∧ _ ∧ _ ∧ _ ∧ _ ∧ _))
  | ternary _ condition whenTrue whenFalse =>
      have := decidableKnownTo model arena condition
      have := decidableKnownTo model arena whenTrue
      have := decidableKnownTo model arena whenFalse
      inferInstanceAs (Decidable (_ ∧ _ ∧ _ ∧ _ ∧ _ ∧ _))

/-- Whether an arena holds an expression without repeating a node, and the front
end takes it for what it is. -/
structure ReadBy (model : Model) (arena : Arena) (tree : Tree Leaf) : Prop where
  held : tree.HeldBy model arena
  distinct : tree.nodes.Nodup
  known : tree.KnownTo model arena

variable {model : Model} {arena : Arena}

theorem KnownTo.isParsed_root {tree : Tree Leaf}
    (known : tree.KnownTo model arena) : isParsed arena tree.root = true := by
  cases tree <;> exact known.1

theorem KnownTo.hasType_root {tree : Tree Leaf}
    (known : tree.KnownTo model arena) :
    hasType model tree.root tree.type = true := by
  cases tree <;> exact known.2.1

namespace ReadBy

variable {node : NodeId} {inner left right condition whenTrue whenFalse : Tree Leaf}
variable {operator : BinaryOperator}

theorem of_parenthesized
    (read : (parenthesized node inner).ReadBy model arena) :
    inner.ReadBy model arena :=
  ⟨read.held.2, (List.nodup_cons.mp read.distinct).2, read.known.2.2⟩

theorem of_negation (read : (negation node inner).ReadBy model arena) :
    inner.ReadBy model arena :=
  ⟨read.held.2.2, (List.nodup_cons.mp read.distinct).2, read.known.2.2⟩

theorem of_binary_left
    (read : (binary node left operator right).ReadBy model arena) :
    left.ReadBy model arena :=
  ⟨read.held.2.2.1,
    (List.nodup_append.mp (List.nodup_cons.mp read.distinct).2).1,
    read.known.2.2.2.2.1⟩

theorem of_binary_right
    (read : (binary node left operator right).ReadBy model arena) :
    right.ReadBy model arena :=
  ⟨read.held.2.2.2,
    (List.nodup_append.mp (List.nodup_cons.mp read.distinct).2).2.1,
    read.known.2.2.2.2.2⟩

theorem of_ternary_test
    (read : (ternary node condition whenTrue whenFalse).ReadBy model arena) :
    condition.ReadBy model arena :=
  ⟨read.held.2.2.1,
    (List.nodup_append.mp (List.nodup_append.mp
      (List.nodup_cons.mp read.distinct).2).1).1,
    read.known.2.2.2.1⟩

theorem of_ternary_true
    (read : (ternary node condition whenTrue whenFalse).ReadBy model arena) :
    whenTrue.ReadBy model arena :=
  ⟨read.held.2.2.2.1,
    (List.nodup_append.mp (List.nodup_append.mp
      (List.nodup_cons.mp read.distinct).2).1).2.1,
    read.known.2.2.2.2.1⟩

theorem of_ternary_false
    (read : (ternary node condition whenTrue whenFalse).ReadBy model arena) :
    whenFalse.ReadBy model arena :=
  ⟨read.held.2.2.2.2,
    (List.nodup_append.mp (List.nodup_cons.mp read.distinct).2).2.1,
    read.known.2.2.2.2.2⟩

/-- The operands of an operator share no nodes. -/
theorem ne_of_binary
    (read : (binary node left operator right).ReadBy model arena)
    {inLeft inRight : NodeId} (leftMember : inLeft ∈ left.nodes)
    (rightMember : inRight ∈ right.nodes) : inLeft ≠ inRight :=
  (List.nodup_append.mp (List.nodup_cons.mp read.distinct).2).2.2 inLeft
    leftMember inRight rightMember

/-- The condition of a ternary and its branches share no nodes. -/
theorem ne_of_ternary
    (read : (ternary node condition whenTrue whenFalse).ReadBy model arena)
    {inTest inBranch : NodeId} (testMember : inTest ∈ condition.nodes)
    (branchMember : inBranch ∈ whenTrue.nodes ∨ inBranch ∈ whenFalse.nodes) :
    inTest ≠ inBranch := by
  have apart := List.nodup_append.mp (List.nodup_cons.mp read.distinct).2
  rcases branchMember with inTrue | inFalse
  · exact (List.nodup_append.mp apart.1).2.2 inTest testMember inBranch inTrue
  · exact apart.2.2 inTest (List.mem_append_left _ testMember) inBranch inFalse

theorem skipParens {tree : Tree Leaf} (read : tree.ReadBy model arena) :
    arena.skipParens tree.slot = tree.core.slot :=
  read.held.skipParens read.distinct

end ReadBy

end Tree

/-! ## Arenas that grow -/

namespace Arena

variable {arena later : Arena}

theorem Grows.isParsed (grows : arena.Grows later) {node : NodeId}
    (parsed : isParsed arena node = true) : isParsed later node = true := by
  obtain ⟨found, isNode, isOriginal⟩ := (Option.any_eq_true _ _).mp parsed
  exact (Option.any_eq_true _ _).mpr
    ⟨found, grows (some node) found isNode, isOriginal⟩

theorem Grows.isLocalName (grows : arena.Grows later) {model : Model}
    {node : NodeId} {text : String}
    (isName : isLocalName model arena node text = true) :
    isLocalName model later node text = true := by
  simp only [Source.isLocalName, Bool.and_eq_true, beq_iff_eq] at isName ⊢
  exact ⟨⟨grows.form? isName.1.1, grows.isParsed isName.1.2⟩, isName.2⟩

theorem Grows.isNothing (grows : arena.Grows later) {slot : Slot}
    (nothing : arena.isNothing slot = true) : later.isNothing slot = true := by
  unfold Arena.isNothing at nothing ⊢
  split at nothing
  · next found => rw [grows.form? found]
  · cases nothing

/-- A parsed node stands for itself. -/
theorem standsFor_of_isParsed {node : NodeId}
    (parsed : Source.isParsed arena node = true) (steps : Nat) :
    arena.standsForWithin steps (some node) = some node := by
  cases steps with
  | zero => rfl
  | succ steps =>
      obtain ⟨⟨span, trivia, origin, form⟩, isNode, isOriginal⟩ :=
        (Option.any_eq_true _ _).mp parsed
      have noOrigin : origin = none := beq_iff_eq.mp isOriginal
      subst noOrigin
      rw [standsForWithin, isNode]

/-- What a front end says of a parsed node it says in every later arena. -/
theorem bindsVariable_of_isParsed {model : Model} {node : NodeId}
    (parsed : Source.isParsed arena node = true) :
    bindsVariable model arena node =
      (model.symbol? (some node)).any isVariable := by
  rw [bindsVariable, standsFor, standsFor_of_isParsed parsed]

end Arena

variable {model : Model} {arena later : Arena}

theorem Leaf.readBy_of_grows (grows : arena.Grows later) {node : NodeId}
    {leaf : Leaf} (read : leaf.readBy model arena node = true) :
    leaf.readBy model later node = true := by
  cases leaf with
  | reference => exact grows.isLocalName read
  | truth | digits => exact beq_iff_eq.mpr (grows.form? (beq_iff_eq.mp read))
  | call =>
      simp only [readBy, Bool.and_eq_true, beq_iff_eq] at read ⊢
      exact ⟨⟨grows.form? read.1.1, grows.isLocalName read.1.2⟩, read.2⟩
  | hasValue =>
      simp only [readBy, Bool.and_eq_true, beq_iff_eq] at read ⊢
      exact ⟨⟨⟨grows.form? read.1.1.1, grows.form? read.1.1.2⟩,
        grows.isLocalName read.1.2⟩, read.2⟩
  | comparedWithNothing =>
      simp only [readBy, Bool.and_eq_true, beq_iff_eq] at read ⊢
      exact ⟨⟨⟨grows.form? read.1.1.1, grows.isLocalName read.1.1.2⟩,
        grows.isNothing read.1.2⟩, read.2⟩

namespace Tree

theorem KnownTo.of_grows (grows : arena.Grows later) {tree : Tree Leaf}
    (known : tree.KnownTo model arena) : tree.KnownTo model later := by
  induction tree with
  | operand node leaf =>
      exact ⟨grows.isParsed known.1, known.2.1,
        Leaf.readBy_of_grows grows known.2.2⟩
  | parenthesized node inner ih | negation node inner ih =>
      exact ⟨grows.isParsed known.1, known.2.1, ih known.2.2⟩
  | binary node left operator right leftIH rightIH =>
      obtain ⟨parsed, type, leftType, rightType, left, right⟩ := known
      exact ⟨grows.isParsed parsed, type, leftType, rightType, leftIH left,
        rightIH right⟩
  | ternary node condition whenTrue whenFalse testIH trueIH falseIH =>
      obtain ⟨parsed, type, testType, test, whenTrue, whenFalse⟩ := known
      exact ⟨grows.isParsed parsed, type, testType, testIH test,
        trueIH whenTrue, falseIH whenFalse⟩

theorem not_bindsVariable_of_grows (grows : arena.Grows later)
    {node : NodeId} (parsed : isParsed arena node = true)
    (noVariable : bindsVariable model arena node = false) :
    bindsVariable model later node = false := by
  rw [Arena.bindsVariable_of_isParsed (grows.isParsed parsed)]
  rwa [Arena.bindsVariable_of_isParsed parsed] at noVariable

theorem HeldBy.of_grows (grows : arena.Grows later) {tree : Tree Leaf}
    (held : tree.HeldBy model arena) (known : tree.KnownTo model arena) :
    tree.HeldBy model later := by
  induction tree with
  | operand node leaf =>
      refine ⟨grows.holds held.1, ?_⟩
      unfold Arena.isParenthesized
      rw [grows.form?_eq held.1]
      exact held.2
  | parenthesized node inner ih =>
      exact ⟨grows.form? held.1, ih held.2 known.2.2⟩
  | negation node inner ih =>
      exact ⟨grows.form? held.1,
        not_bindsVariable_of_grows grows known.1 held.2.1,
        ih held.2.2 known.2.2⟩
  | binary node left operator right leftIH rightIH =>
      exact ⟨grows.form? held.1,
        not_bindsVariable_of_grows grows known.1 held.2.1,
        leftIH held.2.2.1 known.2.2.2.2.1, rightIH held.2.2.2 known.2.2.2.2.2⟩
  | ternary node condition whenTrue whenFalse testIH trueIH falseIH =>
      exact ⟨grows.form? held.1,
        not_bindsVariable_of_grows grows known.1 held.2.1,
        testIH held.2.2.1 known.2.2.2.1, trueIH held.2.2.2.1 known.2.2.2.2.1,
        falseIH held.2.2.2.2 known.2.2.2.2.2⟩

/-- A growing arena goes on holding an expression. -/
theorem ReadBy.of_grows (grows : arena.Grows later) {tree : Tree Leaf}
    (read : tree.ReadBy model arena) : tree.ReadBy model later :=
  ⟨read.held.of_grows grows read.known, read.distinct,
    read.known.of_grows grows⟩

theorem ReadBy.standsFor_eq {tree : Tree Leaf} (read : tree.ReadBy model arena) :
    arena.standsFor tree.slot = tree.slot :=
  Arena.standsFor_of_isParsed read.known.isParsed_root _

/-- The front end knows the type of an expression. -/
theorem ReadBy.own_eq {tree : Tree Leaf} (read : tree.ReadBy model arena) :
    (model.typeOf (arena.standsFor tree.slot)).own = some tree.type.id := by
  rw [read.standsFor_eq]
  exact beq_iff_eq.mp read.known.hasType_root

/-- The front end knows what an expression is converted to. -/
theorem ReadBy.converted_eq {tree : Tree Leaf} {type : ScalarType}
    (read : tree.ReadBy model arena)
    (converts : convertsTo model tree.root type = true) :
    (model.typeOf (arena.standsFor tree.slot)).converted = some type.id := by
  rw [read.standsFor_eq]
  exact beq_iff_eq.mp converts

end Tree

end BasicLowering.Source
