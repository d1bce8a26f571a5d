import BasicLowering.Source.Operator

/-!
# Source nodes

A source tree is a set of nodes that refer to each other by position. A node is
a small header (where it stands, what precedes it, which node it replaces) and
a form, which carries exactly the fields its kind needs. A slot holds the
position of a child, or nothing.

No slot is checked when a node is made: a slot may be absent, may refer to a
position that holds no node, and may lead back to the node itself.
-/

namespace BasicLowering.Source

/-- The position of a node in its arena. -/
structure NodeId where
  index : Nat
  deriving DecidableEq

/-- Nodes are ordered as they were made. -/
instance : Ord NodeId where
  compare := compareOn NodeId.index

instance : Std.TransOrd NodeId :=
  inferInstanceAs (Std.TransCmp (compareOn NodeId.index))

instance : Std.LawfulEqOrd NodeId where
  eq_of_compare sameIndex :=
    congrArg NodeId.mk (Std.LawfulEqOrd.eq_of_compare sameIndex)

/-- A reference from one node to another, absent when there is no child. -/
abbrev Slot := Option NodeId

namespace Slot

/-- The number that reports give an absent slot. -/
def absentNumber : Nat := 4294967295

/-- The number by which reports name a slot. -/
def number : Slot → Nat
  | none => absentNumber
  | some node => node.index

end Slot

/-- A half-open range of character offsets. Offsets are 32-bit words and
wrap. -/
structure Span where
  start : UInt32 := 0
  stop : UInt32 := 0
  deriving DecidableEq

/-- Whether a position lies in the range. -/
def Span.contains (span : Span) (position : UInt32) : Bool :=
  span.start ≤ position && position < span.stop

/-- A literal value. -/
inductive Literal where
  | boolean (value : Bool)
  | number (text : String)
  | text (value : String)
  | nothing
  deriving DecidableEq

/-- `Me`, `MyBase` and `MyClass`. -/
inductive SelfKind where
  | me | myBase | myClass
  deriving DecidableEq

/-- `a.b`, or `a!b`, which looks up the key `"b"` in the default indexer. -/
inductive AccessKind where
  | simple | dictionary
  deriving DecidableEq

/-- The statements that own a condition. -/
inductive ConditionKind where
  | ifBlock | elseIf | singleLineIf | whileLoop | doLoop
  deriving DecidableEq

/-- The kind of a node together with the fields of that kind. Of a statement
only the expression slots are held. -/
inductive Form where
  | identifier (text : String)
  | memberAccess (receiver name : Slot) (kind : AccessKind)
  | conditionalAccess (receiver name : Slot)
  | binary (left : Slot) (operator : BinaryOperator) (right : Slot)
  | unary (operator : UnaryOperator) (operand : Slot)
  | literal (value : Literal)
  | parenthesized (inner : Slot)
  | invocation (callee : Slot) (arguments : List Slot)
  | namedArgument (name value : Slot)
  | objectCreation (typeName : String) (arguments : List Slot)
  | anonymousObject (initializers : List Slot)
  | namedField (name value : Slot)
  | inferredField (value : Slot)
  | selfReference (kind : SelfKind)
  | typeTest (operand : Slot) (typeName : String) (negated : Bool)
  | ternary (condition whenTrue whenFalse : Slot)
  | conditionStatement (kind : ConditionKind) (condition : Slot)
  | returnStatement (value : Slot)
  | localDeclaration (name : String) (initializer : Slot)
  | assignment (target value : Slot)
  | expressionStatement (expression : Slot)
  deriving DecidableEq

namespace Form

/-- The name by which reports call the kind of a node. -/
def kindName : Form → String
  | identifier .. => "Identifier"
  | memberAccess .. => "MemberAccess"
  | conditionalAccess .. => "ConditionalAccess"
  | binary .. => "Binary"
  | unary .. => "Unary"
  | literal .. => "Literal"
  | parenthesized .. => "Parenthesized"
  | invocation .. => "Invocation"
  | namedArgument .. => "NamedArgument"
  | objectCreation .. => "ObjectCreation"
  | anonymousObject .. => "AnonymousObjectCreation"
  | namedField .. => "NamedFieldInitializer"
  | inferredField .. => "InferredFieldInitializer"
  | selfReference .. => "Instance"
  | typeTest .. => "TypeOfIs"
  | ternary .. => "Ternary"
  | conditionStatement .. => "Condition"
  | returnStatement .. => "Return"
  | localDeclaration .. => "LocalDeclaration"
  | assignment .. => "Assignment"
  | expressionStatement .. => "ExpressionStatement"

/-- Statements. -/
def isStatement : Form → Bool
  | conditionStatement .. | returnStatement .. | localDeclaration ..
  | assignment .. | expressionStatement .. => true
  | _ => false

/-- Wrappers that stand only in an argument or initializer list. -/
def isListItem : Form → Bool
  | namedArgument .. | namedField .. | inferredField .. => true
  | _ => false

/-- Nodes that produce a value. Argument and initializer wrappers do not. -/
def isExpression (form : Form) : Bool :=
  !form.isStatement && !form.isListItem

/-- A bare name. -/
def isSimpleName : Form → Bool
  | identifier .. => true
  | _ => false

/-- Every slot of a node in source order, absent ones included. -/
def slots : Form → List Slot
  | identifier _ | literal _ | selfReference _ => []
  | memberAccess receiver name _ | conditionalAccess receiver name =>
      [receiver, name]
  | binary left _ right => [left, right]
  | unary _ operand | typeTest operand _ _ => [operand]
  | parenthesized inner => [inner]
  | invocation callee arguments => callee :: arguments
  | namedArgument name value | namedField name value => [name, value]
  | objectCreation _ arguments => arguments
  | anonymousObject initializers => initializers
  | inferredField value | returnStatement value => [value]
  | ternary condition whenTrue whenFalse => [condition, whenTrue, whenFalse]
  | conditionStatement _ condition => [condition]
  | localDeclaration _ initializer => [initializer]
  | assignment target value => [target, value]
  | expressionStatement expression => [expression]

/-- The children of a node in source order. -/
def children (form : Form) : List NodeId :=
  form.slots.filterMap id

end Form

/-- A node: its range, the blanks and comments before it, the node it replaces
(absent for a parsed node) and its form. -/
structure Node where
  span : Span := {}
  trivia : String := ""
  origin : Slot := none
  form : Form
  deriving DecidableEq

end BasicLowering.Source
