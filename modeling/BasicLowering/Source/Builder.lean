import BasicLowering.Source.Arena

/-!
# Making parsed nodes

One function for each kind of node. Where a node has a name slot, the function
takes the name as text and adds the bare name first, so that the node follows
its name in the arena.
-/

namespace BasicLowering.Source.Building

def identifier (text : String) : Building NodeId :=
  parsed (.identifier text)

/-- `receiver.name` -/
def memberAccess (receiver : Slot) (name : String) : Building NodeId := do
  let name ← identifier name
  parsed (.memberAccess receiver name .simple)

/-- `receiver!key` -/
def dictionaryAccess (receiver : Slot) (key : String) : Building NodeId := do
  let name ← identifier key
  parsed (.memberAccess receiver name .dictionary)

/-- `receiver?.name` -/
def conditionalAccess (receiver : Slot) (name : String) : Building NodeId := do
  let name ← identifier name
  parsed (.conditionalAccess receiver name)

def binary (left : Slot) (operator : BinaryOperator) (right : Slot) :
    Building NodeId :=
  parsed (.binary left operator right)

def unary (operator : UnaryOperator) (operand : Slot) : Building NodeId :=
  parsed (.unary operator operand)

def negation (operand : Slot) : Building NodeId :=
  unary .not operand

def literal (value : Literal) : Building NodeId :=
  parsed (.literal value)

def boolean (value : Bool) : Building NodeId :=
  literal (.boolean value)

def number (text : String) : Building NodeId :=
  literal (.number text)

def nothing : Building NodeId :=
  literal .nothing

def parenthesized (inner : Slot) : Building NodeId :=
  parsed (.parenthesized inner)

def invocation (callee : Slot) (arguments : List Slot) : Building NodeId :=
  parsed (.invocation callee arguments)

/-- `name:=value` in an argument list. -/
def namedArgument (name : String) (value : Slot) : Building NodeId := do
  let name ← identifier name
  parsed (.namedArgument name value)

def objectCreation (typeName : String) (arguments : List Slot) :
    Building NodeId :=
  parsed (.objectCreation typeName arguments)

def anonymousObject (initializers : List Slot) : Building NodeId :=
  parsed (.anonymousObject initializers)

/-- `.name = value` in an anonymous object. -/
def namedField (name : String) (value : Slot) : Building NodeId := do
  let name ← identifier name
  parsed (.namedField name value)

def inferredField (value : Slot) : Building NodeId :=
  parsed (.inferredField value)

def selfReference (kind : SelfKind) : Building NodeId :=
  parsed (.selfReference kind)

def typeTest (operand : Slot) (typeName : String) (negated : Bool) :
    Building NodeId :=
  parsed (.typeTest operand typeName negated)

def ternary (condition whenTrue whenFalse : Slot) : Building NodeId :=
  parsed (.ternary condition whenTrue whenFalse)

def conditionStatement (kind : ConditionKind) (condition : Slot) :
    Building NodeId :=
  parsed (.conditionStatement kind condition)

def ifStatement (condition : Slot) : Building NodeId :=
  conditionStatement .ifBlock condition

def returnStatement (value : Slot) : Building NodeId :=
  parsed (.returnStatement value)

def localDeclaration (name : String) (initializer : Slot) : Building NodeId :=
  parsed (.localDeclaration name initializer)

def assignment (target value : Slot) : Building NodeId :=
  parsed (.assignment target value)

def expressionStatement (expression : Slot) : Building NodeId :=
  parsed (.expressionStatement expression)

end BasicLowering.Source.Building
