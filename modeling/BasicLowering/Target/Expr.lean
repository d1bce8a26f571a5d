/-!
# C# expressions

The expressions, patterns and statement headers that a conversion produces.
Parentheses are never part of an expression: the written form puts them where
the grammar needs them, so whoever builds an expression need not think of them.
-/

namespace BasicLowering.Target

/-- A binary operator of the target language. -/
inductive BinaryOperator where
  | equal | notEqual | less | lessOrEqual | greater | greaterOrEqual
  | logicalAnd | logicalOr
  | bitAnd | bitOr | exclusiveOr
  | add | subtract | multiply | divide | modulo
  deriving DecidableEq

/-- How the operator is written. -/
def BinaryOperator.spelling : BinaryOperator → String
  | equal => "=="
  | notEqual => "!="
  | less => "<"
  | lessOrEqual => "<="
  | greater => ">"
  | greaterOrEqual => ">="
  | logicalAnd => "&&"
  | logicalOr => "||"
  | bitAnd => "&"
  | bitOr => "|"
  | exclusiveOr => "^"
  | add => "+"
  | subtract => "-"
  | multiply => "*"
  | divide => "/"
  | modulo => "%"

/-- A unary operator of the target language, written before its operand. -/
inductive UnaryOperator where
  | logicalNot | complement | minus | plus
  deriving DecidableEq

/-- How the operator is written. -/
def UnaryOperator.spelling : UnaryOperator → String
  | logicalNot => "!"
  | complement => "~"
  | minus => "-"
  | plus => "+"

/-- The right-hand side of `is`. -/
inductive Pattern where
  /-- Matches every value and binds it. -/
  | anything (name : String)
  /-- Matches every value but null, and binds it when a name is given. -/
  | notNull (name : Option String)
  | null
  | type (name : String)
  | not (inner : Pattern)
  deriving DecidableEq

/-- An expression of the target language. -/
inductive Expr where
  | identifier (text : String)
  | this
  | base
  | null
  | boolean (value : Bool)
  | number (text : String)
  | string (value : String)
  /-- `receiver.name` -/
  | member (receiver : Expr) (name : String)
  /-- `receiver?.name` -/
  | conditionalMember (receiver : Expr) (name : String)
  /-- `receiver[index]` -/
  | element (receiver index : Expr)
  | call (callee : Expr) (arguments : List Expr)
  /-- `name: value` in an argument list. -/
  | namedArgument (name : String) (value : Expr)
  | new (typeName : String) (arguments : List Expr)
  /-- An object of an anonymous type. The name of a field may be inferred from
  its value. -/
  | anonymousObject (fields : List (Option String × Expr))
  | binary (left : Expr) (operator : BinaryOperator) (right : Expr)
  | unary (operator : UnaryOperator) (operand : Expr)
  /-- `condition ? whenTrue : whenFalse` -/
  | conditional (condition whenTrue whenFalse : Expr)
  /-- `operand is pattern` -/
  | test (operand : Expr) (pattern : Pattern)
  /-- `(typeName)operand` -/
  | cast (typeName : String) (operand : Expr)

namespace Expr

/-- `left && right` -/
def and (left right : Expr) : Expr :=
  .binary left .logicalAnd right

/-- `left || right` -/
def or (left right : Expr) : Expr :=
  .binary left .logicalOr right

/-- `!operand` -/
def negate (operand : Expr) : Expr :=
  .unary .logicalNot operand

/-- `operand.HasValue` -/
def hasValue (operand : Expr) : Expr :=
  operand.member "HasValue"

/-- `!operand.HasValue` -/
def hasNoValue (operand : Expr) : Expr :=
  operand.hasValue.negate

/-- `operand.Value` -/
def getValue (operand : Expr) : Expr :=
  operand.member "Value"

/-- `operand == true` -/
def equalsTrue (operand : Expr) : Expr :=
  .binary operand .equal (.boolean true)

/-- `operand == false` -/
def equalsFalse (operand : Expr) : Expr :=
  .binary operand .equal (.boolean false)

/-- Literals, `null` included. -/
def isLiteral : Expr → Bool
  | null | boolean _ | number _ | string _ => true
  | _ => false

end Expr

/-- A statement header. Bodies are not converted. -/
inductive Statement where
  | ifHeader (condition : Expr)
  | elseIfHeader (condition : Expr)
  | whileHeader (condition : Expr)
  /-- The condition after the body of a `do` loop. -/
  | doWhileTrailer (condition : Expr)
  | returnValue (value : Option Expr)
  | localDeclaration (name : String) (initializer : Option Expr)
  | assignment (target value : Expr)
  | expression (value : Expr)

end BasicLowering.Target
