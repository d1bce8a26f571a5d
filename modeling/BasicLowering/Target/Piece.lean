import BasicLowering.Target.Precedence
import BasicLowering.Target.Quoted

/-!
# Written form

An expression is written as a sequence of pieces: the tokens of the target
language, and the blanks between them. The text is the pieces side by side.

Parentheses are put around an operand exactly when it holds together less
tightly than its place asks for. Binary operators group to the left, so the
right operand has to hold together more tightly than the operator itself.
-/

namespace BasicLowering.Target

/-- A part of the written form. -/
inductive Piece where
  /-- A name, a keyword, a number or the name of a type. -/
  | word (text : String)
  /-- An operator or a punctuation mark. -/
  | mark (text : String)
  /-- A string literal with the given value. -/
  | quoted (value : String)
  | blank
  deriving DecidableEq

namespace Piece

/-- The text of a piece. -/
def text : Piece → String
  | word text | mark text => text
  | quoted value => Quoted.literal value
  | blank => " "

/-- The text of a sequence of pieces. -/
def textOf (pieces : List Piece) : String :=
  String.join (pieces.map text)

@[simp] theorem textOf_append (left right : List Piece) :
    textOf (left ++ right) = textOf left ++ textOf right := by
  simp [textOf]

def leftParen : Piece := mark "("
def rightParen : Piece := mark ")"
def leftBrace : Piece := mark "\x7b"
def rightBrace : Piece := mark "\x7d"

/-- Put parentheses around pieces where that is needed. -/
def enclose (needed : Bool) (pieces : List Piece) : List Piece :=
  if needed then leftParen :: (pieces ++ [rightParen]) else pieces

/-- A comma and a blank between each two neighbours. -/
def separated : List (List Piece) → List Piece
  | [] => []
  | [item] => item
  | item :: rest => item ++ mark "," :: blank :: separated rest

end Piece

open Piece

/-- The written form of a pattern. -/
def Pattern.pieces : Pattern → List Piece
  | anything name => [word "var", blank, word name]
  | notNull none => [leftBrace, blank, rightBrace]
  | notNull (some name) => [leftBrace, blank, rightBrace, blank, word name]
  | null => [word "null"]
  | type name => [word name]
  | not inner => word "not" :: blank :: inner.pieces

/-- Whether a blank has to keep a sign apart from its operand: `- -x` is not
`--x`. -/
def UnaryOperator.needsBlank (operator : UnaryOperator) (operand : Expr) :
    Bool :=
  match operand with
  | .unary inner _ =>
      operator == inner && (operator == .minus || operator == .plus)
  | _ => false

mutual

/-- The written form of an expression. -/
def Expr.pieces : Expr → List Piece
  | .identifier text => [word text]
  | .this => [word "this"]
  | .base => [word "base"]
  | .null => [word "null"]
  | .boolean true => [word "true"]
  | .boolean false => [word "false"]
  | .number text => [word text]
  | .string value => [quoted value]
  | .member receiver name =>
      enclose (receiver.precedence < Precedence.primary) receiver.pieces ++
        [mark ".", word name]
  | .conditionalMember receiver name =>
      enclose (receiver.precedence < Precedence.primary) receiver.pieces ++
        [mark "?.", word name]
  | .element receiver index =>
      enclose (receiver.precedence < Precedence.primary) receiver.pieces ++
        mark "[" :: (index.pieces ++ [mark "]"])
  | .call callee arguments =>
      enclose (callee.precedence < Precedence.primary) callee.pieces ++
        enclose true (separated (Expr.piecesOfEach arguments))
  | .namedArgument name value => word name :: mark ":" :: blank :: value.pieces
  | .new typeName arguments =>
      word "new" :: blank :: word typeName ::
        enclose true (separated (Expr.piecesOfEach arguments))
  | .anonymousObject [] =>
      [word "new", blank, leftBrace, blank, rightBrace]
  | .anonymousObject fields =>
      word "new" :: blank :: leftBrace :: blank ::
        (separated (Expr.piecesOfFields fields) ++ [blank, rightBrace])
  | .binary left operator right =>
      enclose (left.precedence < operator.precedence) left.pieces ++
        blank :: mark operator.spelling :: blank ::
          enclose (right.precedence < operator.precedence + 1) right.pieces
  | .unary operator operand =>
      mark operator.spelling ::
        ((if operator.needsBlank operand then [blank] else []) ++
          enclose (operand.precedence < Precedence.unary) operand.pieces)
  | .conditional condition whenTrue whenFalse =>
      enclose (condition.precedence < Precedence.conditional + 1)
          condition.pieces ++
        blank :: mark "?" :: blank ::
          (enclose (whenTrue.precedence < Precedence.conditional)
              whenTrue.pieces ++
            blank :: mark ":" :: blank ::
              enclose (whenFalse.precedence < Precedence.conditional)
                whenFalse.pieces)
  | .test operand pattern =>
      enclose (operand.precedence < Precedence.relational) operand.pieces ++
        blank :: word "is" :: blank :: pattern.pieces
  | .cast typeName operand =>
      leftParen :: word typeName :: rightParen ::
        enclose (operand.precedence < Precedence.unary) operand.pieces

/-- The written form of each expression of a list. -/
def Expr.piecesOfEach : List Expr → List (List Piece)
  | [] => []
  | value :: rest => value.pieces :: Expr.piecesOfEach rest

/-- The written form of each field of an anonymous object. -/
def Expr.piecesOfFields : List (Option String × Expr) → List (List Piece)
  | [] => []
  | (none, value) :: rest => value.pieces :: Expr.piecesOfFields rest
  | (some name, value) :: rest =>
      (word name :: blank :: mark "=" :: blank :: value.pieces) ::
        Expr.piecesOfFields rest

end

/-- The text of an expression. -/
def Expr.toText (expression : Expr) : String :=
  textOf expression.pieces

namespace Statement

/-- A keyword and a condition in parentheses. -/
def headerPieces (keyword : List Piece) (condition : Expr) : List Piece :=
  keyword ++ blank :: enclose true condition.pieces

/-- The written form of a statement header. -/
def pieces : Statement → List Piece
  | ifHeader condition => headerPieces [word "if"] condition
  | elseIfHeader condition =>
      headerPieces [word "else", blank, word "if"] condition
  | whileHeader condition => headerPieces [word "while"] condition
  | doWhileTrailer condition =>
      headerPieces [word "while"] condition ++ [mark ";"]
  | returnValue none => [word "return", mark ";"]
  | returnValue (some value) =>
      word "return" :: blank :: (value.pieces ++ [mark ";"])
  | localDeclaration name none => [word "var", blank, word name, mark ";"]
  | localDeclaration name (some initializer) =>
      word "var" :: blank :: word name :: blank :: mark "=" :: blank ::
        (initializer.pieces ++ [mark ";"])
  | assignment target value =>
      target.pieces ++
        blank :: mark "=" :: blank :: (value.pieces ++ [mark ";"])
  | expression value => value.pieces ++ [mark ";"]

/-- The text of a statement header. -/
def toText (statement : Statement) : String :=
  textOf statement.pieces

end Statement

end BasicLowering.Target
