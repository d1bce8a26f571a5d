/-!
# JSON tokens

The lexical grammar of JSON, read strictly: four blank characters, lower-case
literal names, numbers without superfluous zeros, and strings without raw
control characters.

A string is kept as it is written. Its escapes are known to be well formed, but
what they stand for is not asked here, because a value that nobody looks at may
hold half of a surrogate pair.

The text is read one character at a time. `Lexer.step` states what each
character does, so reading two texts in a row is reading their concatenation.
-/

namespace BasicLowering.Json

/-- A token. Numbers and strings are held as written. -/
inductive Token where
  | leftBrace | rightBrace | leftBracket | rightBracket | colon | comma
  | null
  | boolean (value : Bool)
  | number (written : List Char)
  | string (written : List Char)
  deriving DecidableEq

/-- Space, tab, line feed and carriage return. -/
def isBlank (character : Char) : Bool :=
  character == ' ' || character == '\t' || character == '\n' ||
    character == '\r'

/-- Digits and the letters A to F in either case. -/
def isHexDigit (character : Char) : Bool :=
  character.isDigit || ('a' ≤ character && character ≤ 'f') ||
    ('A' ≤ character && character ≤ 'F')

/-- The characters that may follow a backslash, the `u` of a numeric escape
apart. -/
def isSimpleEscape (character : Char) : Bool :=
  character ∈ ['"', '\\', '/', 'b', 'f', 'n', 'r', 't']

/-- How much of a number has been read. -/
inductive NumberPhase where
  | sign | zero | integer | point | fraction | exponent | exponentSign
  | exponentDigits
  deriving DecidableEq

namespace NumberPhase

/-- Whether what has been read is a number. -/
def isComplete : NumberPhase → Bool
  | zero | integer | fraction | exponentDigits => true
  | _ => false

/-- Where one more character leads. -/
def next? (phase : NumberPhase) (character : Char) : Option NumberPhase :=
  let digit := character.isDigit
  let exponentMark := character == 'e' || character == 'E'
  match phase with
  | sign =>
      if character = '0' then some zero
      else if digit then some integer
      else none
  | zero =>
      if character = '.' then some point
      else if exponentMark then some exponent
      else none
  | integer =>
      if digit then some integer
      else if character = '.' then some point
      else if exponentMark then some exponent
      else none
  | point => if digit then some fraction else none
  | fraction =>
      if digit then some fraction
      else if exponentMark then some exponent
      else none
  | exponent =>
      if digit then some exponentDigits
      else if character = '+' || character = '-' then some exponentSign
      else none
  | exponentSign | exponentDigits => if digit then some exponentDigits else none

end NumberPhase

/-- What is being read, with the characters read so far, the last one first. -/
inductive Reading where
  | between
  | word (read : List Char)
  | number (phase : NumberPhase) (read : List Char)
  | string (read : List Char)
  /-- In a string, behind a backslash. -/
  | escape (read : List Char)
  /-- In a string, in a numeric escape that lacks some digits. -/
  | digits (missing : Nat) (read : List Char)

/-- The tokens read so far, the last one first, and what is being read. -/
structure Lexer where
  tokens : List Token := []
  reading : Reading := .between

namespace Lexer

/-- The token that a literal name stands for. -/
def wordToken? (read : List Char) : Option Token :=
  if read = ['e', 'u', 'r', 't'] then some (.boolean true)
  else if read = ['e', 's', 'l', 'a', 'f'] then some (.boolean false)
  else if read = ['l', 'l', 'u', 'n'] then some .null
  else none

/-- Read a character that does not continue a token. -/
def start (tokens : List Token) (character : Char) : Option Lexer :=
  if isBlank character then some { tokens }
  else if character = '\x7b' then some { tokens := .leftBrace :: tokens }
  else if character = '\x7d' then some { tokens := .rightBrace :: tokens }
  else if character = '[' then some { tokens := .leftBracket :: tokens }
  else if character = ']' then some { tokens := .rightBracket :: tokens }
  else if character = ':' then some { tokens := .colon :: tokens }
  else if character = ',' then some { tokens := .comma :: tokens }
  else if character = '"' then some { tokens, reading := .string [] }
  else if character = '-' then
    some { tokens, reading := .number .sign [character] }
  else if character.isLower then
    some { tokens, reading := .word [character] }
  else
    (NumberPhase.next? .sign character).map fun phase =>
      { tokens, reading := .number phase [character] }

/-- The tokens once what is being read ends here. A string does not end without
its quotation mark. -/
def finish? (lexer : Lexer) : Option (List Token) :=
  match lexer.reading with
  | .between => some lexer.tokens
  | .word read => (wordToken? read).map (· :: lexer.tokens)
  | .number phase read =>
      if phase.isComplete then some (.number read.reverse :: lexer.tokens)
      else none
  | .string _ | .escape _ | .digits _ _ => none

/-- Read one character. -/
def step (lexer : Lexer) (character : Char) : Option Lexer :=
  match lexer.reading with
  | .between => start lexer.tokens character
  | .word read =>
      if character.isLower then
        some { lexer with reading := .word (character :: read) }
      else
        lexer.finish?.bind (start · character)
  | .number phase read =>
      match phase.next? character with
      | some phase =>
          some { lexer with reading := .number phase (character :: read) }
      | none => lexer.finish?.bind (start · character)
  | .string read =>
      if character = '"' then
        some { tokens := .string read.reverse :: lexer.tokens }
      else if character = '\\' then
        some { lexer with reading := .escape (character :: read) }
      else if character < ' ' then
        none
      else
        some { lexer with reading := .string (character :: read) }
  | .escape read =>
      if character = 'u' then
        some { lexer with reading := .digits 4 (character :: read) }
      else if isSimpleEscape character then
        some { lexer with reading := .string (character :: read) }
      else
        none
  | .digits missing read =>
      if isHexDigit character then
        if missing ≤ 1 then
          some { lexer with reading := .string (character :: read) }
        else
          some { lexer with
            reading := .digits (missing - 1) (character :: read) }
      else
        none

end Lexer

/-- The tokens of a text, or nothing when it is not made of tokens. -/
def tokens? (text : List Char) : Option (List Token) := do
  let lexer ← text.foldlM Lexer.step {}
  let tokens ← lexer.finish?
  return tokens.reverse

end BasicLowering.Json
