/-!
# Quoted text

The written form of a string literal. A quotation mark, a backslash, a line
feed, a carriage return and a tab are written as escapes, all other characters
as themselves.
-/

namespace BasicLowering.Target.Quoted

/-- The characters that stand for one character of the value. -/
def escape : Char → List Char
  | '"' => ['\\', '"']
  | '\\' => ['\\', '\\']
  | '\n' => ['\\', 'n']
  | '\r' => ['\\', 'r']
  | '\t' => ['\\', 't']
  | character => [character]

/-- The characters between the quotation marks. -/
def encode (value : List Char) : List Char :=
  value.flatMap escape

/-- The literal, quotation marks included. -/
def literal (value : String) : String :=
  String.ofList ('"' :: (encode value.toList ++ ['"']))

end BasicLowering.Target.Quoted
