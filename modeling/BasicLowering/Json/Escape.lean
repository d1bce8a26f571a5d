/-!
# JSON escapes

What the characters of a written string stand for. A numeric escape gives one
UTF-16 unit. A high surrogate has to be followed by the escape of a low one, and
the two give one character; a surrogate without its partner stands for nothing.
-/

namespace BasicLowering.Json

/-- The value of a hexadecimal digit. -/
def hexValue (character : Char) : Nat :=
  if character.isDigit then character.toNat - '0'.toNat
  else if 'a' ≤ character then character.toNat - 'a'.toNat + 10
  else character.toNat - 'A'.toNat + 10

/-- The UTF-16 unit given by four hexadecimal digits. -/
def unit (first second third fourth : Char) : Nat :=
  ((hexValue first * 16 + hexValue second) * 16 + hexValue third) * 16 +
    hexValue fourth

def isHighSurrogate (unit : Nat) : Bool :=
  0xD800 ≤ unit && unit ≤ 0xDBFF

def isLowSurrogate (unit : Nat) : Bool :=
  0xDC00 ≤ unit && unit ≤ 0xDFFF

/-- The character given by a surrogate pair. -/
def pairCharacter (high low : Nat) : Char :=
  Char.ofNat (0x10000 + (high - 0xD800) * 0x400 + (low - 0xDC00))

/-- The character given by an escape of one letter. -/
def simpleEscape : Char → Char
  | 'b' => '\x08'
  | 'f' => '\x0c'
  | 'n' => '\n'
  | 'r' => '\r'
  | 't' => '\t'
  | character => character

/-- The characters that a written string stands for. -/
def unescape? : List Char → Option (List Char)
  | [] => some []
  | '\\' :: 'u' :: a :: b :: c :: d :: rest =>
      let high := unit a b c d
      if isLowSurrogate high then
        none
      else if isHighSurrogate high then
        match rest with
        | '\\' :: 'u' :: e :: f :: g :: h :: rest =>
            let low := unit e f g h
            if isLowSurrogate low then
              (unescape? rest).map (pairCharacter high low :: ·)
            else
              none
        | _ => none
      else
        (unescape? rest).map (Char.ofNat high :: ·)
  | '\\' :: letter :: rest => (unescape? rest).map (simpleEscape letter :: ·)
  | character :: rest => (unescape? rest).map (character :: ·)

end BasicLowering.Json
