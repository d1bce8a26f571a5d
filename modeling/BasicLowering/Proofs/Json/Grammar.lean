import BasicLowering.Json.Escape
import BasicLowering.Json.Value
import BasicLowering.Proofs.Text.Units
import Mathlib.Data.Bool.AllAny
import Mathlib.Data.List.Forall2

/-!
# The texts of JSON values

A text of a value is its tokens in a row, with any blanks before, between and after them.
The tokens of a value are determined by it; what is free are the blanks, and for whoever
chooses the value, the written forms of its strings and numbers.

A string is written as characters and escapes, and gives a sequence of units. It need not
give a text, because a numeric escape may be half of a surrogate pair.
-/

namespace BasicLowering.Json

open Text (unitsOf units IsHexDigit IsHexNumber)

/-! ## Strings -/

/-- The letters of the escapes of one letter, with what they stand for. -/
def letterEscapes : List (Char × Char) :=
  [('"', '"'), ('\\', '\\'), ('/', '/'), ('b', '\x08'), ('f', '\x0c'), ('n', '\n'),
    ('r', '\r'), ('t', '\t')]

/-- Whether the characters between the quotation marks of a string give some units. -/
inductive Spells : List Char → List Nat → Prop
  | nil : Spells [] []
  | plain {character : Char} {written : List Char} {value : List Nat}
      (noQuote : character ≠ '"') (noBackslash : character ≠ '\\')
      (noControl : ' ' ≤ character) (further : Spells written value) :
      Spells (character :: written) (unitsOf character.toNat ++ value)
  | letter {letter character : Char} {written : List Char} {value : List Nat}
      (isEscape : (letter, character) ∈ letterEscapes) (further : Spells written value) :
      Spells ('\\' :: letter :: written) (unitsOf character.toNat ++ value)
  | unit {digits written : List Char} {number : Nat} {value : List Nat}
      (isNumber : IsHexNumber digits number) (length : digits.length = 4)
      (further : Spells written value) :
      Spells ('\\' :: 'u' :: (digits ++ written)) (number :: value)

/-! ## Numbers -/

/-- Whether a text is made of digits, at least one of them. -/
def IsDigits (text : List Char) : Prop :=
  text ≠ [] ∧ ∀ character ∈ text, character.isDigit = true

/-- Whether a text is the integer part of a number: digits, without a zero before
others. -/
def IsInteger (text : List Char) : Prop :=
  IsDigits text ∧ (text.head? = some '0' → text = ['0'])

/-- Whether a text is the fraction of a number: a point and digits. -/
def IsFraction (text : List Char) : Prop :=
  ∃ digits, text = '.' :: digits ∧ IsDigits digits

/-- Whether a text is the exponent of a number: its letter, a sign or none, and
digits. -/
def IsExponent (text : List Char) : Prop :=
  ∃ letter sign digits, text = letter :: (sign ++ digits) ∧ letter ∈ ['e', 'E'] ∧
    sign ∈ [[], ['+'], ['-']] ∧ IsDigits digits

/-- Whether a text is an integer part, behind a sign or none. -/
def IsWhole (text : List Char) : Prop :=
  ∃ sign integer, text = sign ++ integer ∧ sign ∈ [[], ['-']] ∧ IsInteger integer

/-- Whether a text is a number without an exponent. -/
def IsDecimal (text : List Char) : Prop :=
  ∃ whole fraction, text = whole ++ fraction ∧ IsWhole whole ∧
    (fraction = [] ∨ IsFraction fraction)

/-- Whether a text is a number. -/
def IsNumber (text : List Char) : Prop :=
  ∃ decimal exponent, text = decimal ++ exponent ∧ IsDecimal decimal ∧
    (exponent = [] ∨ IsExponent exponent)

/-! ## Tokens -/

/-- Whether a text is a written form of a token. -/
inductive Token.IsText : Token → List Char → Prop
  | leftBrace : IsText .leftBrace ['\x7b']
  | rightBrace : IsText .rightBrace ['\x7d']
  | leftBracket : IsText .leftBracket ['[']
  | rightBracket : IsText .rightBracket [']']
  | colon : IsText .colon [':']
  | comma : IsText .comma [',']
  | null : IsText .null ['n', 'u', 'l', 'l']
  | true : IsText (.boolean true) ['t', 'r', 'u', 'e']
  | false : IsText (.boolean false) ['f', 'a', 'l', 's', 'e']
  | number {written : List Char} (isNumber : IsNumber written) :
      IsText (.number written) written
  | string {written : List Char} {value : List Nat} (spells : Spells written value) :
      IsText (.string written) ('"' :: (written ++ ['"']))

/-- Whether a text is made of blanks. -/
def IsBlanks (text : List Char) : Prop :=
  ∀ character ∈ text, character ∈ [' ', '\t', '\n', '\r']

/-- Whether a text is made of some tokens, with blanks before, between and after
them. -/
inductive Spaced : List Token → List Char → Prop
  | nil {blanks : List Char} (areBlanks : IsBlanks blanks) : Spaced [] blanks
  | cons {blanks text rest : List Char} {token : Token} {tokens : List Token}
      (areBlanks : IsBlanks blanks) (isText : token.IsText text)
      (further : Spaced tokens rest) :
      Spaced (token :: tokens) (blanks ++ (text ++ rest))

/-! ## Values -/

namespace Value

mutual

/-- The tokens of a value. -/
def tokens : Value → List Token
  | null => [.null]
  | boolean value => [.boolean value]
  | number written => [.number written]
  | string written => [.string written]
  | array [] => [.leftBracket, .rightBracket]
  | array (first :: rest) => .leftBracket :: (tokens first ++ afterItem rest)
  | object [] => [.leftBrace, .rightBrace]
  | object ((key, first) :: rest) =>
      .leftBrace :: .string key :: .colon :: (tokens first ++ afterMember rest)

/-- The tokens after an item of an array, where `rest` are the items that follow. -/
def afterItem : (rest : List Value) → List Token
  | [] => [.rightBracket]
  | item :: rest => .comma :: (tokens item ++ afterItem rest)

/-- The tokens after a member of an object, where `rest` are the members that
follow. -/
def afterMember : (rest : List (List Char × Value)) → List Token
  | [] => [.rightBrace]
  | (key, value) :: rest =>
      .comma :: .string key :: .colon :: (tokens value ++ afterMember rest)

end

/-- Whether a text is a written form of a value. -/
def IsText (value : Value) (text : List Char) : Prop :=
  Spaced value.tokens text

end Value

/-! ## What strings stand for -/

theorem spells_append {first second : List Char} {value more : List Nat}
    (spells : Spells first value) (further : Spells second more) :
    Spells (first ++ second) (value ++ more) := by
  induction spells with
  | nil => exact further
  | plain noQuote noBackslash noControl _ ih =>
      rw [List.append_assoc]
      exact .plain noQuote noBackslash noControl ih
  | letter isEscape _ ih =>
      rw [List.append_assoc]
      exact .letter isEscape ih
  | unit isNumber length _ ih =>
      rw [List.cons_append, List.cons_append, List.append_assoc]
      exact .unit isNumber length ih

/-- A text without quotation marks, backslashes and controls may be written as it is. -/
theorem spells_plain {text : List Char}
    (isPlain : ∀ character ∈ text, character ≠ '"' ∧ character ≠ '\\' ∧ ' ' ≤ character) :
    Spells text (units text) := by
  induction text with
  | nil => exact .nil
  | cons character text ih =>
      obtain ⟨⟨noQuote, noBackslash, noControl⟩, others⟩ := List.forall_mem_cons.mp isPlain
      exact .plain noQuote noBackslash noControl (ih others)

/-- A digit of a written number is read with its value. -/
theorem hexValue_of_isHexDigit {digit : Char} {value : Nat}
    (isDigit : IsHexDigit digit value) :
    hexValue digit = value ∧ isHexDigit digit = true := by
  have all : ∀ value < 16,
      (hexValue (Nat.digitChar value) = value ∧
        isHexDigit (Nat.digitChar value) = true) ∧
      hexValue (Nat.digitChar value).toUpper = value ∧
        isHexDigit (Nat.digitChar value).toUpper = true := by
    decide
  obtain ⟨inRange, rfl | rfl⟩ := isDigit
  · exact (all value inRange).1
  · exact (all value inRange).2

/-- The four digits of a numeric escape. -/
theorem exists_digits {digits : List Char} {number : Nat}
    (isNumber : IsHexNumber digits number) (length : digits.length = 4) :
    ∃ a b c d, digits = [a, b, c, d] ∧ number = unit a b c d ∧
      ∀ digit ∈ digits, isHexDigit digit = true := by
  obtain ⟨a, b, c, d, rfl⟩ := List.length_eq_four.mp length
  obtain ⟨values, each, rfl⟩ := isNumber
  obtain _ | ⟨isFirst, _ | ⟨isSecond, _ | ⟨isThird, _ | ⟨isFourth, _ | _⟩⟩⟩⟩ := each
  obtain ⟨firstValue, firstDigit⟩ := hexValue_of_isHexDigit isFirst
  obtain ⟨secondValue, secondDigit⟩ := hexValue_of_isHexDigit isSecond
  obtain ⟨thirdValue, thirdDigit⟩ := hexValue_of_isHexDigit isThird
  obtain ⟨fourthValue, fourthDigit⟩ := hexValue_of_isHexDigit isFourth
  refine ⟨a, b, c, d, rfl, ?_, ?_⟩
  · simp [unit, firstValue, secondValue, thirdValue, fourthValue]
  · simp [firstDigit, secondDigit, thirdDigit, fourthDigit]

/-- No character begins with a low surrogate. -/
theorem isLowSurrogate_of_head {character : Char} {number : Nat} {rest more : List Nat}
    (begins : unitsOf character.toNat ++ rest = number :: more) :
    isLowSurrogate number = false := by
  have scalar := Text.toNat_isScalar character
  rw [unitsOf] at begins
  split at begins <;>
    simp only [List.cons_append, List.nil_append, List.cons.injEq] at begins
  all_goals
    obtain ⟨rfl, -⟩ := begins
    simp only [isLowSurrogate, Bool.and_eq_false_iff, decide_eq_false_iff_not]
    omega

/-- A unit with which a text begins is its first character, or a high surrogate with a
low one behind it. -/
theorem exists_character_of_head {number : Nat} {rest : List Nat} {text : List Char}
    (begins : number :: rest = units text) :
    (isHighSurrogate number = false ∧ ∃ further,
      text = Char.ofNat number :: further ∧ rest = units further) ∨
    (isHighSurrogate number = true ∧ ∃ low more further,
      isLowSurrogate low = true ∧ rest = low :: more ∧
      text = pairCharacter number low :: further ∧ more = units further) := by
  cases text with
  | nil => cases begins
  | cons character text =>
      have scalar := Text.toNat_isScalar character
      rw [Text.units_cons, unitsOf] at begins
      split at begins <;>
        simp only [List.cons_append, List.nil_append, List.cons.injEq] at begins
      · obtain ⟨rfl, rfl⟩ := begins
        refine .inl ⟨?_, text, by rw [Char.ofNat_toNat], rfl⟩
        simp only [isHighSurrogate, Bool.and_eq_false_iff, decide_eq_false_iff_not]
        omega
      · next wide =>
          obtain ⟨rfl, rfl⟩ := begins
          refine .inr ⟨?_, _, _, text, ?_, rfl, ?_, rfl⟩
          · simp only [isHighSurrogate, Bool.and_eq_true, decide_eq_true_eq]
            omega
          · simp only [isLowSurrogate, Bool.and_eq_true, decide_eq_true_eq]
            omega
          · have together : 0x10000 +
                (0xD800 + (character.toNat - 0x10000) / 0x400 - 0xD800) * 0x400 +
                (0xDC00 + (character.toNat - 0x10000) % 0x400 - 0xDC00) =
                  character.toNat := by omega
            rw [pairCharacter, together, Char.ofNat_toNat]

theorem unescape?_plain {character : Char} {written : List Char}
    (noBackslash : character ≠ '\\') :
    unescape? (character :: written) = (unescape? written).map (character :: ·) := by
  rw [unescape?]
  · exact fun _ _ _ _ _ same _ => noBackslash same
  · exact fun _ _ same _ => noBackslash same

theorem unescape?_letter {letter character : Char} {written : List Char}
    (isEscape : (letter, character) ∈ letterEscapes) :
    unescape? ('\\' :: letter :: written) = (unescape? written).map (character :: ·) := by
  have all : ∀ pair ∈ letterEscapes, pair.1 ≠ 'u' ∧ simpleEscape pair.1 = pair.2 := by
    decide
  obtain ⟨notUnit, same⟩ := all _ isEscape
  rw [unescape?, same]
  exact fun _ _ _ _ _ isUnit _ => notUnit isUnit

theorem unescape?_unit {a b c d : Char} {written : List Char}
    (notLow : isLowSurrogate (unit a b c d) = false)
    (notHigh : isHighSurrogate (unit a b c d) = false) :
    unescape? ('\\' :: 'u' :: a :: b :: c :: d :: written) =
      (unescape? written).map (Char.ofNat (unit a b c d) :: ·) := by
  rw [unescape?.eq_def]
  simp [notLow, notHigh]

theorem unescape?_pair {a b c d e f g h : Char} {written : List Char}
    (notLow : isLowSurrogate (unit a b c d) = false)
    (isHigh : isHighSurrogate (unit a b c d) = true)
    (isLow : isLowSurrogate (unit e f g h) = true) :
    unescape? ('\\' :: 'u' :: a :: b :: c :: d ::
        '\\' :: 'u' :: e :: f :: g :: h :: written) =
      (unescape? written).map
        (pairCharacter (unit a b c d) (unit e f g h) :: ·) := by
  rw [unescape?.eq_def]
  simp [notLow, isHigh, isLow]

/-- What is left of a text whose first character is known. -/
theorem exists_rest_of_units {character : Char} {value : List Nat} {text : List Char}
    (same : unitsOf character.toNat ++ value = units text) :
    ∃ further, text = character :: further ∧ value = units further := by
  cases text with
  | nil => exact absurd (List.append_eq_nil_iff.mp same).1 (Text.unitsOf_ne_nil _)
  | cons first further =>
      obtain ⟨rfl, rest⟩ := Text.unitsOf_append_inj same
      exact ⟨further, rfl, rest⟩

/-- A low surrogate is written as a numeric escape. -/
theorem exists_low_of_spells {written : List Char} {low : Nat} {value : List Nat}
    (spells : Spells written (low :: value)) (isLow : isLowSurrogate low = true) :
    ∃ e f g h further, written = '\\' :: 'u' :: e :: f :: g :: h :: further ∧
      low = unit e f g h ∧ Spells further value := by
  have notCharacter {character : Char} {rest : List Nat} :
      unitsOf character.toNat ++ rest ≠ low :: value := by
    intro same
    rw [isLowSurrogate_of_head same] at isLow
    cases isLow
  generalize starts : low :: value = all at spells
  cases spells with
  | nil => cases starts
  | plain => exact absurd starts.symm notCharacter
  | letter => exact absurd starts.symm notCharacter
  | unit isNumber fourDigits further =>
      obtain ⟨rfl, rfl⟩ := List.cons.inj starts
      obtain ⟨e, f, g, h, rfl, isUnit, -⟩ := exists_digits isNumber fourDigits
      exact ⟨e, f, g, h, _, rfl, isUnit, further⟩

/-- A string that gives the units of a text is read as the text. -/
theorem unescape?_of_spells {written : List Char} {value : List Nat}
    (spells : Spells written value) {text : List Char} (same : value = units text) :
    unescape? written = some text := by
  -- Two numeric escapes may give one character, so the derivation is taken apart in steps
  -- of different length.
  induction length : written.length using Nat.strongRecOn
    generalizing written value text with
  | _ length ih =>
    subst length
    cases spells with
    | nil =>
        obtain rfl : text = [] := Text.units_injective same.symm
        rfl
    | @plain character written value noQuote noBackslash noControl further =>
        obtain ⟨text, rfl, rfl⟩ := exists_rest_of_units same
        rw [unescape?_plain noBackslash,
          ih _ (Nat.lt_succ_self _) further rfl rfl, Option.map_some]
    | @letter letter character written value isEscape further =>
        obtain ⟨text, rfl, rfl⟩ := exists_rest_of_units same
        rw [unescape?_letter isEscape,
          ih _ (by simp only [List.length_cons]; omega) further rfl rfl, Option.map_some]
    | @unit digits written number value isNumber fourDigits further =>
        obtain ⟨a, b, c, d, rfl, isUnit, -⟩ := exists_digits isNumber fourDigits
        have notLow : isLowSurrogate (unit a b c d) = false := by
          cases text with
          | nil => cases same
          | cons first text => exact isLowSurrogate_of_head (isUnit ▸ same.symm)
        rw [isUnit] at same
        obtain ⟨notHigh, text, rfl, rfl⟩ |
          ⟨isHigh, low, more, text, isLow, rfl, rfl, rfl⟩ := exists_character_of_head same
        · show unescape? ('\\' :: 'u' :: a :: b :: c :: d :: written) = _
          rw [unescape?_unit notLow notHigh, ih written.length ?_ further rfl rfl,
            Option.map_some]
          simp only [List.length_cons, List.length_append]
          omega
        · obtain ⟨e, f, g, h, tail, rfl, rfl, beyond⟩ := exists_low_of_spells further isLow
          show unescape? ('\\' :: 'u' :: a :: b :: c :: d ::
            '\\' :: 'u' :: e :: f :: g :: h :: tail) = _
          rw [unescape?_pair notLow isHigh isLow, ih tail.length ?_ beyond rfl rfl,
            Option.map_some]
          simp only [List.length_cons, List.length_append]
          omega

end BasicLowering.Json
