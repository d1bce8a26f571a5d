import BasicLowering.Proofs.Target.Token
import BasicLowering.Proofs.Text.Units
import Mathlib.Data.Bool.AllAny
import Mathlib.Data.List.Chain

/-!
# String literals

A regular string literal of the target language is a quotation mark, characters and
escapes that stay on one line, and a quotation mark. Escapes name characters or units, so
what a literal stands for is a sequence of units.

A literal that is written here stands for the text it was made from and for nothing else,
unless the text holds one of the three characters that end a line and are not escaped.
Then it stands for nothing. Wherever a literal is written, a blank or a mark is before it
and after it, so it is not made part of anything longer.
-/

namespace BasicLowering.Target

open Piece
open Text (unitsOf units IsHexDigit IsHexNumber)

/-! ## The grammar of literals -/

/-- Whether characters between quotation marks stand for some units. A numeric escape
that begins with `\x` takes as many digits as there are, up to four. -/
inductive Unescapes : List Char → List Nat → Prop
  | nil : Unescapes [] []
  | plain {character : Char} {rest : List Char} {value : List Nat}
      (noQuote : character ≠ '"') (noBackslash : character ≠ '\\')
      (noNewLine : Token.isNewLine character = false) (further : Unescapes rest value) :
      Unescapes (character :: rest) (unitsOf character.toNat ++ value)
  | simple {letter character : Char} {rest : List Char} {value : List Nat}
      (isEscape : Token.unescape? letter = some character)
      (further : Unescapes rest value) :
      Unescapes ('\\' :: letter :: rest) (unitsOf character.toNat ++ value)
  | hexadecimal {digits rest : List Char} {number : Nat} {value : List Nat}
      (isNumber : IsHexNumber digits number)
      (length : 1 ≤ digits.length ∧ digits.length ≤ 4)
      (isLongest : digits.length = 4 ∨
        ∀ next ∈ rest.head?, ∀ digit, ¬ IsHexDigit next digit)
      (further : Unescapes rest value) :
      Unescapes ('\\' :: 'x' :: (digits ++ rest)) (number :: value)
  | unit {digits rest : List Char} {number : Nat} {value : List Nat}
      (isNumber : IsHexNumber digits number) (length : digits.length = 4)
      (further : Unescapes rest value) :
      Unescapes ('\\' :: 'u' :: (digits ++ rest)) (number :: value)
  | character {digits rest : List Char} {number : Nat} {value : List Nat}
      (isNumber : IsHexNumber digits number) (length : digits.length = 8)
      (inRange : number < 0x110000) (further : Unescapes rest value) :
      Unescapes ('\\' :: 'U' :: (digits ++ rest)) (unitsOf number ++ value)

/-- Whether a text is one regular string literal that stands for some units. -/
def IsLiteral (text : List Char) (value : List Nat) : Prop :=
  ∃ body, text = '"' :: (body ++ ['"']) ∧ Unescapes body value

/-- The characters that end a line and are written as they are. -/
def rawNewLines : List Char :=
  ['\u0085', '\u2028', '\u2029']

namespace Unescapes

variable {character letter : Char} {rest : List Char} {value : List Nat}

/-- What is neither a quotation mark nor a backslash stands for itself, unless it ends
the line. -/
theorem plain_iff (noQuote : character ≠ '"') (noBackslash : character ≠ '\\') :
    Unescapes (character :: rest) value ↔
      Token.isNewLine character = false ∧
        ∃ more, value = unitsOf character.toNat ++ more ∧ Unescapes rest more := by
  constructor
  · intro unescapes
    cases unescapes with
    | plain _ _ noNewLine further => exact ⟨noNewLine, _, rfl, further⟩
    | simple | hexadecimal | unit | character => exact absurd rfl noBackslash
  · rintro ⟨noNewLine, more, rfl, further⟩
    exact .plain noQuote noBackslash noNewLine further

/-- An escape of one letter is read as that and as nothing else. -/
theorem simple_iff (isEscape : Token.unescape? letter = some character) :
    Unescapes ('\\' :: letter :: rest) value ↔
      ∃ more, value = unitsOf character.toNat ++ more ∧ Unescapes rest more := by
  constructor
  · intro unescapes
    generalize written : '\\' :: letter :: rest = text at unescapes
    cases unescapes with
    | nil => cases written
    | plain _ noBackslash =>
        injection written with isBackslash
        exact absurd isBackslash.symm noBackslash
    | simple isOther further =>
        injection written with _ written
        injection written with sameLetter sameRest
        subst sameLetter sameRest
        cases isEscape.symm.trans isOther
        exact ⟨_, rfl, further⟩
    | hexadecimal | unit | character =>
        injection written with _ written
        injection written with sameLetter
        subst sameLetter
        cases isEscape
  · rintro ⟨more, rfl, further⟩
    exact .simple isEscape further

end Unescapes

/-- The written form of a character stands for the character. -/
theorem unescapes_escape (character : Char) (rest : List Char) (value : List Nat) :
    Unescapes (Quoted.escape character ++ rest) value ↔
      character ∉ rawNewLines ∧
        ∃ more, value = unitsOf character.toNat ++ more ∧ Unescapes rest more := by
  by_cases escaped : character ∈ ['"', '\\', '\n', '\r', '\t']
  · have notRaw : character ∉ rawNewLines := by
      have all : ∀ escaped ∈ ['"', '\\', '\n', '\r', '\t'], escaped ∉ rawNewLines :=
        List.all_iff_forall_prop.mp (by decide)
      exact all character escaped
    rw [and_iff_right notRaw]
    simp only [List.mem_cons, List.not_mem_nil, or_false] at escaped
    rcases escaped with rfl | rfl | rfl | rfl | rfl <;> exact Unescapes.simple_iff rfl
  · simp only [List.mem_cons, List.not_mem_nil, or_false, not_or] at escaped
    obtain ⟨noQuote, noBackslash, noLineFeed, noReturn, noTab⟩ := escaped
    have itself : Quoted.escape character = [character] := by
      unfold Quoted.escape
      split <;> first | contradiction | rfl
    have raw : Token.isNewLine character = false ↔ character ∉ rawNewLines := by
      simp [Token.isNewLine, rawNewLines, noLineFeed, noReturn]
    rw [itself, List.singleton_append, Unescapes.plain_iff noQuote noBackslash, raw]

theorem unescapes_encode (text : List Char) (value : List Nat) :
    Unescapes (Quoted.encode text) value ↔
      (∀ character ∈ text, character ∉ rawNewLines) ∧ value = units text := by
  induction text generalizing value with
  | nil =>
      constructor
      · intro unescapes
        cases unescapes
        exact ⟨List.forall_mem_nil _, rfl⟩
      · rintro ⟨-, rfl⟩
        exact .nil
  | cons character text ih =>
      rw [Quoted.encode, List.flatMap_cons, ← Quoted.encode, unescapes_escape,
        List.forall_mem_cons, Text.units_cons, and_assoc]
      simp only [ih]
      constructor
      · rintro ⟨notRaw, more, rfl, noneRaw, rfl⟩
        exact ⟨notRaw, noneRaw, rfl⟩
      · rintro ⟨notRaw, noneRaw, rfl⟩
        exact ⟨notRaw, _, rfl, noneRaw, rfl⟩

/-- What is written for a text is a literal exactly if every new-line in it is escaped,
and it is then a literal for that text alone. -/
theorem isLiteral_literal (text : String) (value : List Nat) :
    IsLiteral (Quoted.literal text).toList value ↔
      (∀ character ∈ text.toList, character ∉ rawNewLines) ∧ value = units text.toList := by
  rw [← unescapes_encode, IsLiteral, Quoted.literal, String.toList_ofList]
  constructor
  · rintro ⟨body, same, unescapes⟩
    have sameBody := List.append_cancel_right (List.cons.inj same).2
    rwa [sameBody]
  · exact fun unescapes => ⟨_, rfl, unescapes⟩

/-! ## The literals of an expression -/

mutual

/-- The texts that stand in an expression as string literals, in written order. -/
def Expr.strings : Expr → List String
  | .string value => [value]
  | .identifier _ | .this | .base | .null | .boolean _ | .number _ => []
  | .member receiver _ | .conditionalMember receiver _ => receiver.strings
  | .element receiver index => receiver.strings ++ index.strings
  | .call callee arguments => callee.strings ++ Expr.stringsAmong arguments
  | .namedArgument _ value => value.strings
  | .new _ arguments => Expr.stringsAmong arguments
  | .anonymousObject fields => Expr.stringsInFields fields
  | .binary left _ right => left.strings ++ right.strings
  | .unary _ operand => operand.strings
  | .conditional condition whenTrue whenFalse =>
      condition.strings ++ (whenTrue.strings ++ whenFalse.strings)
  | .test operand _ => operand.strings
  | .cast _ operand => operand.strings

/-- The literals of several expressions. -/
def Expr.stringsAmong : List Expr → List String
  | [] => []
  | value :: rest => value.strings ++ Expr.stringsAmong rest

/-- The literals of the values of several fields. -/
def Expr.stringsInFields : List (Option String × Expr) → List String
  | [] => []
  | (_, value) :: rest => value.strings ++ Expr.stringsInFields rest

end

/-- The texts that stand in a statement header as string literals. -/
def Statement.strings : Statement → List String
  | .ifHeader condition | .elseIfHeader condition | .whileHeader condition
  | .doWhileTrailer condition => condition.strings
  | .returnValue value | .localDeclaration _ value => value.elim [] Expr.strings
  | .assignment target value => target.strings ++ value.strings
  | .expression value => value.strings

/-- The text of a piece that is a string literal. -/
def Piece.quoted? : Piece → Option String
  | quoted value => some value
  | _ => none

/-- Whether a piece is part of no longer token together with a string literal. -/
def Piece.isSeparator : Piece → Bool
  | mark _ | blank => true
  | word _ | quoted _ => false

/-- Whether pieces are neighbours that do not touch a literal. -/
def Piece.Apart (first second : Piece) : Prop :=
  (first.quoted?.isSome → second.isSeparator) ∧
    (second.quoted?.isSome → first.isSeparator)

/-- Whether some pieces quote some texts as string literals, in this order, each between
separators. -/
structure Quotes (pieces : List Piece) (strings : List String) : Prop where
  strings_eq : pieces.filterMap quoted? = strings
  apart : pieces.IsChain Apart

namespace Quotes

variable {first later pieces : List Piece} {strings more : List String}
  {separator : Piece}

theorem nil : Quotes [] [] :=
  ⟨rfl, .nil⟩

theorem word (text : String) : Quotes [word text] [] :=
  ⟨rfl, .singleton _⟩

theorem quoted (value : String) : Quotes [quoted value] [value] :=
  ⟨rfl, .singleton _⟩

/-- Two sequences with a separator between them. -/
theorem append (quotes : Quotes first strings) (quotesLater : Quotes later more)
    (separates : separator.isSeparator = true) :
    Quotes (first ++ separator :: later) (strings ++ more) := by
  have isNone : separator.quoted? = none := by
    cases separator <;> first | rfl | cases separates
  constructor
  · rw [List.filterMap_append, List.filterMap_cons_none isNone, quotes.strings_eq,
      quotesLater.strings_eq]
  · refine quotes.apart.append (List.isChain_cons.mpr ⟨?_, quotesLater.apart⟩) ?_
    · exact fun next _ => ⟨by simp [isNone], fun _ => separates⟩
    · rintro last _ _ ⟨⟩
      exact ⟨fun _ => separates, by simp [isNone]⟩

theorem cons (quotes : Quotes later strings) (separates : separator.isSeparator = true) :
    Quotes (separator :: later) strings :=
  nil.append quotes separates

theorem enclose (needed : Bool) (quotes : Quotes pieces strings) :
    Quotes (Piece.enclose needed pieces) strings := by
  cases needed with
  | false => exact quotes
  | true =>
      have closed := (quotes.append nil (show rightParen.isSeparator = true from rfl)).cons
        (show leftParen.isSeparator = true from rfl)
      rwa [List.append_nil] at closed

/-- A sequence without literals after a separator. -/
theorem append_nothing (quotes : Quotes first strings) (quotesLater : Quotes later [])
    (separates : separator.isSeparator = true) :
    Quotes (first ++ separator :: later) strings := by
  rw [← List.append_nil strings]
  exact quotes.append quotesLater separates

/-- A word with a separator after it. -/
theorem afterWord (text : String) (quotes : Quotes later strings)
    (separates : separator.isSeparator = true) :
    Quotes (.word text :: separator :: later) strings :=
  (Quotes.word text).append quotes separates

/-- One item more, with a comma and a blank after it if others follow. -/
theorem separated {item : List Piece} {items : List (List Piece)}
    (quotes : Quotes item strings) (quotesRest : Quotes (separated items) more) :
    Quotes (Piece.separated (item :: items)) (strings ++ more) := by
  cases items with
  | nil =>
      obtain rfl : [] = more := quotesRest.strings_eq
      rwa [List.append_nil]
  | cons => exact quotes.append (quotesRest.cons rfl) rfl

/-- Where a text is quoted, a separator is before it and a separator after it. -/
theorem exists_split {earlier after : List String} {value : String}
    (quotes : Quotes pieces (earlier ++ value :: after)) :
    ∃ before behind, pieces = before ++ .quoted value :: behind ∧
      before.filterMap quoted? = earlier ∧ behind.filterMap quoted? = after ∧
      (∀ piece ∈ before.getLast?, piece.isSeparator = true) ∧
      ∀ piece ∈ behind.head?, piece.isSeparator = true := by
  obtain ⟨front, rest, rfl, isEarlier, further⟩ :=
    List.filterMap_eq_append_iff.mp quotes.strings_eq
  obtain ⟨unquoted, piece, behind, rfl, noneQuoted, isValue, isAfter⟩ :=
    List.filterMap_eq_cons_iff.mp further
  obtain rfl : piece = .quoted value := by
    cases piece <;> cases isValue
    rfl
  obtain ⟨-, fromHere, meetsFront⟩ :=
    List.isChain_append.mp (List.append_assoc front unquoted _ ▸ quotes.apart)
  refine ⟨front ++ unquoted, behind, (List.append_assoc ..).symm, ?_, isAfter, ?_, ?_⟩
  · rw [List.filterMap_append, isEarlier, List.filterMap_eq_nil_iff.mpr noneQuoted,
      List.append_nil]
  · intro last isLast
    exact (meetsFront last isLast _ rfl).2 rfl
  · intro next isNext
    exact ((List.isChain_cons.mp fromHere).1 next isNext).1 rfl

end Quotes

theorem Pattern.quotes (pattern : Pattern) : Quotes pattern.pieces [] := by
  induction pattern with
  | anything name => exact (Quotes.word name).afterWord "var" rfl
  | notNull name =>
      cases name with
      | none => exact ((Quotes.nil.cons rfl).cons rfl).cons rfl
      | some name => exact ((((Quotes.word name).cons rfl).cons rfl).cons rfl).cons rfl
  | null | type => exact .word _
  | not inner ih => exact ih.afterWord "not" rfl

mutual

/-- An expression quotes its literals. -/
theorem Expr.quotes : (value : Expr) → Quotes value.pieces value.strings
  | .identifier text | .number text => .word text
  | .this | .base | .null | .boolean true | .boolean false => .word _
  | .string value => .quoted value
  | .member receiver name | .conditionalMember receiver name => by
      rw [Expr.pieces, Expr.strings]
      exact (receiver.quotes.enclose _).append_nothing (.word name) rfl
  | .element receiver index => by
      rw [Expr.pieces, Expr.strings]
      exact (receiver.quotes.enclose _).append (index.quotes.append_nothing .nil rfl) rfl
  | .call callee arguments => by
      rw [Expr.pieces, Expr.strings]
      exact (callee.quotes.enclose _).append
        ((Expr.quotesAmong arguments).append_nothing .nil rfl) rfl
  | .namedArgument name value => by
      rw [Expr.pieces, Expr.strings]
      exact (value.quotes.cons rfl).afterWord name rfl
  | .new typeName arguments => by
      rw [Expr.pieces, Expr.strings]
      exact (((Expr.quotesAmong arguments).append_nothing .nil rfl).afterWord
        typeName rfl).afterWord "new" rfl
  | .anonymousObject [] => .afterWord "new" (.cons (.cons (.cons .nil rfl) rfl) rfl) rfl
  | .anonymousObject (field :: fields) => by
      rw [Expr.pieces, Expr.strings]
      · exact ((((Expr.quotesInFields (field :: fields)).append_nothing (.cons .nil rfl)
          rfl).cons rfl).cons rfl).afterWord "new" rfl
      · exact List.cons_ne_nil field fields
  | .binary left operator right => by
      rw [Expr.pieces, Expr.strings]
      exact (left.quotes.enclose _).append
        (((right.quotes.enclose _).cons rfl).cons rfl) rfl
  | .unary operator operand => by
      rw [Expr.pieces, Expr.strings]
      have quoted := operand.quotes.enclose (operand.precedence < Precedence.unary)
      split
      · exact (quoted.cons rfl).cons rfl
      · exact quoted.cons rfl
  | .conditional condition whenTrue whenFalse => by
      rw [Expr.pieces, Expr.strings]
      exact (condition.quotes.enclose _).append ((((whenTrue.quotes.enclose _).append
        (((whenFalse.quotes.enclose _).cons rfl).cons rfl) rfl).cons rfl).cons rfl) rfl
  | .test operand pattern => by
      rw [Expr.pieces, Expr.strings]
      exact (operand.quotes.enclose _).append_nothing
        (pattern.quotes.afterWord "is" rfl) rfl
  | .cast typeName operand => by
      rw [Expr.pieces, Expr.strings]
      exact ((operand.quotes.enclose _).afterWord typeName rfl).cons rfl

/-- Expressions show their literals, with commas between them. -/
theorem Expr.quotesAmong : (values : List Expr) →
    Quotes (separated (Expr.piecesOfEach values)) (Expr.stringsAmong values)
  | [] => .nil
  | value :: rest => value.quotes.separated (Expr.quotesAmong rest)

/-- Fields show the literals of their values, with commas between them. -/
theorem Expr.quotesInFields : (fields : List (Option String × Expr)) →
    Quotes (separated (Expr.piecesOfFields fields)) (Expr.stringsInFields fields)
  | [] => .nil
  | (none, value) :: rest => value.quotes.separated (Expr.quotesInFields rest)
  | (some name, value) :: rest =>
      Quotes.separated (((value.quotes.cons rfl).cons rfl).afterWord name rfl)
        (Expr.quotesInFields rest)

end

/-- A statement header quotes its literals. -/
theorem Statement.quotes (statement : Statement) :
    Quotes statement.pieces statement.strings := by
  have header {keyword : List Piece} (condition : Expr) (noLiteral : Quotes keyword []) :
      Quotes (headerPieces keyword condition) condition.strings :=
    noLiteral.append (condition.quotes.enclose true) rfl
  cases statement with
  | ifHeader condition => exact header condition (.word "if")
  | elseIfHeader condition =>
      exact header condition ((Quotes.word "if").afterWord "else" rfl)
  | whileHeader condition => exact header condition (.word "while")
  | doWhileTrailer condition =>
      exact (header condition (.word "while")).append_nothing .nil rfl
  | returnValue value =>
      cases value with
      | none => exact Quotes.nil.afterWord "return" rfl
      | some value => exact (value.quotes.append_nothing .nil rfl).afterWord "return" rfl
  | localDeclaration name initializer =>
      cases initializer with
      | none => exact (Quotes.nil.afterWord name rfl).afterWord "var" rfl
      | some value =>
          exact ((((value.quotes.append_nothing .nil rfl).cons rfl).cons rfl).afterWord
            name rfl).afterWord "var" rfl
  | assignment target value =>
      exact target.quotes.append
        (((value.quotes.append_nothing .nil rfl).cons rfl).cons rfl) rfl
  | expression value => exact value.quotes.append_nothing .nil rfl

/-! ## Literals where they are written -/

/-- Whether each of some texts, in order, is written among some pieces as a literal of
its own, which is a regular string literal for the text and for nothing else, or for
nothing at all if the text holds a new-line that is not escaped. -/
def WritesLiterals (pieces : List Piece) (strings : List String) : Prop :=
  ∀ earlier value later, strings = earlier ++ value :: later →
    ∃ before behind,
      textOf pieces = textOf before ++ (Quoted.literal value ++ textOf behind) ∧
      before.filterMap quoted? = earlier ∧ behind.filterMap quoted? = later ∧
      (∀ piece ∈ before.getLast?, piece.isSeparator = true) ∧
      (∀ piece ∈ behind.head?, piece.isSeparator = true) ∧
      ∀ read, IsLiteral (Quoted.literal value).toList read ↔
        (∀ character ∈ value.toList, character ∉ rawNewLines) ∧
          read = units value.toList

theorem Quotes.writesLiterals {pieces : List Piece} {strings : List String}
    (quotes : Quotes pieces strings) : WritesLiterals pieces strings := by
  rintro earlier value later rfl
  obtain ⟨before, behind, rfl, isEarlier, isLater, separatedBefore, separatedBehind⟩ :=
    quotes.exists_split
  refine ⟨before, behind, ?_, isEarlier, isLater, separatedBefore, separatedBehind,
    isLiteral_literal value⟩
  rw [textOf_append]
  simp [textOf, Piece.text]

/-- Each string literal of an expression or a statement is written as one literal that
stands for its text, exactly if no new-line in it is left as it is. -/
theorem writesLiterals_pieces (value : Expr) (statement : Statement) :
    WritesLiterals value.pieces value.strings ∧
      WritesLiterals statement.pieces statement.strings :=
  ⟨value.quotes.writesLiterals, statement.quotes.writesLiterals⟩

/-- A key with a next-line character, looked up in the default indexer. -/
def lookUpNextLine : Expr :=
  .element (.identifier "row") (.string "a\u0085b")

/-- The key is one of the literals of the look-up, and is written as none. -/
theorem lookUpNextLine_notLiteral :
    lookUpNextLine.strings = ["a\u0085b"] ∧
      lookUpNextLine.toText = "row[" ++ (Quoted.literal "a\u0085b" ++ "]") ∧
      ∀ read, ¬ IsLiteral (Quoted.literal "a\u0085b").toList read := by
  refine ⟨rfl, by decide, fun read isLiteral => ?_⟩
  obtain ⟨noneRaw, -⟩ := (isLiteral_literal _ read).mp isLiteral
  exact noneRaw '\u0085' (by decide) (by decide)

end BasicLowering.Target
