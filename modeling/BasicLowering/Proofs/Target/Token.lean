import BasicLowering.Target.Piece
import Mathlib.Data.List.TakeWhile

/-!
# Tokens of the target language

A text is cut into tokens from left to right, each as long as it can be. Names
and keywords are words; a number is a string of digits that nothing but a mark
or a blank follows; a string literal stands between quotation marks on one line.

What is cut off at the end of a token does not depend on what follows, as long
as the following character cannot belong to the token.
-/

namespace BasicLowering.Target

/-- A token of the target language. -/
inductive Token where
  | name (text : String)
  | keyword (text : String)
  /-- A string of digits. -/
  | number (text : String)
  /-- A string literal with the given value. -/
  | text (value : String)
  /-- An operator or a punctuation mark. -/
  | mark (text : String)
  deriving DecidableEq

/-- Which characters beyond ASCII may begin and continue a name. -/
structure Alphabet where
  begins : Char → Bool
  continues : Char → Bool

namespace Alphabet

variable (alphabet : Alphabet)

/-- Whether a character may begin a name. -/
def isNameStart (character : Char) : Bool :=
  character.isAlpha || character == '_' ||
    (character.val ≥ 128 && alphabet.begins character)

/-- Whether a character may continue a name. -/
def isNamePart (character : Char) : Bool :=
  alphabet.isNameStart character || character.isDigit ||
    (character.val ≥ 128 && alphabet.continues character)

end Alphabet

namespace Token

/-- The words that are no names. -/
def keywords : List String :=
  ["abstract", "as", "base", "bool", "break", "byte", "case", "catch", "char",
    "checked", "class", "const", "continue", "decimal", "default", "delegate",
    "do", "double", "else", "enum", "event", "explicit", "extern", "false",
    "finally", "fixed", "float", "for", "foreach", "goto", "if", "implicit",
    "in", "int", "interface", "internal", "is", "lock", "long", "namespace",
    "new", "null", "object", "operator", "out", "override", "params", "private",
    "protected", "public", "readonly", "ref", "return", "sbyte", "sealed",
    "short", "sizeof", "stackalloc", "static", "string", "struct", "switch",
    "this", "throw", "true", "try", "typeof", "uint", "ulong", "unchecked",
    "unsafe", "ushort", "using", "virtual", "void", "volatile", "while"]

/-- The operators and punctuation marks, longer ones first, and what opens a
comment. -/
def marks : List String :=
  ["<<=", "??=",
    "//", "/*", "&&", "||", "??", "::", "++", "--", "->", "=>", "..", "?.",
    "==", "!=", "<=", ">=", "+=", "-=", "*=", "/=", "%=", "&=", "|=", "^=",
    "<<",
    "\x7b", "\x7d", "[", "]", "(", ")", ".", ",", ":", ";", "+", "-", "*", "/",
    "%", "&", "|", "^", "!", "~", "=", "<", ">", "?"]

/-- The token that a word makes. -/
def ofWord (word : String) : Token :=
  if word ∈ keywords then keyword word else name word

/-- The characters that end a line. -/
def isNewLine (character : Char) : Bool :=
  character ∈ ['\n', '\r', '\u0085', '\u2028', '\u2029']

/-- The character that follows a backslash in a literal, read back. -/
def unescape? : Char → Option Char
  | '\x27' => some '\x27'
  | '"' => some '"'
  | '\\' => some '\\'
  | '0' => some '\x00'
  | 'a' => some '\x07'
  | 'b' => some '\x08'
  | 'f' => some '\x0c'
  | 'n' => some '\n'
  | 'r' => some '\r'
  | 't' => some '\t'
  | 'v' => some '\x0b'
  | _ => none

/-- The value of a string literal after its first quotation mark, and what
follows the literal. A literal ends on the line where it begins. -/
def literal? : List Char → Option (List Char × List Char)
  | [] => none
  | '"' :: rest => some ([], rest)
  | '\\' :: escaped :: rest =>
      match unescape? escaped, literal? rest with
      | some character, some (value, rest) => some (character :: value, rest)
      | _, _ => none
  | character :: rest =>
      if isNewLine character then none
      else (literal? rest).map fun (value, rest) => (character :: value, rest)

/-- Whether digits that stand before a text would be part of another number, or
of no token at all. -/
def extendsNumber (alphabet : Alphabet) : List Char → Bool
  | '.' :: character :: _ => character.isDigit
  | character :: _ => alphabet.isNamePart character
  | [] => false

/-- The longest mark that a text begins with. -/
def mark? (text : List Char) : Option String :=
  marks.find? (·.toList.isPrefixOf text)

/-- The first token of a text that is not empty, if the text does not begin with
a blank, and what follows. Comments are not read. -/
def first? (alphabet : Alphabet) :
    List Char → Option (List Token × List Char)
  | [] => none
  | character :: rest =>
      if character.isWhitespace then some ([], rest)
      else if alphabet.isNameStart character then
        some ([ofWord (String.ofList
            (character :: rest.takeWhile alphabet.isNamePart))],
          rest.dropWhile alphabet.isNamePart)
      else if character.isDigit then
        let later := rest.dropWhile Char.isDigit
        if extendsNumber alphabet later then none
        else some ([number (String.ofList
          (character :: rest.takeWhile Char.isDigit))], later)
      else if character = '"' then
        (literal? rest).map fun (value, later) =>
          ([text (String.ofList value)], later)
      else
        match mark? (character :: rest) with
        | none => none
        | some found =>
            if found = "//" ∨ found = "/*" then none
            else some ([mark found], rest.drop (found.length - 1))

theorem length_literal?_lt {text value rest : List Char}
    (read : literal? text = some (value, rest)) : rest.length < text.length := by
  fun_induction literal? text generalizing value rest with
  | case1 => cases read
  | case2 later => cases read; simp
  | case3 escaped later character tail shorter isTail isCharacter ih =>
      cases read
      have := ih isTail
      simp only [List.length_cons]
      omega
  | case4 => cases read
  | case5 => cases read
  | case6 character later _ _ _ ih =>
      obtain ⟨⟨tail, shorter⟩, isTail, same⟩ := Option.map_eq_some_iff.mp read
      cases same
      have := ih isTail
      simp only [List.length_cons]
      omega

/-- A step leaves less to read. -/
theorem length_first?_lt {alphabet : Alphabet} {text rest : List Char}
    {tokens : List Token} (read : first? alphabet text = some (tokens, rest)) :
    rest.length < text.length := by
  cases text with
  | nil => cases read
  | cons character later =>
      rw [List.length_cons, Nat.lt_succ_iff]
      simp only [first?] at read
      split_ifs at read
      · cases read; exact le_rfl
      · cases read; exact List.length_dropWhile_le ..
      · cases read; exact List.length_dropWhile_le ..
      · obtain ⟨⟨value, tail⟩, isTail, same⟩ := Option.map_eq_some_iff.mp read
        cases same
        exact (length_literal?_lt isTail).le
      · split at read
        · cases read
        · split_ifs at read
          cases read
          simp

/-- The tokens of a text. -/
def ofText? (alphabet : Alphabet) (text : List Char) : Option (List Token) :=
  if text = [] then some []
  else
    match _read : first? alphabet text with
    | none => none
    | some (tokens, rest) => (ofText? alphabet rest).map (tokens ++ ·)
termination_by text.length
decreasing_by exact length_first?_lt ‹_›

/-! ## Steps -/

/-- The tokens of two texts, one after the other. -/
def join (first later : Option (List Token)) : Option (List Token) :=
  first.bind fun tokens => later.map (tokens ++ ·)

@[simp] theorem join_none (later : Option (List Token)) :
    join none later = none :=
  rfl

@[simp] theorem join_nil (later : Option (List Token)) :
    join (some []) later = later := by
  cases later <;> rfl

theorem exists_of_join {first later : Option (List Token)} {tokens : List Token}
    (joined : join first later = some tokens) :
    ∃ early late, first = some early ∧ later = some late ∧
      tokens = early ++ late := by
  cases first <;> cases later <;> simp_all [join, eq_comm]

theorem join_assoc (first second third : Option (List Token)) :
    join (join first second) third = join first (join second third) := by
  cases first <;> cases second <;> cases third <;> simp [join]

variable {alphabet : Alphabet} {source rest : List Char} {tokens : List Token}

@[simp] theorem ofText?_nil : ofText? alphabet [] = some [] := by
  rw [ofText?, if_pos rfl]

/-- One step of the reading. -/
theorem ofText?_of_first?
    (read : first? alphabet source = some (tokens, rest)) :
    ofText? alphabet source = join (some tokens) (ofText? alphabet rest) := by
  have notEmpty : source ≠ [] := by rintro rfl; cases read
  rw [ofText?, if_neg notEmpty]
  split
  · next fails => rw [read] at fails; cases fails
  · next reads => rw [read] at reads; cases reads; rfl

theorem ofText?_of_first?_eq_none (notEmpty : source ≠ [])
    (fails : first? alphabet source = none) : ofText? alphabet source = none := by
  rw [ofText?, if_neg notEmpty]
  split
  · rfl
  · next reads => rw [fails] at reads; cases reads

/-! ## What a text begins with -/

/-- Characters of a kind are read up to the first one of another kind. -/
theorem takeWhile_append_of_ends {isPart : Char → Bool} {parts rest : List Char}
    (goesOn : ∀ part ∈ parts, isPart part = true)
    (ends : ∀ next ∈ rest.head?, isPart next = false) :
    (parts ++ rest).takeWhile isPart = parts ∧
      (parts ++ rest).dropWhile isPart = rest := by
  rw [List.takeWhile_append_of_pos goesOn, List.dropWhile_append_of_pos goesOn]
  cases rest with
  | nil => simp
  | cons next rest => simp_all

/-- A character that begins a name or a number is no blank. -/
theorem isWhitespace_eq_false {character : Char}
    (starts : alphabet.isNameStart character = true ∨
      character.isDigit = true) :
    character.isWhitespace = false := by
  by_contra blank
  simp only [Char.isWhitespace, Bool.not_eq_false, Bool.or_eq_true,
    decide_eq_true_eq] at blank
  rcases blank with ((rfl | rfl) | rfl) | rfl <;>
    simp [Alphabet.isNameStart] at starts

theorem ofText?_blank (rest : List Char) :
    ofText? alphabet (' ' :: rest) = ofText? alphabet rest :=
  (ofText?_of_first? (show first? alphabet (' ' :: rest) = some ([], rest)
    from rfl)).trans (join_nil _)

/-- A word is read up to its end. -/
theorem ofText?_word {first : Char} {others : List Char}
    (starts : alphabet.isNameStart first = true)
    (goesOn : ∀ other ∈ others, alphabet.isNamePart other = true)
    (ends : ∀ next ∈ rest.head?, alphabet.isNamePart next = false) :
    ofText? alphabet (first :: (others ++ rest)) =
      join (some [ofWord (String.ofList (first :: others))])
        (ofText? alphabet rest) := by
  have notBlank := isWhitespace_eq_false (.inl starts)
  obtain ⟨taken, left⟩ := takeWhile_append_of_ends goesOn ends
  refine ofText?_of_first? ?_
  simp [first?, notBlank, starts, taken, left]

/-- A digit begins no name. -/
theorem isNameStart_of_isDigit {character : Char}
    (isDigit : character.isDigit = true) :
    alphabet.isNameStart character = false := by
  simp only [Char.isDigit, Bool.and_eq_true, decide_eq_true_eq] at isDigit
  have notUnderscore : character ≠ '_' := by
    rintro rfl
    exact absurd isDigit.2 (by decide)
  have letters : character.isAlpha =
      (decide (character.val ≥ 'A'.val ∧ character.val ≤ 'Z'.val) ||
        character.val ≥ 'a'.val && character.val ≤ 'z'.val) := rfl
  simp only [Alphabet.isNameStart, letters, Bool.or_eq_false_iff,
    Bool.and_eq_false_iff, decide_eq_false_iff_not, beq_eq_false_iff_ne]
  simp only [UInt32.le_iff_toNat_le, ge_iff_le] at isDigit ⊢
  have small := isDigit.2
  simp only [show '9'.val.toNat = 57 from rfl, show 'A'.val.toNat = 65 from rfl,
    show 'a'.val.toNat = 97 from rfl, show (128 : UInt32).toNat = 128 from rfl]
    at small ⊢
  exact ⟨⟨⟨by omega, by omega⟩, notUnderscore⟩, .inl (by omega)⟩

/-- Digits are read up to the last one. -/
theorem ofText?_number {first : Char} {others : List Char}
    (starts : first.isDigit = true)
    (goesOn : ∀ other ∈ others, other.isDigit = true)
    (ends : extendsNumber alphabet rest = false) :
    ofText? alphabet (first :: (others ++ rest)) =
      join (some [number (String.ofList (first :: others))])
        (ofText? alphabet rest) := by
  have notBlank : first.isWhitespace = false :=
    @isWhitespace_eq_false alphabet first (.inr starts)
  have noDigit : ∀ next ∈ rest.head?, next.isDigit = false := by
    rintro next isNext
    cases rest with
    | nil => cases isNext
    | cons first later =>
        cases isNext
        unfold extendsNumber at ends
        split at ends
        · next same => cases same; decide
        · next same =>
            cases same
            simp only [Alphabet.isNamePart, Bool.or_eq_false_iff] at ends
            exact ends.1.2
        · next isNil => cases isNil
  obtain ⟨taken, left⟩ := takeWhile_append_of_ends goesOn noDigit
  refine ofText?_of_first? ?_
  simp [first?, notBlank, isNameStart_of_isDigit starts, starts, taken, left,
    ends]

/-- Whether a value has a character that ends a line and is written as it
is. -/
def hasRawNewLine (value : List Char) : Bool :=
  value.any (· ∈ ['\u0085', '\u2028', '\u2029'])

/-- The escape of a character is read back, and a character that ends a line is
refused. -/
theorem literal?_escape (character : Char) (rest : List Char) :
    literal? (Quoted.escape character ++ rest) =
      if hasRawNewLine [character] then none
      else (literal? rest).map fun (value, rest) => (character :: value, rest) := by
  by_cases escaped : character ∈ ['"', '\\', '\n', '\r', '\t']
  · simp only [List.mem_cons, List.not_mem_nil, or_false] at escaped
    rcases escaped with rfl | rfl | rfl | rfl | rfl <;>
      simp [Quoted.escape, literal?, unescape?, hasRawNewLine] <;>
      cases literal? rest <;> rfl
  · simp only [List.mem_cons, List.not_mem_nil, or_false, not_or] at escaped
    obtain ⟨noQuote, noBackslash, noLineFeed, noReturn, noTab⟩ := escaped
    have itself : Quoted.escape character = [character] := by
      unfold Quoted.escape
      split <;> first | contradiction | rfl
    have reads : literal? (character :: rest) = if isNewLine character then none
        else (literal? rest).map fun (value, rest) =>
          (character :: value, rest) := by
      rw [literal?]
      · exact fun same => noQuote same
      · exact fun _ _ same => absurd same noBackslash
    rw [itself, List.singleton_append, reads]
    simp [isNewLine, hasRawNewLine, noLineFeed, noReturn]

/-- A literal is read back unless it has a character that ends a line. -/
theorem literal?_encode (value rest : List Char) :
    literal? (Quoted.encode value ++ '"' :: rest) =
      if hasRawNewLine value then none else some (value, rest) := by
  induction value with
  | nil => rfl
  | cons character value ih =>
      have split : hasRawNewLine (character :: value) =
          (hasRawNewLine [character] || hasRawNewLine value) := by
        simp [hasRawNewLine]
      rw [Quoted.encode, List.flatMap_cons, ← Quoted.encode, List.append_assoc,
        literal?_escape, ih, split]
      cases hasRawNewLine [character] <;> cases hasRawNewLine value <;> rfl

theorem ofText?_literal (value : String) (rest : List Char) :
    ofText? alphabet ((Quoted.literal value).toList ++ rest) =
      join (if hasRawNewLine value.toList then none else some [text value])
        (ofText? alphabet rest) := by
  have written : (Quoted.literal value).toList ++ rest =
      '"' :: (Quoted.encode value.toList ++ '"' :: rest) := by
    simp [Quoted.literal]
  have reads : first? alphabet
      ('"' :: (Quoted.encode value.toList ++ '"' :: rest)) =
        (literal? (Quoted.encode value.toList ++ '"' :: rest)).map
          fun (value, later) => ([text (String.ofList value)], later) := by
    simp [first?, Alphabet.isNameStart, show Char.isAlpha '"' = false from rfl]
  rw [written]
  rw [literal?_encode] at reads
  cases broken : hasRawNewLine value.toList with
  | true =>
      rw [broken] at reads
      exact ofText?_of_first?_eq_none (List.cons_ne_nil _ _) reads
  | false =>
      rw [broken] at reads
      rw [ofText?_of_first? reads, String.ofList_toList]
      rfl

/-! ## Marks -/

/-- Whether a character makes a longer mark of a mark. -/
def extendsMark (found : String) (next : Char) : Bool :=
  marks.any fun mark => (found.toList ++ [next]).isPrefixOf mark.toList

theorem marks_descending :
    marks.Pairwise fun first later =>
      later.toList.length ≤ first.toList.length ∧ first ≠ later := by
  decide

/-- The longest mark is read. -/
theorem mark?_append {found : String} (isMark : found ∈ marks)
    (ends : ∀ next ∈ rest.head?, extendsMark found next = false) :
    mark? (found.toList ++ rest) = some found := by
  obtain ⟨longer, shorter, split⟩ := List.append_of_mem isMark
  refine List.find?_eq_some_iff_append.mpr
    ⟨by simp, longer, shorter, split, fun other isLonger => ?_⟩
  have descending := marks_descending
  rw [split, List.pairwise_append] at descending
  obtain ⟨isLong, different⟩ :=
    descending.2.2 other isLonger found List.mem_cons_self
  rw [Bool.not_eq_true', ← Bool.not_eq_true, List.isPrefixOf_iff_prefix]
  intro isPrefix
  obtain ⟨tail, isTail⟩ : found.toList <+: other.toList :=
    List.prefix_of_prefix_length_le (List.prefix_append _ _) isPrefix isLong
  cases tail with
  | nil =>
      rw [List.append_nil, String.toList_inj] at isTail
      exact different isTail.symm
  | cons next tail =>
      rw [← isTail, List.prefix_append_right_inj] at isPrefix
      obtain ⟨later, rfl⟩ := isPrefix
      have isExtended : extendsMark found next = true := by
        refine List.any_eq_true.mpr ⟨other, ?_, ?_⟩
        · rw [split]
          exact List.mem_append_left _ isLonger
        · rw [List.isPrefixOf_iff_prefix, ← isTail]
          exact ⟨tail, by simp⟩
      rw [ends next rfl] at isExtended
      cases isExtended

/-- No mark begins like a name, a number or a literal. -/
theorem first_of_mem_marks {found : String} (isMark : found ∈ marks) :
    ∃ first others, found.toList = first :: others ∧
      first.isAlpha = false ∧ first ≠ '_' ∧ first.val < 128 ∧
      first.isDigit = false ∧ first ≠ '"' ∧ first.isWhitespace = false := by
  have all : ∀ found ∈ marks, found.toList.head?.any fun first =>
      first.isAlpha = false ∧ first ≠ '_' ∧ first.val < 128 ∧
      first.isDigit = false ∧ first ≠ '"' ∧ first.isWhitespace = false := by
    decide
  obtain ⟨first, isFirst, facts⟩ := (Option.any_eq_true _ _).mp (all found isMark)
  obtain ⟨others, written⟩ := List.head?_eq_some_iff.mp isFirst
  exact ⟨first, others, written, of_decide_eq_true facts⟩

/-- A mark that opens no comment is read up to its end. -/
theorem ofText?_mark {found : String} (isMark : found ∈ marks)
    (noComment : ¬ (found = "//" ∨ found = "/*"))
    (ends : ∀ next ∈ rest.head?, extendsMark found next = false) :
    ofText? alphabet (found.toList ++ rest) =
      join (some [mark found]) (ofText? alphabet rest) := by
  have longest := mark?_append isMark ends
  obtain ⟨first, others, written, noLetter, noUnderscore, isAscii, noDigit,
    noQuote, noBlank⟩ := first_of_mem_marks isMark
  have noName : alphabet.isNameStart first = false := by
    have notWide : ¬ 128 ≤ first.val := UInt32.not_le.mpr isAscii
    simp [Alphabet.isNameStart, noLetter, noUnderscore, notWide]
  have length : found.length - 1 = others.length := by
    rw [← String.length_toList, written]
    rfl
  rw [written, List.cons_append] at longest ⊢
  refine ofText?_of_first? ?_
  simp [first?, noBlank, noName, noDigit, noQuote, longest, noComment, length]

/-! ## Before a closing parenthesis -/

/-- Characters of a kind that a parenthesis is not of. -/
theorem takeWhile_append_paren {isPart : Char → Bool} (isNot : isPart ')' = false)
    (source rest : List Char) :
    (source ++ ')' :: rest).takeWhile isPart = source.takeWhile isPart ∧
      (source ++ ')' :: rest).dropWhile isPart =
        source.dropWhile isPart ++ ')' :: rest := by
  have goesOn : ∀ part ∈ source.takeWhile isPart, isPart part = true :=
    fun part => List.mem_takeWhile_imp
  have ends : ∀ next ∈ (source.dropWhile isPart ++ ')' :: rest).head?,
      isPart next = false := by
    intro next isNext
    cases left : source.dropWhile isPart with
    | nil =>
        rw [left] at isNext
        cases isNext
        exact isNot
    | cons first others =>
        rw [left] at isNext
        cases isNext
        have := List.head?_dropWhile_not isPart source
        simpa [left] using this
  have parts := takeWhile_append_of_ends goesOn ends
  rwa [← List.append_assoc, List.takeWhile_append_dropWhile] at parts

theorem literal?_append {value later : List Char} (rest : List Char)
    (read : literal? source = some (value, later)) :
    literal? (source ++ rest) = some (value, later ++ rest) := by
  fun_induction literal? source generalizing value later with
  | case1 | case4 | case5 => cases read
  | case2 => cases read; simp [literal?]
  | case3 escaped source character tail shorter isTail isCharacter ih =>
      cases read
      simp [literal?, isCharacter, ih isTail]
  | case6 character source noQuote noEscape notBreak ih =>
      obtain ⟨⟨tail, shorter⟩, isTail, same⟩ := Option.map_eq_some_iff.mp read
      cases same
      have appended := ih isTail
      rw [List.cons_append, literal?]
      · simp [notBreak, appended]
      · exact noQuote
      · intro _ _ isBackslash _
        cases source with
        | nil => cases isTail
        | cons => exact noEscape _ _ isBackslash rfl

/-- No mark has a closing parenthesis after its first character. -/
theorem mark?_append_paren (first : Char) (source rest : List Char) :
    mark? (first :: (source ++ ')' :: rest)) = mark? (first :: source) := by
  rw [mark?, mark?, ← List.head?_filter, ← List.head?_filter]
  congr 1
  refine List.filter_congr fun found isMark => ?_
  rw [Bool.eq_iff_iff, List.isPrefixOf_iff_prefix, List.isPrefixOf_iff_prefix,
    ← List.cons_append]
  refine ⟨fun isPrefix => ?_, fun isPrefix =>
    isPrefix.trans (List.prefix_append _ _)⟩
  rcases List.prefix_or_prefix_of_prefix isPrefix (List.prefix_append _ _)
    with inside | ⟨tail, beyond⟩
  · exact inside
  · cases tail with
    | nil =>
        rw [List.append_nil] at beyond
        exact ⟨[], by rw [List.append_nil, beyond]⟩
    | cons next tail =>
        rw [← beyond, List.prefix_append_right_inj] at isPrefix
        obtain ⟨_, same⟩ := isPrefix
        cases same
        have noParen : ∀ found ∈ marks, ')' ∉ found.toList.tail := by decide
        refine absurd ?_ (noParen found isMark)
        rw [← beyond]
        simp

theorem isNamePart_paren : alphabet.isNamePart ')' = false := by
  simp [Alphabet.isNamePart, Alphabet.isNameStart,
    show Char.isAlpha ')' = false from rfl]

theorem extendsNumber_append_paren (source rest : List Char) :
    extendsNumber alphabet (source ++ ')' :: rest) =
      extendsNumber alphabet source := by
  match source with
  | [] => exact isNamePart_paren
  | [first] =>
      by_cases isPoint : first = '.'
      · subst isPoint
        simp [extendsNumber, Alphabet.isNamePart, Alphabet.isNameStart]
      · simp [extendsNumber, isPoint]
  | first :: second :: others =>
      by_cases isPoint : first = '.'
      · subst isPoint
        simp [extendsNumber]
      · simp [extendsNumber, isPoint]

/-- A closing parenthesis belongs to no token before it. -/
theorem first?_append_paren {later : List Char} (rest : List Char)
    (read : first? alphabet source = some (tokens, later)) :
    first? alphabet (source ++ ')' :: rest) =
      some (tokens, later ++ ')' :: rest) := by
  cases source with
  | nil => cases read
  | cons first source =>
      have names := takeWhile_append_paren (@isNamePart_paren alphabet) source
        rest
      have digits := takeWhile_append_paren (show ')'.isDigit = false from rfl)
        source rest
      simp only [first?, List.cons_append, names, digits,
        extendsNumber_append_paren, mark?_append_paren] at read ⊢
      split_ifs at read ⊢
      · cases read; rfl
      · cases read; rfl
      · cases read; rfl
      · obtain ⟨⟨value, tail⟩, isTail, same⟩ := Option.map_eq_some_iff.mp read
        cases same
        rw [literal?_append _ isTail]
        rfl
      · split at read
        · cases read
        · next found isMark =>
            have isPrefix := List.find?_some isMark
            rw [List.isPrefixOf_iff_prefix] at isPrefix
            have short := isPrefix.length_le
            rw [String.length_toList, List.length_cons] at short
            split_ifs at read
            cases read
            rw [if_neg ‹_›, List.drop_append_of_le_length (by omega)]

/-- What stands before a closing parenthesis is read as it is read alone. -/
theorem ofText?_append_paren (rest : List Char)
    (read : ofText? alphabet source = some tokens) :
    ofText? alphabet (source ++ ')' :: rest) =
      join (some tokens) (ofText? alphabet (')' :: rest)) := by
  induction length : source.length using Nat.strongRecOn generalizing source tokens with
  | _ length ih =>
    cases source with
    | nil =>
        rw [ofText?_nil] at read
        cases read
        rw [List.nil_append, join_nil]
    | cons character source =>
        cases isFirst : first? alphabet (character :: source) with
        | none =>
            rw [ofText?_of_first?_eq_none (List.cons_ne_nil _ _) isFirst] at read
            cases read
        | some step =>
            obtain ⟨firstTokens, later⟩ := step
            rw [ofText?_of_first? isFirst] at read
            obtain ⟨early, late, isEarly, isLate, rfl⟩ := exists_of_join read
            cases isEarly
            rw [ofText?_of_first? (first?_append_paren rest isFirst),
              ih _ (length ▸ length_first?_lt isFirst) isLate rfl,
              ← join_assoc]
            rfl

end Token

end BasicLowering.Target
