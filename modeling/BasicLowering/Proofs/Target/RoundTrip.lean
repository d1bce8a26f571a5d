import BasicLowering.Proofs.Target.WrittenForm

/-!
# Reading back what is written

The pieces of the written form are cut out of its text again: a mark stands
apart from what follows by a blank, or nothing that can follow it makes a longer
mark of it. The only pieces that are no tokens are the string literals with a
character that ends a line but is not escaped.

So an expression is read back as itself and as nothing else exactly if it has no
such literal.
-/

namespace BasicLowering.Target

open Grammar Piece
open Token (ofText? ofWord keywords marks join extendsNumber extendsMark hasRawNewLine
  join_assoc join_nil)

variable {alphabet : Alphabet} {value : Expr} {pieces first later : List Piece}

/-! ## Cutting -/

/-- The characters of a sequence of pieces. -/
def chars (pieces : List Piece) : List Char :=
  pieces.flatMap fun piece => piece.text.toList

theorem toList_textOf (pieces : List Piece) :
    (textOf pieces).toList = chars pieces := by
  induction pieces with
  | nil => rfl
  | cons piece pieces ih => simp_all [textOf, chars]

@[simp] theorem chars_nil : chars [] = [] :=
  rfl

@[simp] theorem chars_cons (piece : Piece) :
    chars (piece :: pieces) = piece.text.toList ++ chars pieces :=
  rfl

@[simp] theorem chars_append : chars (first ++ later) = chars first ++ chars later :=
  List.flatMap_append

/-- Whether a piece is a string literal that a line ends in. -/
def Piece.isBroken : Piece → Bool
  | quoted value => hasRawNewLine value.toList
  | _ => false

/-- The tokens of a sequence of pieces, if no line ends in it. -/
def tokensOf? (alphabet : Alphabet) (pieces : List Piece) :
    Option (List Token) :=
  if pieces.any isBroken then none else some (tokensOf alphabet pieces)

theorem tokensOf?_append : tokensOf? alphabet (first ++ later) =
    join (tokensOf? alphabet first) (tokensOf? alphabet later) := by
  unfold tokensOf?
  cases isFirst : first.any isBroken <;> cases isLater : later.any isBroken <;>
    simp [isFirst, isLater, join]

/-- Whether the characters of a sequence of pieces are cut into its tokens
wherever no part of a name or a number follows. -/
def IsCut (alphabet : Alphabet) (pieces : List Piece) : Prop :=
  ∀ rest, extendsNumber alphabet rest = false →
    ofText? alphabet (chars pieces ++ rest) =
      join (tokensOf? alphabet pieces) (ofText? alphabet rest)

/-- Whether a sequence of pieces may follow a name or a number. -/
def StandsApart (alphabet : Alphabet) (pieces : List Piece) : Prop :=
  ∀ rest, extendsNumber alphabet rest = false →
    extendsNumber alphabet (chars pieces ++ rest) = false

/-- Whether no mark is made longer by what a sequence of pieces begins with. -/
def Separates (sign : String) (pieces : List Piece) : Prop :=
  ∀ rest, ∀ next ∈ (chars pieces ++ rest).head?, extendsMark sign next = false

namespace StandsApart

theorem nil : StandsApart alphabet [] :=
  fun _ isApart => isApart

theorem blank : StandsApart alphabet (blank :: pieces) := by
  intro rest _
  simp [Piece.text, extendsNumber, Alphabet.isNamePart, Alphabet.isNameStart,
    show Char.isAlpha ' ' = false from rfl]

/-- A mark that does not begin with a point stands apart. -/
theorem mark {sign : String} (isMark : sign ∈ marks)
    (noPoint : sign.toList.head? ≠ some '.') :
    StandsApart alphabet (mark sign :: pieces) := by
  intro rest _
  obtain ⟨character, others, written, noLetter, noUnderscore, isAscii, noDigit,
    -⟩ := Token.first_of_mem_marks isMark
  rw [written] at noPoint
  have notWide : ¬ 128 ≤ character.val := UInt32.not_le.mpr isAscii
  have noPart : alphabet.isNamePart character = false := by
    simp [Alphabet.isNamePart, Alphabet.isNameStart, noLetter, noUnderscore,
      noDigit, notWide]
  rw [chars_cons, Piece.text, written, List.cons_append, List.cons_append,
    extendsNumber]
  · exact noPart
  · rintro _ _ rfl
    exact absurd rfl noPoint

/-- A name after a point is not the fraction of a number. -/
theorem member {text : String} (isName : IsName alphabet text) :
    StandsApart alphabet (.mark "." :: word text :: pieces) := by
  intro rest _
  obtain ⟨character, others, written, starts, -⟩ := isName
  have noDigit : character.isDigit = false := by
    cases isDigit : character.isDigit with
    | false => rfl
    | true => rw [Token.isNameStart_of_isDigit isDigit] at starts; cases starts
  simp [Piece.text, written, extendsNumber, noDigit]

end StandsApart

/-- Whether a character makes no mark longer. -/
def IsPlain (character : Char) : Prop :=
  ∀ found ∈ marks, character ∉ found.toList.tail

instance : DecidablePred IsPlain :=
  fun character => inferInstanceAs
    (Decidable (∀ found ∈ marks, character ∉ found.toList.tail))

theorem isPlain_of_isNamePart {character : Char}
    (isPart : alphabet.isNamePart character = true) : IsPlain character := by
  have all : ∀ found ∈ marks, found.toList.tail.all fun character =>
      character.isAlpha = false ∧ character ≠ '_' ∧ ¬ 128 ≤ character.val ∧
        character.isDigit = false := by decide
  intro found isMark isLater
  obtain ⟨noLetter, noUnderscore, isAscii, noDigit⟩ := of_decide_eq_true
    (List.all_eq_true.mp (all found isMark) character isLater)
  simp [Alphabet.isNamePart, Alphabet.isNameStart, noLetter, noUnderscore,
    isAscii, noDigit] at isPart

/-- Whether what a sequence of pieces begins with makes no mark longer. -/
def StartsPlain (pieces : List Piece) : Prop :=
  ∃ character ∈ (chars pieces).head?, IsPlain character

namespace StartsPlain

theorem append (starts : StartsPlain first) : StartsPlain (first ++ later) := by
  obtain ⟨character, isFirst, isPlain⟩ := starts
  obtain ⟨others, written⟩ := List.head?_eq_some_iff.mp isFirst
  exact ⟨character, by rw [chars_append, written]; rfl, isPlain⟩

theorem word_of_toList {text : String} {character : Char} {others : List Char}
    (written : text.toList = character :: others)
    (isPart : alphabet.isNamePart character = true) :
    StartsPlain (word text :: pieces) :=
  ⟨character, by rw [chars_cons, Piece.text, written]; rfl,
    isPlain_of_isNamePart isPart⟩

theorem name {text : String} (isName : IsName alphabet text) :
    StartsPlain (word text :: pieces) := by
  obtain ⟨character, others, written, starts, -⟩ := isName
  exact word_of_toList written
    (show alphabet.isNamePart character = true by
      simp [Alphabet.isNamePart, starts])

theorem number {text : String} (isNumber : IsNumber text) :
    StartsPlain (word text :: pieces) := by
  obtain ⟨character, others, written, starts, -⟩ := isNumber
  exact word_of_toList written
    (show Alphabet.isNamePart ⟨fun _ => false, fun _ => false⟩ character = true
      by simp [Alphabet.isNamePart, starts])

theorem fixedWord {text : String} (isFixed : text ∈ fixedWords) :
    StartsPlain (word text :: pieces) := by
  have all : ∀ text ∈ fixedWords,
      text.toList.head?.any fun character => IsPlain character := by decide
  obtain ⟨character, isFirst, isPlain⟩ :=
    (Option.any_eq_true _ _).mp (all text isFixed)
  obtain ⟨others, written⟩ := List.head?_eq_some_iff.mp isFirst
  exact ⟨character, by rw [chars_cons, Piece.text, written]; rfl,
    of_decide_eq_true isPlain⟩

end StartsPlain

namespace Separates

variable {sign : String}

/-- The character that would make a longer mark stands in a mark after the first
one. -/
theorem of_startsPlain (notEmpty : sign ≠ "") (starts : StartsPlain pieces) :
    Separates sign pieces := by
  obtain ⟨character, isFirst, isPlain⟩ := starts
  obtain ⟨others, written⟩ := List.head?_eq_some_iff.mp isFirst
  rintro rest next isNext
  rw [written] at isNext
  cases isNext
  rw [← Bool.not_eq_true]
  intro extended
  obtain ⟨found, isMark, isPrefix⟩ := List.any_eq_true.mp extended
  obtain ⟨tail, isTail⟩ := List.isPrefixOf_iff_prefix.mp isPrefix
  refine isPlain found isMark ?_
  rw [← isTail]
  cases inSign : sign.toList with
  | nil => exact absurd (String.toList_eq_nil_iff.mp inSign) notEmpty
  | cons => simp

theorem blank (notEmpty : sign ≠ "") : Separates sign (blank :: pieces) :=
  of_startsPlain notEmpty ⟨' ', rfl, by decide⟩

/-- Some marks are no part of a longer one. -/
theorem of_closed (isClosed : ∀ found ∈ marks,
    sign.toList.isPrefixOf found.toList = true → found = sign) :
    Separates sign pieces := by
  rintro rest next -
  rw [← Bool.not_eq_true]
  intro extended
  obtain ⟨found, isMark, isPrefix⟩ := List.any_eq_true.mp extended
  rw [List.isPrefixOf_iff_prefix] at isPrefix
  have same := isClosed found isMark
    (List.isPrefixOf_iff_prefix.mpr ((List.prefix_append _ _).trans isPrefix))
  have short := isPrefix.length_le
  rw [same, List.length_append, List.length_singleton] at short
  omega

end Separates

namespace IsCut

theorem nil : IsCut alphabet [] :=
  fun _ _ => (join_nil _).symm

theorem append (cut : IsCut alphabet first) (cutLater : IsCut alphabet later)
    (standsApart : StandsApart alphabet later) :
    IsCut alphabet (first ++ later) := by
  intro rest isApart
  rw [chars_append, List.append_assoc, cut _ (standsApart rest isApart),
    cutLater rest isApart, ← join_assoc, ← tokensOf?_append]

/-- A piece that is cut from what follows. -/
theorem cons {piece : Piece} (cut : IsCut alphabet pieces)
    (isFirst : ∀ rest, extendsNumber alphabet rest = false →
      ofText? alphabet (piece.text.toList ++ (chars pieces ++ rest)) =
        join (tokensOf? alphabet [piece])
          (ofText? alphabet (chars pieces ++ rest))) :
    IsCut alphabet (piece :: pieces) := by
  intro rest isApart
  rw [chars_cons, List.append_assoc, isFirst rest isApart, cut rest isApart,
    ← join_assoc, ← tokensOf?_append]
  rfl

theorem blank (cut : IsCut alphabet pieces) :
    IsCut alphabet (blank :: pieces) :=
  cut.cons fun _ _ => (Token.ofText?_blank _).trans (join_nil _).symm

theorem word {text : String} {token : Token} (cut : IsCut alphabet pieces)
    (isToken : IsToken alphabet text token)
    (standsApart : StandsApart alphabet pieces) :
    IsCut alphabet (word text :: pieces) := by
  refine cut.cons fun rest isApart => ?_
  have isWord : tokensOf? alphabet [Piece.word text] = some [token] :=
    congrArg some isToken.tokensOf_word
  rw [isWord]
  exact isToken _ (standsApart rest isApart)

theorem quoted (text : String) (cut : IsCut alphabet pieces) :
    IsCut alphabet (quoted text :: pieces) := by
  refine cut.cons fun rest _ => ?_
  have isLiteral : tokensOf? alphabet [Piece.quoted text] =
      if hasRawNewLine text.toList then none else some [.text text] := by
    simp [tokensOf?, isBroken]
  rw [isLiteral]
  exact Token.ofText?_literal text _

theorem mark {sign : String} (cut : IsCut alphabet pieces)
    (isMark : sign ∈ marks) (noComment : ¬ (sign = "//" ∨ sign = "/*"))
    (separates : Separates sign pieces) :
    IsCut alphabet (mark sign :: pieces) :=
  cut.cons fun rest _ => Token.ofText?_mark isMark noComment (separates rest)

/-- A bracket or a comma is cut from whatever follows. -/
theorem closed {sign : String} (cut : IsCut alphabet pieces)
    (isMark : sign ∈ ["(", ")", "[", "]", "\x7b", "\x7d", ","]) :
    IsCut alphabet (Piece.mark sign :: pieces) := by
  have all : ∀ sign ∈ ["(", ")", "[", "]", "\x7b", "\x7d", ","],
      sign ∈ marks ∧ ¬ (sign = "//" ∨ sign = "/*") ∧ ∀ found ∈ marks,
        sign.toList.isPrefixOf found.toList = true → found = sign := by decide
  obtain ⟨isMark, noComment, isClosed⟩ := all sign isMark
  exact cut.mark isMark noComment (.of_closed isClosed)

/-- A mark with a blank after it. -/
theorem spaced {sign : String} (cut : IsCut alphabet pieces)
    (isMark : sign ∈ marks) (noComment : ¬ (sign = "//" ∨ sign = "/*")) :
    IsCut alphabet (Piece.mark sign :: Piece.blank :: pieces) := by
  refine cut.blank.mark isMark noComment (.blank ?_)
  rintro rfl
  exact absurd isMark (by decide)

theorem enclose (needed : Bool) (cut : IsCut alphabet pieces) :
    IsCut alphabet (enclose needed pieces) := by
  cases needed with
  | false => exact cut
  | true =>
      exact (cut.append (nil.closed (by decide))
        (.mark (by decide) (by decide))).closed (by decide)

end IsCut

/-! ## Expressions -/

/-- What stands before a suffix makes no mark longer. -/
theorem startsPlain_enclose
    (starts : Precedence.unary ≤ value.precedence →
      (∃ operator operand, value = .unary operator operand) ∨
        StartsPlain value.pieces) :
    StartsPlain
      (enclose (value.precedence < Precedence.primary) value.pieces) := by
  by_cases needed : value.precedence < Precedence.primary
  · rw [decide_eq_true needed]
    exact ⟨'(', rfl, by decide⟩
  · rw [decide_eq_false needed]
    have isPrimary := not_lt.mp needed
    obtain ⟨_, _, rfl⟩ | starts := starts (le_trans (by decide) isPrimary)
    · exact absurd (show Precedence.unary < Precedence.primary by decide) needed
    · exact starts

/-- An operand begins with the sign of a unary operator, or with a character
that makes no mark longer. -/
theorem IsWritable.startsPlain [Spelling] (writable : IsWritable alphabet value)
    (isOperand : Precedence.unary ≤ value.precedence) :
    (∃ operator operand, value = .unary operator operand) ∨
      StartsPlain value.pieces := by
  induction writable with
  | unary operator => exact .inl ⟨_, _, rfl⟩
  | identifier isName => exact .inr (by rw [Expr.pieces]; exact .name isName)
  | number isNumber => exact .inr (by rw [Expr.pieces]; exact .number isNumber)
  | this | base | null =>
      exact .inr (by rw [Expr.pieces]; exact .fixedWord (by decide))
  | boolean truth =>
      cases truth <;>
        exact .inr (by rw [Expr.pieces]; exact .fixedWord (by decide))
  | string text =>
      refine .inr ⟨'"', ?_, by decide⟩
      rw [Expr.pieces, chars_cons, Piece.text, Quoted.literal,
        String.toList_ofList]
      rfl
  | member _ _ ih | conditionalMember _ _ ih | element _ _ ih =>
      exact .inr (by rw [Expr.pieces]; exact (startsPlain_enclose ih).append)
  | call _ _ _ ih =>
      exact .inr (by rw [Expr.pieces]; exact (startsPlain_enclose ih).append)
  | new => exact .inr (by rw [Expr.pieces]; exact .fixedWord (by decide))
  | @anonymousObject entries =>
      refine .inr ?_
      cases entries with
      | nil => rw [Expr.pieces]; exact .fixedWord (by decide)
      | cons =>
          rw [Expr.pieces]
          · exact .fixedWord (by decide)
          · simp
  | binary operator =>
      have below : ∀ operator : BinaryOperator,
          operator.precedence < Precedence.unary := by
        rintro ⟨⟩ <;> decide
      exact absurd isOperand (below operator).not_ge
  | conditional | test =>
      refine absurd isOperand (not_le.mpr ?_)
      simp only [Expr.precedence]
      decide
  | cast => exact .inr ⟨'(', rfl, by decide⟩

/-- A sign is cut from its operand. -/
theorem IsWritable.separates [Spelling] (writable : IsWritable alphabet value)
    (operator : UnaryOperator) :
    Separates operator.spelling
      ((if operator.needsBlank value then [blank] else []) ++
        enclose (value.precedence < Precedence.unary) value.pieces) := by
  have notEmpty : operator.spelling ≠ "" := by cases operator <;> decide
  by_cases needsBlank : operator.needsBlank value
  · rw [if_pos needsBlank]
    exact .blank notEmpty
  · rw [if_neg needsBlank, List.nil_append]
    by_cases needed : value.precedence < Precedence.unary
    · rw [decide_eq_true needed]
      exact .of_startsPlain notEmpty ⟨'(', rfl, by decide⟩
    · rw [decide_eq_false needed, enclose, if_neg (by decide)]
      obtain ⟨inner, operand, rfl⟩ | starts :=
        writable.startsPlain (not_lt.mp needed)
      · -- Only a sign that is written twice makes a longer mark.
        rintro rest next isNext
        cases operator <;> cases inner <;> cases isNext <;>
          first | decide | exact absurd rfl needsBlank
      · exact .of_startsPlain notEmpty starts

namespace IsCut

theorem pattern {pattern : Pattern}
    (writable : IsWritablePattern alphabet pattern) :
    IsCut alphabet pattern.pieces := by
  induction pattern with
  | anything text =>
      have isName : IsName alphabet text := writable
      exact (nil.word isName.isToken .nil).blank.word
        (isToken_fixedWord "var" (by decide)) .blank
  | notNull label =>
      cases label with
      | none => exact (nil.closed (by decide)).blank.closed (by decide)
      | some text =>
          have isName : IsName alphabet text := writable
          exact ((nil.word isName.isToken .nil).blank.closed
            (by decide)).blank.closed (by decide)
  | null => exact nil.word (isToken_fixedWord "null" (by decide)) .nil
  | type text =>
      have isName : IsName alphabet text := writable
      exact nil.word isName.isToken .nil
  | not inner ih =>
      exact (ih writable).blank.word (isToken_fixedWord "not" (by decide)) .blank

theorem separated {items : List (List Piece)}
    (cutEach : ∀ item ∈ items, IsCut alphabet item) :
    IsCut alphabet (separated items) := by
  fun_induction Piece.separated items with
  | case1 => exact nil
  | case2 item => exact cutEach item (by simp)
  | case3 item rest _ ih =>
      have cutRest := ih fun other isItem =>
        cutEach other (List.mem_cons_of_mem _ isItem)
      exact (cutEach item List.mem_cons_self).append
        (cutRest.blank.closed (by decide)) (.mark (by decide) (by decide))

theorem labelled {sign : List Piece} {label : Option String}
    (cutSign : ∀ {pieces : List Piece}, IsCut alphabet pieces →
      IsCut alphabet (sign ++ .blank :: pieces))
    (standsApart : ∀ {pieces : List Piece},
      StandsApart alphabet (sign ++ .blank :: pieces))
    (isName : ∀ text ∈ label, IsName alphabet text)
    (cut : IsCut alphabet pieces) :
    IsCut alphabet (labelledPieces sign label pieces) := by
  cases label with
  | none => exact cut
  | some text => exact (cutSign cut).word (isName text rfl).isToken standsApart

variable {entries : List (Option String × Expr)}

theorem arguments
    (areNames : ∀ entry ∈ entries, ∀ text ∈ entry.1, IsName alphabet text)
    (cutEach : ∀ entry ∈ entries, IsCut alphabet entry.2.pieces) :
    IsCut alphabet (Piece.separated (Expr.piecesOfEach
      (entries.map fun entry => argument entry.1 entry.2))) := by
  refine separated ?_
  rw [piecesOfEach_eq_map, List.map_map]
  simp only [List.mem_map, Function.comp_apply, forall_exists_index, and_imp,
    forall_apply_eq_imp_iff₂]
  intro entry isEntry
  rw [pieces_argument]
  exact labelled (fun cut => cut.spaced (by decide) (by decide))
    (.mark (by decide) (by decide)) (areNames entry isEntry)
    (cutEach entry isEntry)

theorem fields
    (areNames : ∀ entry ∈ entries, ∀ text ∈ entry.1, IsName alphabet text)
    (cutEach : ∀ entry ∈ entries, IsCut alphabet entry.2.pieces) :
    IsCut alphabet (Piece.separated (Expr.piecesOfFields entries)) := by
  refine separated ?_
  rw [piecesOfFields_eq_map]
  simp only [List.mem_map, forall_exists_index, and_imp,
    forall_apply_eq_imp_iff₂]
  intro entry isEntry
  exact labelled (fun cut => (cut.spaced (by decide) (by decide)).blank)
    .blank (areNames entry isEntry) (cutEach entry isEntry)

end IsCut

/-- The tokens of an expression are cut out of its text. -/
theorem IsWritable.isCut [Spelling] (writable : IsWritable alphabet value) :
    IsCut alphabet value.pieces := by
  have fixed {text : String} {pieces : List Piece}
      (isFixed : text ∈ fixedWords) (cut : IsCut alphabet pieces)
      (standsApart : StandsApart alphabet pieces) :
      IsCut alphabet (word text :: pieces) :=
    cut.word (isToken_fixedWord text isFixed) standsApart
  induction writable with
  | identifier isName | number isName =>
      rw [Expr.pieces]
      exact .word .nil isName.isToken .nil
  | this | base | null =>
      rw [Expr.pieces]
      exact fixed (by decide) .nil .nil
  | boolean truth =>
      cases truth <;> (rw [Expr.pieces]; exact fixed (by decide) .nil .nil)
  | string text =>
      rw [Expr.pieces]
      exact .quoted text .nil
  | member _ isName ih =>
      rw [Expr.pieces]
      refine (ih.enclose _).append ?_ (.member isName)
      exact (IsCut.nil.word isName.isToken .nil).mark (by decide) (by decide)
        (.of_startsPlain (by decide) (.name isName))
  | conditionalMember _ isName ih =>
      rw [Expr.pieces]
      refine (ih.enclose _).append ?_ (.mark (by decide) (by decide))
      exact (IsCut.nil.word isName.isToken .nil).mark (by decide) (by decide)
        (.of_startsPlain (by decide) (.name isName))
  | element _ _ ih ihIndex =>
      rw [Expr.pieces]
      refine (ih.enclose _).append ?_ (.mark (by decide) (by decide))
      exact (ihIndex.append (IsCut.nil.closed (by decide))
        (.mark (by decide) (by decide))).closed (by decide)
  | call _ areNames _ ih ihEach =>
      rw [Expr.pieces]
      exact (ih.enclose _).append ((IsCut.arguments areNames ihEach).enclose true)
        (.mark (by decide) (by decide))
  | new isName areNames _ ihEach =>
      rw [Expr.pieces]
      exact fixed (by decide) (((IsCut.arguments areNames ihEach).enclose
        true).word isName.isToken (.mark (by decide) (by decide))).blank .blank
  | @anonymousObject entries areNames _ ihEach =>
      have cut := IsCut.fields areNames ihEach
      have closing : IsCut alphabet [blank, rightBrace] :=
        (IsCut.nil.closed (by decide)).blank
      cases entries with
      | nil =>
          rw [Expr.pieces]
          exact fixed (by decide) (closing.closed (by decide)).blank .blank
      | cons =>
          rw [Expr.pieces]
          · exact fixed (by decide)
              ((cut.append closing .blank).blank.closed (by decide)).blank .blank
          · simp
  | binary operator _ _ ih ihRight =>
      have isMark : operator.spelling ∈ marks ∧
          ¬ (operator.spelling = "//" ∨ operator.spelling = "/*") := by
        cases operator <;> decide
      rw [Expr.pieces]
      exact (ih.enclose _).append
        ((ihRight.enclose _).spaced isMark.1 isMark.2).blank .blank
  | @unary operand operator writable ih =>
      have isMark : operator.spelling ∈ marks ∧
          ¬ (operator.spelling = "//" ∨ operator.spelling = "/*") := by
        cases operator <;> decide
      rw [Expr.pieces]
      refine IsCut.mark ?_ isMark.1 isMark.2 (writable.separates operator)
      split
      · exact (ih.enclose _).blank
      · exact ih.enclose _
  | conditional _ _ _ ih ihTrue ihFalse =>
      rw [Expr.pieces]
      refine (ih.enclose _).append (.blank (.spaced ?_ (by decide) (by decide)))
        .blank
      exact (ihTrue.enclose _).append
        ((ihFalse.enclose _).spaced (by decide) (by decide)).blank .blank
  | test _ writablePattern ih =>
      rw [Expr.pieces]
      exact (ih.enclose _).append
        (fixed (by decide) (IsCut.pattern writablePattern).blank .blank).blank
        .blank
  | @cast text operand isType _ ih =>
      obtain ⟨tokens, areTokens, -⟩ := isType
      have cut := (ih.enclose (operand.precedence < Precedence.unary)).closed
        (show ")" ∈ ["(", ")", "[", "]", "\x7b", "\x7d", ","] by decide)
      rw [Expr.pieces]
      refine IsCut.closed (cut.cons fun rest _ => ?_) (by decide)
      have isWord : tokensOf? alphabet [word text] = some tokens :=
        congrArg some ((tokensOf_word areTokens).trans (List.append_nil _))
      rw [isWord]
      exact Token.ofText?_append_paren _ areTokens

theorem IsWritable.ofText?_toText [Spelling] (writable : IsWritable alphabet value) :
    ofText? alphabet value.toText.toList = tokensOf? alphabet value.pieces := by
  have cut := writable.isCut [] rfl
  rw [List.append_nil, Token.ofText?_nil] at cut
  rw [Expr.toText, toList_textOf, cut]
  cases tokensOf? alphabet value.pieces <;> simp [join]

/-! ## Casts to nullable types -/

/-- No expression begins with a type that has a keyword for a name. -/
theorem Grammar.not_reads_predefined [Spelling] {level : Level} {word : String}
    {tokens : List Token} (isPredefined : word ∈ predefinedTypes) :
    ¬ Reads level (.keyword word :: tokens) value := by
  intro reads
  obtain ⟨start, rest, held, operand, same, begins, -⟩ := reads.isReached
  have noOperand : word ∉ ["this", "base", "null", "true", "false", "new"] := by
    have all : ∀ word ∈ predefinedTypes,
        word ∉ ["this", "base", "null", "true", "false", "new"] := by decide
    exact all word isPredefined
  cases begins with
  | atom isAtom => cases isAtom <;> cases same <;> exact noOperand (by decide)
  | new | anonymousObject => cases same; exact noOperand (by decide)
  | parenthesized | unary | cast => cases same

/-- The type of the casts that are written where a truth value may be null. -/
theorem isCastType_boolean [Spelling]
    (isSpelled : Spelling.typeName [.keyword "bool", .mark "?"] = "bool?") :
    IsCastType alphabet "bool?" := by
  refine ⟨[.keyword "bool", .mark "?"], ?_, .nullable (.predefined (by decide)),
    isSpelled, fun _ => not_reads_predefined (by decide)⟩
  have isWord : IsToken alphabet "bool" (ofWord "bool") := by
    refine isToken_ofWord (show "bool".toList = ['b', 'o', 'o', 'l'] by decide)
      (by rw [Alphabet.isNameStart, show Char.isAlpha 'b' = true from rfl]; rfl) ?_
    simp [Alphabet.isNamePart, Alphabet.isNameStart,
      show Char.isAlpha 'o' = true from rfl, show Char.isAlpha 'l' = true from rfl]
  have apart : extendsNumber alphabet ['?'] = false := by
    simp [extendsNumber, Alphabet.isNamePart, Alphabet.isNameStart,
      show Char.isAlpha '?' = false from rfl]
  have isMark := @Token.ofText?_mark alphabet [] "?" (by decide) (by decide)
    fun next isNext => absurd isNext (Option.not_mem_none next)
  rw [Token.ofText?_nil] at isMark
  exact (isWord ['?'] apart).trans (congrArg (join _) isMark)

/-- The text of an expression is cut into tokens that are read as the expression
and as no other, exactly if no line ends in one of its string literals. -/
theorem reads_toText_iff [Spelling] (writable : IsWritable alphabet value) :
    (∃ tokens, ofText? alphabet value.toText.toList = some tokens ∧
      ∀ other, Reads Level.conditional tokens other ↔ other = value) ↔
    ∀ piece ∈ value.pieces, piece.isBroken = false := by
  rw [writable.ofText?_toText, tokensOf?]
  simp only [← Bool.not_eq_true]
  rw [← List.any_eq_false, ← Bool.not_eq_true]
  by_cases broken : value.pieces.any isBroken = true
  · simp [broken]
  · rw [if_neg broken]
    exact iff_of_true ⟨_, rfl, fun _ => writable.determines.reads_iff⟩ broken

/-- No character beyond ASCII stands in a name. -/
def asciiAlphabet : Alphabet :=
  ⟨fun _ => false, fun _ => false⟩

/-- No blank stands in a type. -/
@[reducible] def denseSpelling : Spelling :=
  ⟨fun tokens => String.join (tokens.map fun
    | .name text | .keyword text | .number text | .mark text => text
    | .text value => Quoted.literal value)⟩

/-- A test, a call with a label and a cast, all in one expression. -/
def castOfDoubledSign : Expr :=
  .conditional
    (.test (.call (.identifier "find") [.namedArgument "key" (.string "a\"b")])
      (.not (.notNull (some "found"))))
    (.cast "bool?" (.unary .minus (.unary .minus (.number "1"))))
    (.binary .this .subtract (.binary .this .subtract .base))

example : castOfDoubledSign.toText =
    "find(key: \"a\\\"b\") is not \x7b \x7d found ? (bool?)- -1 : " ++
      "this - (this - base)" := by
  decide +kernel

theorem castOfDoubledSign_readBack :
    let _ := denseSpelling
    IsWritable asciiAlphabet castOfDoubledSign ∧
      ∃ tokens, ofText? asciiAlphabet castOfDoubledSign.toText.toList =
          some tokens ∧
        ∀ other, Reads Level.conditional tokens other ↔
          other = castOfDoubledSign := by
  let _ := denseSpelling
  have name {text : String} (isName :
      text.toList.head?.any asciiAlphabet.isNameStart ∧
      text.toList.tail.all asciiAlphabet.isNamePart ∧
      text ∉ keywords ∧ text ≠ "var" ∧ text ≠ "not") :
      IsName asciiAlphabet text := by
    obtain ⟨hasFirst, goesOn, notFixed⟩ := isName
    obtain ⟨first, isFirst, starts⟩ := (Option.any_eq_true _ _).mp hasFirst
    obtain ⟨others, written⟩ := List.head?_eq_some_iff.mp isFirst
    rw [written, List.tail_cons, List.all_eq_true] at goesOn
    exact ⟨first, others, written, starts, goesOn, notFixed⟩
  have called : IsWritable asciiAlphabet
      (.call (.identifier "find") [.namedArgument "key" (.string "a\"b")]) := by
    refine @IsWritable.call asciiAlphabet _ _ [(some "key", .string "a\"b")]
      (.identifier (name (by decide))) ?_ ?_
    · rintro _ (_ | ⟨_, ⟨⟩⟩) _ ⟨⟩
      exact name (by decide)
    · rintro _ (_ | ⟨_, ⟨⟩⟩)
      exact .string _
  have writable : IsWritable asciiAlphabet castOfDoubledSign :=
    .conditional
      (.test called (show IsName asciiAlphabet "found" from
        name (by decide)))
      (.cast (isCastType_boolean (by decide)) (.unary _ (.unary _
        (.number ⟨'1', [], by decide, by decide, nofun⟩))))
      (.binary _ .this (.binary _ .this .base))
  exact ⟨writable, (reads_toText_iff writable).mpr (by decide +kernel)⟩

/-- A character that separates lines is not escaped. -/
theorem lineSeparator_unreadable :
    let _ := denseSpelling
    IsWritable asciiAlphabet (.string "\u2028") ∧
      ofText? asciiAlphabet (Expr.string "\u2028").toText.toList = none := by
  let _ := denseSpelling
  have writable : IsWritable asciiAlphabet (.string "\u2028") := .string _
  refine ⟨writable, ?_⟩
  rw [writable.ofText?_toText]
  decide +kernel

end BasicLowering.Target
