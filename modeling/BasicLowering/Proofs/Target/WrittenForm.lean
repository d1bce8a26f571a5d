import BasicLowering.Proofs.Target.Unambiguity

/-!
# The tokens of the written form

An expression whose names, numbers and types are tokens is written as tokens
that determine it. The parentheses are the ones that an operand needs to be held
together as tightly as its place asks for, and no operation in parentheses is
read as a cast.
-/

namespace BasicLowering.Target

open Grammar Piece
open Token (ofText? ofWord keywords join extendsNumber ofText?_nil)

variable (alphabet : Alphabet)

/-- Whether a text is a name that neither the language nor a pattern reserves. -/
def IsName (text : String) : Prop :=
  ∃ first others, text.toList = first :: others ∧
    alphabet.isNameStart first = true ∧
    (∀ other ∈ others, alphabet.isNamePart other = true) ∧
    text ∉ keywords ∧ text ≠ "var" ∧ text ≠ "not"

/-- Whether a text is a string of digits. -/
def IsNumber (text : String) : Prop :=
  ∃ first others, text.toList = first :: others ∧
    first.isDigit = true ∧ ∀ other ∈ others, other.isDigit = true

/-- Whether a text is the spelling of a type, and could not be read as an
expression in its place. -/
def IsCastType [Spelling] (text : String) : Prop :=
  ∃ tokens, ofText? alphabet text.toList = some tokens ∧ IsType tokens ∧
    Spelling.typeName tokens = text ∧
      ∀ value, ¬ Reads Level.conditional tokens value

/-- Whether the names of a pattern are names. -/
def IsWritablePattern : Pattern → Prop
  | .anything text | .type text | .notNull (some text) => IsName alphabet text
  | .notNull none | .null => True
  | .not inner => IsWritablePattern inner

/-- Whether the names, numbers and types of an expression are tokens, and labels
stand only on arguments and fields. -/
inductive IsWritable [Spelling] : Expr → Prop
  | identifier {text : String} (isName : IsName alphabet text) :
      IsWritable (.identifier text)
  | this : IsWritable .this
  | base : IsWritable .base
  | null : IsWritable .null
  | boolean (value : Bool) : IsWritable (.boolean value)
  | number {text : String} (isNumber : IsNumber text) :
      IsWritable (.number text)
  | string (value : String) : IsWritable (.string value)
  | member {receiver : Expr} {text : String} (writable : IsWritable receiver)
      (isName : IsName alphabet text) : IsWritable (.member receiver text)
  | conditionalMember {receiver : Expr} {text : String}
      (writable : IsWritable receiver) (isName : IsName alphabet text) :
      IsWritable (.conditionalMember receiver text)
  | element {receiver index : Expr} (writable : IsWritable receiver)
      (writableIndex : IsWritable index) : IsWritable (.element receiver index)
  | call {callee : Expr} {entries : List (Option String × Expr)}
      (writable : IsWritable callee)
      (areNames : ∀ entry ∈ entries, ∀ text ∈ entry.1, IsName alphabet text)
      (writableEach : ∀ entry ∈ entries, IsWritable entry.2) :
      IsWritable
        (.call callee (entries.map fun entry => argument entry.1 entry.2))
  | new {text : String} {entries : List (Option String × Expr)}
      (isName : IsName alphabet text)
      (areNames : ∀ entry ∈ entries, ∀ text ∈ entry.1, IsName alphabet text)
      (writableEach : ∀ entry ∈ entries, IsWritable entry.2) :
      IsWritable
        (.new text (entries.map fun entry => argument entry.1 entry.2))
  | anonymousObject {entries : List (Option String × Expr)}
      (areNames : ∀ entry ∈ entries, ∀ text ∈ entry.1, IsName alphabet text)
      (writableEach : ∀ entry ∈ entries, IsWritable entry.2) :
      IsWritable (.anonymousObject entries)
  | binary {left right : Expr} (operator : BinaryOperator)
      (writable : IsWritable left) (writableRight : IsWritable right) :
      IsWritable (.binary left operator right)
  | unary {operand : Expr} (operator : UnaryOperator)
      (writable : IsWritable operand) : IsWritable (.unary operator operand)
  | conditional {condition whenTrue whenFalse : Expr}
      (writable : IsWritable condition) (writableTrue : IsWritable whenTrue)
      (writableFalse : IsWritable whenFalse) :
      IsWritable (.conditional condition whenTrue whenFalse)
  | test {operand : Expr} {pattern : Pattern} (writable : IsWritable operand)
      (writablePattern : IsWritablePattern alphabet pattern) :
      IsWritable (.test operand pattern)
  | cast {text : String} {operand : Expr} (isType : IsCastType alphabet text)
      (writable : IsWritable operand) : IsWritable (.cast text operand)

/-! ## Tokens of the written form -/

/-- The tokens of a piece. -/
def Piece.tokens : Piece → List Token
  | word text => (ofText? alphabet text.toList).getD []
  | mark text => [.mark text]
  | quoted value => [.text value]
  | blank => []

/-- The tokens of a sequence of pieces. -/
def tokensOf (pieces : List Piece) : List Token :=
  pieces.flatMap (Piece.tokens alphabet)

/-- The tokens of the written form of an expression. -/
def Expr.tokens (value : Expr) : List Token :=
  tokensOf alphabet value.pieces

/-- The level of a binary operator. -/
def operatorLevel (operator : BinaryOperator) : Level :=
  match operator with
  | .logicalOr => Level.logicalOr
  | .logicalAnd => Level.logicalAnd
  | .bitOr => Level.bitOr
  | .exclusiveOr => Level.exclusiveOr
  | .bitAnd => Level.bitAnd
  | .equal | .notEqual => Level.equality
  | .less | .lessOrEqual | .greater | .greaterOrEqual => Level.relational
  | .add | .subtract => Level.additive
  | .multiply | .divide | .modulo => Level.multiplicative

/-- The level of an expression. -/
def Expr.level : Expr → Level
  | .binary _ operator _ => operatorLevel operator
  | .conditional .. => Level.conditional
  | .test .. => Level.relational
  | .unary .. | .cast .. => Level.unary
  | _ => Level.primary

theorem operator?_spelling (operator : BinaryOperator) :
    operator? operator.spelling = some (operatorLevel operator, operator) := by
  cases operator <;> decide

theorem prefixOperator?_spelling (operator : UnaryOperator) :
    prefixOperator? operator.spelling = some operator := by
  cases operator <;> decide

variable {alphabet : Alphabet} {value : Expr} {pieces : List Piece}

@[simp] theorem tokensOf_nil : tokensOf alphabet [] = [] :=
  rfl

@[simp] theorem tokensOf_append (left right : List Piece) :
    tokensOf alphabet (left ++ right) =
      tokensOf alphabet left ++ tokensOf alphabet right :=
  List.flatMap_append

@[simp] theorem tokensOf_mark (text : String) :
    tokensOf alphabet (mark text :: pieces) =
      .mark text :: tokensOf alphabet pieces :=
  rfl

@[simp] theorem tokensOf_blank :
    tokensOf alphabet (blank :: pieces) = tokensOf alphabet pieces :=
  rfl

@[simp] theorem tokensOf_quoted (text : String) :
    tokensOf alphabet (quoted text :: pieces) =
      .text text :: tokensOf alphabet pieces :=
  rfl

theorem tokensOf_word {text : String} {tokens : List Token}
    (read : ofText? alphabet text.toList = some tokens) :
    tokensOf alphabet (word text :: pieces) =
      tokens ++ tokensOf alphabet pieces := by
  simp [tokensOf, Piece.tokens, read]

/-! ### Words -/

/-- Whether a text is one token wherever no part of a name or a number
follows. -/
def IsToken (alphabet : Alphabet) (text : String) (token : Token) : Prop :=
  ∀ rest, extendsNumber alphabet rest = false →
    ofText? alphabet (text.toList ++ rest) =
      join (some [token]) (ofText? alphabet rest)

/-- What follows a number may follow a name. -/
theorem isNamePart_eq_false {rest : List Char}
    (isApart : extendsNumber alphabet rest = false) :
    ∀ next ∈ rest.head?, alphabet.isNamePart next = false := by
  rintro next isNext
  cases rest with
  | nil => cases isNext
  | cons first rest =>
      cases isNext
      unfold extendsNumber at isApart
      split at isApart
      · next same =>
          cases same
          simp [Alphabet.isNamePart, Alphabet.isNameStart,
            show Char.isAlpha '.' = false from rfl]
      · next same => cases same; exact isApart
      · next isNil => cases isNil

theorem IsToken.ofText? {text : String} {token : Token}
    (isToken : IsToken alphabet text token) :
    ofText? alphabet text.toList = some [token] := by
  have whole := isToken [] rfl
  rwa [List.append_nil, ofText?_nil] at whole

theorem IsToken.tokensOf_word {text : String} {token : Token}
    (isToken : IsToken alphabet text token) :
    tokensOf alphabet (word text :: pieces) =
      token :: tokensOf alphabet pieces :=
  Target.tokensOf_word isToken.ofText?

/-- A word that begins like a name is one token. -/
theorem isToken_ofWord {text : String} {first : Char} {others : List Char}
    (written : text.toList = first :: others)
    (starts : alphabet.isNameStart first = true)
    (goesOn : ∀ other ∈ others, alphabet.isNamePart other = true) :
    IsToken alphabet text (ofWord text) := by
  intro rest isApart
  have cut := Token.ofText?_word starts goesOn (isNamePart_eq_false isApart)
  rwa [← List.cons_append, ← written, String.ofList_toList] at cut

theorem IsName.isToken {text : String} (isName : IsName alphabet text) :
    IsToken alphabet text (.name text) := by
  obtain ⟨first, others, written, starts, goesOn, notKeyword, -⟩ := isName
  have whole := isToken_ofWord written starts goesOn
  rwa [ofWord, if_neg notKeyword] at whole

theorem IsNumber.isToken {text : String} (isNumber : IsNumber text) :
    IsToken alphabet text (.number text) := by
  obtain ⟨first, others, written, starts, goesOn⟩ := isNumber
  intro rest isApart
  have cut := Token.ofText?_number starts goesOn isApart
  rwa [← List.cons_append, ← written, String.ofList_toList] at cut

/-- The words that are written between the names and numbers. -/
def fixedWords : List String :=
  ["this", "base", "null", "true", "false", "new", "is", "var", "not"]

theorem isToken_fixedWord (text : String) (isFixed : text ∈ fixedWords) :
    IsToken alphabet text (ofWord text) := by
  have letters : ∀ text ∈ fixedWords,
      text.toList.head?.any Char.isAlpha ∧
        text.toList.tail.all Char.isAlpha := by decide
  obtain ⟨hasFirst, goesOn⟩ := letters text isFixed
  obtain ⟨first, isFirst, starts⟩ := (Option.any_eq_true _ _).mp hasFirst
  obtain ⟨others, written⟩ := List.head?_eq_some_iff.mp isFirst
  rw [written, List.tail_cons, List.all_eq_true] at goesOn
  refine isToken_ofWord written (by simp [Alphabet.isNameStart, starts])
    fun other isOther => ?_
  simp [Alphabet.isNamePart, Alphabet.isNameStart, goesOn other isOther]

theorem tokensOf_fixedWord (text : String) (isFixed : text ∈ fixedWords) :
    tokensOf alphabet (word text :: pieces) =
      ofWord text :: tokensOf alphabet pieces :=
  (isToken_fixedWord text isFixed).tokensOf_word

/-! ### Lists -/

/-- The pieces of an entry with its label. -/
def labelledPieces (sign : List Piece) (label : Option String)
    (pieces : List Piece) : List Piece :=
  match label with
  | none => pieces
  | some text => word text :: (sign ++ blank :: pieces)

theorem pieces_argument (label : Option String) (value : Expr) :
    (argument label value).pieces =
      labelledPieces [mark ":"] label value.pieces := by
  cases label
  · rfl
  · rw [argument, Expr.pieces]
    rfl

theorem piecesOfEach_eq_map (values : List Expr) :
    Expr.piecesOfEach values = values.map Expr.pieces := by
  induction values with
  | nil => rw [Expr.piecesOfEach]; rfl
  | cons value values ih => rw [Expr.piecesOfEach, ih]; rfl

theorem piecesOfFields_eq_map (fields : List (Option String × Expr)) :
    Expr.piecesOfFields fields = fields.map fun field =>
      labelledPieces [blank, mark "="] field.1 field.2.pieces := by
  induction fields with
  | nil => rw [Expr.piecesOfFields]; rfl
  | cons field fields ih =>
      obtain ⟨_ | text, value⟩ := field <;>
        rw [Expr.piecesOfFields, ih] <;> rfl

theorem tokensOf_labelledPieces {sign : String} {signPieces : List Piece}
    (isSign : tokensOf alphabet signPieces = [.mark sign])
    {label : Option String} (isName : ∀ text ∈ label, IsName alphabet text) :
    tokensOf alphabet (labelledPieces signPieces label pieces) =
      labelled sign label (tokensOf alphabet pieces) := by
  cases label with
  | none => rfl
  | some text =>
      simp [labelledPieces, labelled, (isName text rfl).isToken.tokensOf_word,
        isSign]

theorem tokensOf_separated (items : List (List Piece)) :
    tokensOf alphabet (separated items) =
      commaSeparated (items.map (tokensOf alphabet)) := by
  fun_induction separated items with
  | case1 | case2 => rfl
  | case3 item rest notNil ih =>
      obtain ⟨next, rest, rfl⟩ := List.exists_cons_of_ne_nil notNil
      simp [ih, commaSeparated]

/-! ## The written form determines the expression -/

/-- The precedence of what is held together at a level. -/
def Level.precedence (level : Level) : Nat :=
  [Precedence.conditional, Precedence.logicalOr, Precedence.logicalAnd,
    Precedence.bitOr, Precedence.exclusiveOr, Precedence.bitAnd,
    Precedence.equality, Precedence.relational, Precedence.additive,
    Precedence.multiplicative, Precedence.unary].getD level Precedence.primary

theorem precedence_operatorLevel (operator : BinaryOperator) :
    operator.precedence = (operatorLevel operator).precedence := by
  cases operator <;> rfl

theorem IsWritable.precedence_eq [Spelling] (writable : IsWritable alphabet value) :
    value.precedence = value.level.precedence := by
  cases writable with
  | binary operator => exact precedence_operatorLevel operator
  | _ => rfl

theorem Expr.level_le_primary (value : Expr) : value.level ≤ Level.primary := by
  have below (operator : BinaryOperator) :
      operatorLevel operator ≤ Level.primary := by
    cases operator <;> decide
  cases value with
  | binary _ operator => exact below operator
  | conditional | test | unary | cast => simp only [Expr.level]; decide
  | _ => exact le_rfl

/-- An expression that is not primary is made with an operator. -/
theorem Expr.isOperation_of_level_lt (loose : value.level < Level.primary) :
    isOperation value = true := by
  cases value with
  | binary | conditional | test | unary | cast => rfl
  | _ => exact absurd loose (lt_irrefl _)

/-- A precedence is lower exactly if the level is looser. -/
theorem Level.precedence_lt_iff {first second : Level}
    (isLevel : first ≤ primary) (isLevel' : second ≤ primary) :
    first.precedence < second.precedence ↔ first < second := by
  have all : ∀ first < 12, ∀ second < 12,
      Level.precedence first < Level.precedence second ↔ first < second := by
    decide
  exact all first (Nat.lt_succ_of_le isLevel) second (Nat.lt_succ_of_le isLevel')

/-- An operand in parentheses or without is held together as tightly as a place
asks for, if it has parentheses exactly when its own level is too loose. -/
theorem Grammar.Determines.enclose [Spelling] {level : Level} {needed : Bool}
    (determines : Determines (value.tokens alphabet) value.level value)
    (isNeeded : needed = true ↔ value.level < level)
    (isLevel : level ≤ Level.primary) :
    ∃ held, level ≤ held ∧
      Determines (tokensOf alphabet (enclose needed value.pieces)) held value := by
  cases needed with
  | false =>
      have reached : level ≤ value.level := by simpa using isNeeded
      exact ⟨value.level, reached, determines⟩
  | true =>
      have isOperation := Expr.isOperation_of_level_lt
        ((isNeeded.mp rfl).trans_le isLevel)
      refine ⟨Level.primary, isLevel, ?_⟩
      have enclosed := determines.parenthesized isOperation
      simpa [Piece.enclose, leftParen, rightParen, Expr.tokens] using enclosed

namespace IsWritable

theorem placed [Spelling] (writable : IsWritable alphabet value)
    (determines : Determines (value.tokens alphabet) value.level value)
    {level : Level} (isLevel : level ≤ Level.primary) :
    ∃ held, level ≤ held ∧
      Determines (tokensOf alphabet
        (enclose (value.precedence < level.precedence) value.pieces))
        held value := by
  refine determines.enclose ?_ isLevel
  rw [decide_eq_true_iff, writable.precedence_eq,
    Level.precedence_lt_iff value.level_le_primary isLevel]

/-- The right operand of an operator that groups to the left. -/
theorem placedAbove [Spelling] (writable : IsWritable alphabet value)
    (determines : Determines (value.tokens alphabet) value.level value)
    {level : Level} (isLevel : level < Level.primary) :
    ∃ held, level + 1 ≤ held ∧
      Determines (tokensOf alphabet
        (enclose (value.precedence < level.precedence + 1) value.pieces))
        held value := by
  refine determines.enclose ?_ isLevel
  rw [decide_eq_true_iff, writable.precedence_eq, Nat.lt_succ_iff,
    Nat.lt_succ_iff, ← not_lt, ← not_lt,
    Level.precedence_lt_iff isLevel.le value.level_le_primary]

end IsWritable

/-- The written form of a pattern is read as the pattern. -/
theorem IsWritablePattern.reads {pattern : Pattern}
    (writable : IsWritablePattern alphabet pattern) :
    ReadsPattern (tokensOf alphabet pattern.pieces) pattern ∧
      IsPlainPattern pattern := by
  induction pattern with
  | anything text =>
      have isName : IsName alphabet text := writable
      rw [Pattern.pieces, tokensOf_fixedWord "var" (by decide), tokensOf_blank,
        isName.isToken.tokensOf_word]
      exact ⟨.anything text, trivial⟩
  | notNull label =>
      cases label with
      | none => exact ⟨.notNull, trivial⟩
      | some text =>
          have isName : IsName alphabet text := writable
          rw [Pattern.pieces, leftBrace, rightBrace, tokensOf_mark,
            tokensOf_blank, tokensOf_mark, tokensOf_blank,
            isName.isToken.tokensOf_word]
          exact ⟨.named text, trivial⟩
  | null =>
      rw [Pattern.pieces, tokensOf_fixedWord "null" (by decide)]
      exact ⟨.null, trivial⟩
  | type text =>
      have isName : IsName alphabet text := writable
      rw [Pattern.pieces, isName.isToken.tokensOf_word]
      obtain ⟨_, _, _, _, _, _, noVar, noNot⟩ := isName
      exact ⟨.type text, noVar, noNot⟩
  | not inner ih =>
      obtain ⟨reads, isPlain⟩ := ih writable
      rw [Pattern.pieces, tokensOf_fixedWord "not" (by decide), tokensOf_blank]
      exact ⟨.not reads, isPlain⟩

/-- The entries of a list, with their tokens. -/
def entriesOf (alphabet : Alphabet) (entries : List (Option String × Expr)) :
    List Entry :=
  entries.map fun entry => ⟨entry.1, entry.2.tokens alphabet, entry.2⟩

section

variable {entries : List (Option String × Expr)}

theorem arguments_entriesOf : arguments (entriesOf alphabet entries) =
    entries.map fun entry => argument entry.1 entry.2 := by
  rw [arguments, entriesOf, List.map_map]
  rfl

theorem fields_entriesOf : fields (entriesOf alphabet entries) = entries := by
  rw [fields, entriesOf, List.map_map]
  exact List.map_id entries

variable (areNames : ∀ entry ∈ entries, ∀ text ∈ entry.1, IsName alphabet text)
include areNames

theorem tokensOf_arguments :
    tokensOf alphabet (enclose true (separated (Expr.piecesOfEach
        (entries.map fun entry => argument entry.1 entry.2)))) =
      argumentTokens (entriesOf alphabet entries) := by
  have items : (Expr.piecesOfEach
        (entries.map fun entry => argument entry.1 entry.2)).map
          (tokensOf alphabet) =
      (entriesOf alphabet entries).map fun entry =>
        labelled ":" entry.label entry.tokens := by
    rw [piecesOfEach_eq_map, entriesOf, List.map_map, List.map_map, List.map_map]
    refine List.map_congr_left fun entry isEntry => ?_
    show tokensOf alphabet (argument entry.1 entry.2).pieces = _
    rw [pieces_argument]
    exact tokensOf_labelledPieces rfl (areNames entry isEntry)
  rw [argumentTokens, ← items, ← tokensOf_separated]
  simp [enclose, leftParen, rightParen]

theorem tokensOf_fields :
    tokensOf alphabet (Expr.anonymousObject entries).pieces =
      .keyword "new" :: fieldTokens (entriesOf alphabet entries) := by
  have items : (Expr.piecesOfFields entries).map (tokensOf alphabet) =
      (entriesOf alphabet entries).map fun entry =>
        labelled "=" entry.label entry.tokens := by
    rw [piecesOfFields_eq_map, entriesOf, List.map_map, List.map_map]
    exact List.map_congr_left fun entry isEntry =>
      tokensOf_labelledPieces rfl (areNames entry isEntry)
  rw [fieldTokens, ← items, ← tokensOf_separated]
  cases entries with
  | nil =>
      rw [Expr.pieces, tokensOf_fixedWord "new" (by decide),
        Expr.piecesOfFields]
      rfl
  | cons entry entries =>
      rw [Expr.pieces, tokensOf_fixedWord "new" (by decide)]
      · simp [leftBrace, rightBrace, ofWord, keywords]
      · simp

end

/-- The written form of an expression determines it. -/
theorem IsWritable.determines [Spelling] (writable : IsWritable alphabet value) :
    Determines (value.tokens alphabet) value.level value := by
  have entriesDetermine {entries : List (Option String × Expr)}
      (each : ∀ entry ∈ entries, Determines (entry.2.tokens alphabet)
        entry.2.level entry.2) :
      ∀ entry ∈ entriesOf alphabet entries,
        ∃ held, Determines entry.tokens held entry.value := by
    simp only [entriesOf, List.mem_map]
    rintro _ ⟨entry, isEntry, rfl⟩
    exact ⟨_, each entry isEntry⟩
  unfold Expr.tokens
  induction writable with
  | identifier isName =>
      rw [Expr.pieces, isName.isToken.tokensOf_word]
      exact .atom (.identifier _)
  | this =>
      rw [Expr.pieces, tokensOf_fixedWord "this" (by decide)]
      exact .atom .this
  | base =>
      rw [Expr.pieces, tokensOf_fixedWord "base" (by decide)]
      exact .atom .base
  | null =>
      rw [Expr.pieces, tokensOf_fixedWord "null" (by decide)]
      exact .atom .null
  | boolean truth =>
      cases truth with
      | true =>
          rw [Expr.pieces, tokensOf_fixedWord "true" (by decide)]
          exact .atom .yes
      | false =>
          rw [Expr.pieces, tokensOf_fixedWord "false" (by decide)]
          exact .atom .no
  | number isNumber =>
      rw [Expr.pieces, isNumber.isToken.tokensOf_word]
      exact .atom (.number _)
  | string text =>
      rw [Expr.pieces]
      exact .atom (.string text)
  | @member receiver text writable isName ih =>
      obtain ⟨held, isHeld, placed⟩ := writable.placed ih (le_refl Level.primary)
      have isAccess : access? "." = some .member := rfl
      have whole := placed.access isAccess isHeld text
      rwa [Expr.pieces, tokensOf_append, tokensOf_mark,
        isName.isToken.tokensOf_word]
  | @conditionalMember receiver text writable isName ih =>
      obtain ⟨held, isHeld, placed⟩ := writable.placed ih (le_refl Level.primary)
      have isAccess : access? "?." = some .conditionalMember := rfl
      have whole := placed.access isAccess isHeld text
      rwa [Expr.pieces, tokensOf_append, tokensOf_mark,
        isName.isToken.tokensOf_word]
  | element writable writableIndex ih ihIndex =>
      obtain ⟨held, isHeld, placed⟩ := writable.placed ih (le_refl Level.primary)
      have whole := placed.element isHeld ihIndex
      rwa [Expr.pieces, tokensOf_append, tokensOf_mark, tokensOf_append,
        tokensOf_mark]
  | @call callee entries writable areNames _ ih ihEach =>
      obtain ⟨held, isHeld, placed⟩ := writable.placed ih (le_refl Level.primary)
      have whole := placed.call isHeld (entriesDetermine ihEach)
      rw [arguments_entriesOf] at whole
      rwa [Expr.pieces, tokensOf_append, tokensOf_arguments areNames]
  | @new text entries isName areNames _ ihEach =>
      have whole := Determines.new text (entriesDetermine ihEach)
      rw [arguments_entriesOf] at whole
      rwa [Expr.pieces, tokensOf_fixedWord "new" (by decide), tokensOf_blank,
        isName.isToken.tokensOf_word, tokensOf_arguments areNames]
  | @anonymousObject entries areNames _ ihEach =>
      have whole := Determines.anonymousObject (entriesDetermine ihEach)
      rwa [fields_entriesOf, ← tokensOf_fields areNames] at whole
  | binary operator writable writableRight ih ihRight =>
      have isLevel : operatorLevel operator < Level.primary :=
        (level_of_operator? (operator?_spelling operator)).2.trans (by decide)
      obtain ⟨held, isHeld, placed⟩ := writable.placed ih isLevel.le
      obtain ⟨heldRight, isHeldRight, placedRight⟩ :=
        writableRight.placedAbove ihRight isLevel
      have whole := Determines.binary (operator?_spelling operator) placed isHeld
        placedRight isHeldRight
      rwa [Expr.pieces, tokensOf_append, tokensOf_blank, tokensOf_mark,
        tokensOf_blank, precedence_operatorLevel]
  | @unary operand operator writable ih =>
      obtain ⟨held, isHeld, placed⟩ :=
        writable.placed ih (show Level.unary ≤ Level.primary by decide)
      have whole := Determines.unary (prefixOperator?_spelling operator) placed
        isHeld
      rw [Expr.pieces, tokensOf_mark, tokensOf_append]
      split
      · exact whole
      · exact whole
  | conditional writable writableTrue writableFalse ih ihTrue ihFalse =>
      obtain ⟨held, isHeld, placed⟩ :=
        writable.placedAbove ih (show Level.conditional < Level.primary by decide)
      obtain ⟨_, _, placedTrue⟩ := writableTrue.placed ihTrue
        (show Level.conditional ≤ Level.primary by decide)
      obtain ⟨_, _, placedFalse⟩ := writableFalse.placed ihFalse
        (show Level.conditional ≤ Level.primary by decide)
      have whole := placed.conditional isHeld placedTrue placedFalse
      rwa [Expr.pieces, tokensOf_append, tokensOf_blank, tokensOf_mark,
        tokensOf_blank, tokensOf_append, tokensOf_blank, tokensOf_mark,
        tokensOf_blank]
  | test writable writablePattern ih =>
      obtain ⟨held, isHeld, placed⟩ :=
        writable.placed ih (show Level.relational ≤ Level.primary by decide)
      obtain ⟨reads, isPlain⟩ := writablePattern.reads
      have whole := placed.test isHeld reads isPlain
      rwa [Expr.pieces, tokensOf_append, tokensOf_blank,
        tokensOf_fixedWord "is" (by decide), tokensOf_blank]
  | cast isType writable ih =>
      obtain ⟨held, isHeld, placed⟩ :=
        writable.placed ih (show Level.unary ≤ Level.primary by decide)
      obtain ⟨typeTokens, areTokens, isType, rfl, noExpression⟩ := isType
      have whole := Determines.cast isType noExpression placed isHeld
      rwa [Expr.pieces, leftParen, rightParen, tokensOf_mark,
        tokensOf_word areTokens, tokensOf_mark]

end BasicLowering.Target
