import BasicLowering.Proofs.Target.Token

/-!
# The grammar of expressions

Which sequences of tokens are read as which expressions. An operator groups more
or less tightly: a conditional expression is the loosest, and what needs no
operator at all is primary. Binary operators group to the left, and a
conditional expression to the right.

A sequence that is read as an expression begins with an operand that stands on
its own, and each of its continuations takes up a suffix or an operator with its
right side. Read in this way, from left to right, it is seen how far an
expression reaches.
-/

namespace BasicLowering.Target

/-- How tightly an expression is held together, from the loosest on. -/
abbrev Level := Nat

namespace Level

def conditional : Level := 0
def logicalOr : Level := 1
def logicalAnd : Level := 2
def bitOr : Level := 3
def exclusiveOr : Level := 4
def bitAnd : Level := 5
def equality : Level := 6
def relational : Level := 7
def additive : Level := 8
def multiplicative : Level := 9
def unary : Level := 10
def primary : Level := 11

end Level

namespace Grammar

open Token (mark keyword name)

/-- The binary operators, with their levels. -/
def operators : List (String × Level × BinaryOperator) :=
  [("||", Level.logicalOr, .logicalOr), ("&&", Level.logicalAnd, .logicalAnd),
    ("|", Level.bitOr, .bitOr), ("^", Level.exclusiveOr, .exclusiveOr),
    ("&", Level.bitAnd, .bitAnd), ("==", Level.equality, .equal),
    ("!=", Level.equality, .notEqual), ("<", Level.relational, .less),
    ("<=", Level.relational, .lessOrEqual), (">", Level.relational, .greater),
    (">=", Level.relational, .greaterOrEqual), ("+", Level.additive, .add),
    ("-", Level.additive, .subtract), ("*", Level.multiplicative, .multiply),
    ("/", Level.multiplicative, .divide), ("%", Level.multiplicative, .modulo)]

/-- The binary operator that a mark stands for. -/
def operator? (sign : String) : Option (Level × BinaryOperator) :=
  operators.lookup sign

/-- The operator that a mark stands for before an operand. -/
def prefixOperator? (sign : String) : Option UnaryOperator :=
  [("!", UnaryOperator.logicalNot), ("~", .complement), ("-", .minus),
    ("+", .plus)].lookup sign

/-- The types that have a keyword for a name. -/
def predefinedTypes : List String :=
  ["bool", "byte", "char", "decimal", "double", "float", "int", "long",
    "object", "sbyte", "short", "string", "uint", "ulong", "ushort"]

/-- Sequences of tokens with a comma between each two neighbours. -/
def commaSeparated : List (List Token) → List Token
  | [] => []
  | [item] => item
  | item :: rest => item ++ mark "," :: commaSeparated rest

/-- What has the form of a type. -/
inductive IsType : List Token → Prop
  | named (text : String) : IsType [name text]
  | predefined {word : String} (isPredefined : word ∈ predefinedTypes) :
      IsType [keyword word]
  | member {tokens : List Token} (text : String) (isType : IsType tokens) :
      IsType (tokens ++ [mark ".", name text])
  | generic {tokens : List Token} (arguments : List (List Token))
      (isType : IsType tokens)
      (areTypes : ∀ argument ∈ arguments, IsType argument) :
      IsType (tokens ++ mark "<" :: (commaSeparated arguments ++ [mark ">"]))
  | nullable {tokens : List Token} (isType : IsType tokens) :
      IsType (tokens ++ [mark "?"])
  | array {tokens : List Token} (commas : Nat) (isType : IsType tokens) :
      IsType (tokens ++ mark "[" :: (List.replicate commas (mark ",") ++
        [mark "]"]))

/-- How types are spelled. The blanks within a type are not read, so it is a
convention where they stand. -/
class Spelling where
  typeName : List Token → String

/-- What is read as a pattern. -/
inductive ReadsPattern : List Token → Pattern → Prop
  | anything (text : String) :
      ReadsPattern [name "var", name text] (.anything text)
  | notNull : ReadsPattern [mark "\x7b", mark "\x7d"] (.notNull none)
  | named (text : String) :
      ReadsPattern [mark "\x7b", mark "\x7d", name text] (.notNull (some text))
  | null : ReadsPattern [keyword "null"] .null
  | type (text : String) : ReadsPattern [name text] (.type text)
  | not {tokens : List Token} {inner : Pattern}
      (reads : ReadsPattern tokens inner) :
      ReadsPattern (name "not" :: tokens) (.not inner)

/-- What is read from one token. -/
inductive IsAtom : Token → Expr → Prop
  | identifier (text : String) : IsAtom (name text) (.identifier text)
  | this : IsAtom (keyword "this") .this
  | base : IsAtom (keyword "base") .base
  | null : IsAtom (keyword "null") .null
  | yes : IsAtom (keyword "true") (.boolean true)
  | no : IsAtom (keyword "false") (.boolean false)
  | number (text : String) : IsAtom (.number text) (.number text)
  | string (value : String) : IsAtom (.text value) (.string value)

/-- An entry of a list in parentheses or braces, which may have a label. -/
structure Entry where
  label : Option String
  tokens : List Token
  value : Expr

/-- The tokens of an entry with its label. -/
def labelled (sign : String) (label : Option String) (tokens : List Token) :
    List Token :=
  match label with
  | none => tokens
  | some text => name text :: mark sign :: tokens

/-- An argument with its label. -/
def argument (label : Option String) (value : Expr) : Expr :=
  match label with
  | none => value
  | some text => .namedArgument text value

/-- The tokens of a list of arguments, with its parentheses. -/
def argumentTokens (entries : List Entry) : List Token :=
  mark "(" :: (commaSeparated (entries.map fun entry =>
    labelled ":" entry.label entry.tokens) ++ [mark ")"])

/-- The tokens of a list of fields, with its braces. -/
def fieldTokens (entries : List Entry) : List Token :=
  mark "\x7b" :: (commaSeparated (entries.map fun entry =>
    labelled "=" entry.label entry.tokens) ++ [mark "\x7d"])

def arguments (entries : List Entry) : List Expr :=
  entries.map fun entry => argument entry.label entry.value

def fields (entries : List Entry) : List (Option String × Expr) :=
  entries.map fun entry => (entry.label, entry.value)

variable {level held middle : Level} {tokens later : List Token}
variable {first second third : Expr}

/-! ## Types -/

theorem mem_commaSeparated {token : Token} {items : List (List Token)}
    (isToken : token ∈ commaSeparated items) :
    token = mark "," ∨ ∃ item ∈ items, token ∈ item := by
  fun_induction commaSeparated items with
  | case1 => cases isToken
  | case2 item => exact .inr ⟨item, List.mem_cons_self, isToken⟩
  | case3 item rest _ ih =>
      rw [List.mem_append, List.mem_cons] at isToken
      rcases isToken with isFirst | isComma | isLater
      · exact .inr ⟨item, List.mem_cons_self, isFirst⟩
      · exact .inl isComma
      · exact (ih isLater).imp id fun ⟨other, isItem, isOther⟩ =>
          ⟨other, List.mem_cons_of_mem _ isItem, isOther⟩

/-- The marks of types. -/
def typeMarks : List String :=
  [".", "<", ">", ",", "?", "[", "]"]

theorem prefixOperator?_of_mem_typeMarks {sign : String}
    (isMark : sign ∈ typeMarks) : prefixOperator? sign = none := by
  have all : ∀ sign ∈ typeMarks, prefixOperator? sign = none := by decide
  exact all sign isMark

/-- Whether a token can stand in a type. -/
def IsTypeToken : Token → Prop
  | .name _ => True
  | .keyword word => word ∈ predefinedTypes
  | .mark sign => sign ∈ typeMarks
  | _ => False

instance : DecidablePred IsTypeToken
  | .name _ => .isTrue trivial
  | .keyword word => inferInstanceAs (Decidable (word ∈ predefinedTypes))
  | .mark sign => inferInstanceAs (Decidable (sign ∈ typeMarks))
  | .number _ | .text _ => .isFalse id

theorem IsType.isTypeToken (isType : IsType tokens) :
    ∀ token ∈ tokens, IsTypeToken token := by
  have sign {text : String} (isSign : text ∈ typeMarks) :
      IsTypeToken (mark text) := isSign
  induction isType with
  | named => simp [IsTypeToken]
  | predefined isPredefined => simpa [IsTypeToken] using isPredefined
  | member text _ ih | nullable _ ih =>
      simp only [List.mem_append, List.mem_cons, List.not_mem_nil, or_false]
      rintro token (isEarlier | rfl | rfl) <;>
        first | exact ih _ isEarlier | exact sign (by decide) | trivial
  | generic arguments _ _ ih ihEach =>
      simp only [List.mem_append, List.mem_cons, List.not_mem_nil, or_false]
      rintro token (isEarlier | rfl | isArgument | rfl)
      · exact ih _ isEarlier
      · exact sign (by decide)
      · rcases mem_commaSeparated isArgument with rfl | ⟨item, isItem, inItem⟩
        · exact sign (by decide)
        · exact ihEach item isItem token inItem
      · exact sign (by decide)
  | array commas _ ih =>
      simp only [List.mem_append, List.mem_cons, List.mem_replicate,
        List.not_mem_nil, or_false]
      rintro token (isEarlier | rfl | ⟨-, rfl⟩ | rfl)
      · exact ih _ isEarlier
      all_goals exact sign (by decide)

/-- A type has no parentheses. -/
theorem IsType.not_mem_paren {sign : String} (isParen : sign = "(" ∨ sign = ")")
    (isType : IsType tokens) : mark sign ∉ tokens := by
  intro isToken
  have isMark : sign ∈ typeMarks := isType.isTypeToken _ isToken
  rcases isParen with rfl | rfl <;> exact absurd isMark (by decide)

/-! ## What may follow -/

/-- The level at which the operand before a mark is read. -/
def continuation? (sign : String) : Option Level :=
  if sign ∈ [".", "?.", "[", "("] then some Level.primary
  else if sign = "?" then some Level.logicalOr
  else (operator? sign).map Prod.fst

/-- Whether no expression of a level goes on with a token: it closes what stands
around the expression, or is an operator that groups less tightly. -/
def Ends (level : Level) : Token → Prop
  | .mark sign => sign ∈ [")", "]", "\x7d", ",", ":"] ∨
      ∃ other, continuation? sign = some other ∧ other < level
  | .keyword word => word = "is" ∧ Level.relational < level
  | _ => False

/-- Whether an expression of a level ends before a sequence of tokens. -/
def EndsBefore (level : Level) (tokens : List Token) : Prop :=
  ∀ token ∈ tokens.head?, Ends level token

theorem mem_operators {sign : String} {operator : BinaryOperator}
    (isOperator : operator? sign = some (level, operator)) :
    (sign, level, operator) ∈ operators := by
  obtain ⟨before, after, split, -⟩ := List.lookup_eq_some_iff.mp isOperator
  rw [split]
  exact List.mem_append_right _ List.mem_cons_self

/-- Every operator is looser than a prefix and tighter than a conditional
expression. -/
theorem level_of_operator? {sign : String} {operator : BinaryOperator}
    (isOperator : operator? sign = some (level, operator)) :
    Level.conditional < level ∧ level < Level.unary := by
  have all : ∀ entry ∈ operators,
      Level.conditional < entry.2.1 ∧ entry.2.1 < Level.unary := by decide
  exact all _ (mem_operators isOperator)

theorem continuation?_of_operator? {sign : String} {operator : BinaryOperator}
    (isOperator : operator? sign = some (level, operator)) :
    continuation? sign = some level := by
  have all : ∀ entry ∈ operators,
      continuation? entry.1 = some entry.2.1 := by decide
  exact all _ (mem_operators isOperator)

theorem Ends.mono {tighter : Level} {token : Token} (ends : Ends level token)
    (isTighter : level ≤ tighter) : Ends tighter token := by
  unfold Ends at ends ⊢
  split at ends
  · exact ends.imp id fun ⟨other, isOther, looser⟩ =>
      ⟨other, isOther, looser.trans_le isTighter⟩
  · exact ⟨ends.1, ends.2.trans_le isTighter⟩
  · exact ends

theorem EndsBefore.mono {tighter : Level} (ends : EndsBefore level tokens)
    (isTighter : level ≤ tighter) : EndsBefore tighter tokens :=
  fun token isFirst => (ends token isFirst).mono isTighter

/-- A mark that continues one level ends exactly the tighter ones. -/
theorem ends_mark_iff {sign : String} {other : Level}
    (isContinuation : continuation? sign = some other) :
    Ends level (mark sign) ↔ other < level := by
  have noCloser : ∀ closer ∈ [")", "]", "\x7d", ",", ":"],
      continuation? closer = none := by decide
  constructor
  · rintro (isCloser | ⟨same, isSame, isLooser⟩)
    · rw [noCloser sign isCloser] at isContinuation
      cases isContinuation
    · rw [isContinuation] at isSame
      cases isSame
      exact isLooser
  · exact fun isLooser => .inr ⟨other, isContinuation, isLooser⟩

theorem ends_is_iff : Ends level (keyword "is") ↔ Level.relational < level := by
  simp [Ends]

/-! ## Parentheses -/

/-- Whether the first parenthesis of a sequence, if it has one, opens. -/
def OpensFirst (tokens : List Token) : Prop :=
  ∀ before after, tokens = before ++ mark ")" :: after → mark "(" ∈ before

namespace OpensFirst

theorem of_not_mem (noParen : mark ")" ∉ tokens) : OpensFirst tokens := by
  rintro before after rfl
  exact absurd (List.mem_append_right _ List.mem_cons_self) noParen

theorem of_paren (tokens : List Token) : OpensFirst (mark "(" :: tokens) := by
  intro before after same
  cases before with
  | nil => simp at same
  | cons token before => cases same; exact List.mem_cons_self

theorem append (opens : OpensFirst tokens) (opensLater : OpensFirst later) :
    OpensFirst (tokens ++ later) := by
  intro before after same
  rcases List.append_eq_append_iff.mp same with
    ⟨between, rfl, isLater⟩ | ⟨between, rfl, isRest⟩
  · exact List.mem_append_right _ (opensLater between after isLater)
  · cases between with
    | nil =>
        rw [List.append_nil] at *
        simpa using opensLater [] after isRest.symm
    | cons token between =>
        cases isRest
        exact opens before between rfl

theorem cons {token : Token} (noParen : token ≠ mark ")")
    (opens : OpensFirst tokens) : OpensFirst (token :: tokens) := by
  rw [← List.singleton_append]
  refine append (of_not_mem ?_) opens
  simpa [eq_comm] using noParen

theorem commaSeparated {items : List (List Token)}
    (each : ∀ item ∈ items, OpensFirst item) :
    OpensFirst (commaSeparated items) := by
  fun_induction Grammar.commaSeparated items with
  | case1 => exact of_not_mem (by simp)
  | case2 item => exact each item (by simp)
  | case3 item rest _ ih =>
      exact (each item (by simp)).append (.cons (by simp)
        (ih fun other isItem => each other (List.mem_cons_of_mem _ isItem)))

theorem labelled (sign : String) (label : Option String)
    (noParen : sign ≠ ")") (opens : OpensFirst tokens) :
    OpensFirst (labelled sign label tokens) := by
  cases label with
  | none => exact opens
  | some text => exact .cons (by simp) (.cons (by simpa using noParen) opens)

end OpensFirst

theorem ReadsPattern.opensFirst {pattern : Pattern}
    (reads : ReadsPattern tokens pattern) : OpensFirst tokens := by
  induction reads with
  | not _ ih => exact .cons (by simp) ih
  | _ => exact .of_not_mem (by simp)

/-- What stands before a closing parenthesis, read as an expression and read as
a type, is the same. -/
theorem eq_of_append_paren {typeTokens rest : List Token}
    (opens : OpensFirst tokens) (isType : IsType typeTokens)
    (same : tokens ++ mark ")" :: rest = typeTokens ++ mark ")" :: later) :
    tokens = typeTokens := by
  rcases List.append_eq_append_iff.mp same with
    ⟨between, rfl, isRest⟩ | ⟨between, rfl, isRest⟩
  · cases between with
    | nil => rw [List.append_nil]
    | cons token between =>
        cases isRest
        refine absurd ?_ (isType.not_mem_paren (.inr rfl))
        simp
  · cases between with
    | nil => rw [List.append_nil]
    | cons token between =>
        cases isRest
        exact absurd (opens typeTokens between rfl)
          (isType.not_mem_paren (.inl rfl))

/-! ## Angles -/

/-- Whether an operand can begin with a token. A closing angle is followed by no
such token where it ends a type. -/
def StartsOperand (token : Token) : Prop :=
  ∀ sign, token = mark sign → sign ∉ typeMarks

/-- Whether an operand follows each closing angle of a sequence. -/
def ComparesAngles (tokens : List Token) : Prop :=
  ∀ before after, tokens = before ++ mark ">" :: after →
    ∃ token ∈ after.head?, StartsOperand token

namespace ComparesAngles

theorem of_not_mem (noAngle : mark ">" ∉ tokens) : ComparesAngles tokens := by
  rintro before after rfl
  exact absurd (List.mem_append_right _ List.mem_cons_self) noAngle

theorem append (compares : ComparesAngles tokens)
    (comparesLater : ComparesAngles later) : ComparesAngles (tokens ++ later) := by
  intro before after same
  rcases List.append_eq_append_iff.mp same with
    ⟨between, rfl, isLater⟩ | ⟨between, rfl, isRest⟩
  · exact comparesLater between after isLater
  · cases between with
    | nil => exact comparesLater [] after isRest.symm
    | cons token between =>
        cases isRest
        obtain ⟨token, isFirst, starts⟩ := compares before between rfl
        obtain ⟨others, rfl⟩ := List.head?_eq_some_iff.mp isFirst
        exact ⟨token, rfl, starts⟩

theorem cons {token : Token} (noAngle : token ≠ mark ">")
    (compares : ComparesAngles tokens) : ComparesAngles (token :: tokens) :=
  append (@of_not_mem [token] (by simpa [eq_comm] using noAngle)) compares

/-- An operand after a mark. -/
theorem operand (sign : String)
    (starts : ∃ token ∈ tokens.head?, StartsOperand token)
    (compares : ComparesAngles tokens) :
    ComparesAngles (mark sign :: tokens) := by
  intro before after same
  cases before with
  | nil => cases same; exact starts
  | cons token before => cases same; exact compares before after rfl

end ComparesAngles

/-- Whether a sequence has no angles, or a closing angle that no operand
follows. -/
def ClosesAngle (tokens : List Token) : Prop :=
  (mark "<" ∉ tokens ∧ mark ">" ∉ tokens) ∨
    ∃ before after, tokens = before ++ mark ">" :: after ∧
      ∀ token ∈ after.head?, ¬ StartsOperand token

theorem ClosesAngle.append {sign : String} (closes : ClosesAngle tokens)
    (isMark : sign ∈ typeMarks)
    (noAngle : mark "<" ∉ mark sign :: later ∧ mark ">" ∉ mark sign :: later) :
    ClosesAngle (tokens ++ mark sign :: later) := by
  rcases closes with ⟨noOpening, noClosing⟩ | ⟨before, after, rfl, ends⟩
  · exact .inl ⟨by simpa [noOpening] using noAngle.1,
      by simpa [noClosing] using noAngle.2⟩
  · refine .inr ⟨before, after ++ mark sign :: later, by simp, ?_⟩
    cases after with
    | nil => rintro _ ⟨⟩ starts; exact starts sign rfl isMark
    | cons => exact ends

theorem IsType.closesAngle (isType : IsType tokens) : ClosesAngle tokens := by
  induction isType with
  | named | predefined => exact .inl (by simp)
  | member _ _ ih => exact ih.append (by decide) (by simp)
  | nullable _ ih => exact ih.append (by decide) (by simp)
  | array _ _ ih => exact ih.append (by decide) (by simp)
  | @generic tokens arguments =>
      exact .inr ⟨tokens ++ mark "<" :: commaSeparated arguments, [], by simp,
        nofun⟩

/-- What has the form of a type and compares has no angles. -/
theorem IsType.no_angle (isType : IsType tokens)
    (compares : ComparesAngles tokens) :
    mark "<" ∉ tokens ∧ mark ">" ∉ tokens := by
  rcases isType.closesAngle with none | ⟨before, after, same, ends⟩
  · exact none
  · obtain ⟨token, isFirst, starts⟩ := compares before after same
    exact absurd starts (ends token isFirst)

/-! ## Expressions -/

variable [Spelling]

/-- What is read as an expression that is held together at least as tightly as a
level says. -/
inductive Reads : Level → List Token → Expr → Prop
  | tighter {level : Level} {tokens : List Token} {value : Expr}
      (reads : Reads (level + 1) tokens value) : Reads level tokens value
  | atom {token : Token} {value : Expr} (isAtom : IsAtom token value) :
      Reads Level.primary [token] value
  | parenthesized {tokens : List Token} {value : Expr}
      (reads : Reads Level.conditional tokens value) :
      Reads Level.primary (mark "(" :: (tokens ++ [mark ")"])) value
  | member {tokens : List Token} {receiver : Expr} (text : String)
      (reads : Reads Level.primary tokens receiver) :
      Reads Level.primary (tokens ++ [mark ".", name text])
        (.member receiver text)
  | conditionalMember {tokens : List Token} {receiver : Expr} (text : String)
      (reads : Reads Level.primary tokens receiver) :
      Reads Level.primary (tokens ++ [mark "?.", name text])
        (.conditionalMember receiver text)
  | element {tokens indexTokens : List Token} {receiver index : Expr}
      (reads : Reads Level.primary tokens receiver)
      (readsIndex : Reads Level.conditional indexTokens index) :
      Reads Level.primary
        (tokens ++ mark "[" :: (indexTokens ++ [mark "]"]))
        (.element receiver index)
  | call {tokens : List Token} {callee : Expr} (entries : List Entry)
      (reads : Reads Level.primary tokens callee)
      (readsEach : ∀ entry ∈ entries,
        Reads Level.conditional entry.tokens entry.value) :
      Reads Level.primary (tokens ++ argumentTokens entries)
        (.call callee (arguments entries))
  | new (text : String) (entries : List Entry)
      (readsEach : ∀ entry ∈ entries,
        Reads Level.conditional entry.tokens entry.value) :
      Reads Level.primary
        (keyword "new" :: name text :: argumentTokens entries)
        (.new text (arguments entries))
  | anonymousObject (entries : List Entry)
      (readsEach : ∀ entry ∈ entries,
        Reads Level.conditional entry.tokens entry.value) :
      Reads Level.primary (keyword "new" :: fieldTokens entries)
        (.anonymousObject (fields entries))
  | unary {sign : String} {operator : UnaryOperator} {tokens : List Token}
      {operand : Expr} (isOperator : prefixOperator? sign = some operator)
      (reads : Reads Level.unary tokens operand) :
      Reads Level.unary (mark sign :: tokens) (.unary operator operand)
  | cast {typeTokens tokens : List Token} {operand : Expr}
      (isType : IsType typeTokens) (reads : Reads Level.unary tokens operand) :
      Reads Level.unary (mark "(" :: (typeTokens ++ mark ")" :: tokens))
        (.cast (Spelling.typeName typeTokens) operand)
  | binary {level : Level} {sign : String} {operator : BinaryOperator}
      {leftTokens rightTokens : List Token} {left right : Expr}
      (isOperator : operator? sign = some (level, operator))
      (readsLeft : Reads level leftTokens left)
      (readsRight : Reads (level + 1) rightTokens right) :
      Reads level (leftTokens ++ mark sign :: rightTokens)
        (.binary left operator right)
  | test {tokens patternTokens : List Token} {operand : Expr}
      {pattern : Pattern} (reads : Reads Level.relational tokens operand)
      (readsPattern : ReadsPattern patternTokens pattern) :
      Reads Level.relational (tokens ++ keyword "is" :: patternTokens)
        (.test operand pattern)
  | conditional {conditionTokens trueTokens falseTokens : List Token}
      {condition whenTrue whenFalse : Expr}
      (reads : Reads Level.logicalOr conditionTokens condition)
      (readsTrue : Reads Level.conditional trueTokens whenTrue)
      (readsFalse : Reads Level.conditional falseTokens whenFalse) :
      Reads Level.conditional
        (conditionTokens ++ mark "?" :: (trueTokens ++ mark ":" :: falseTokens))
        (.conditional condition whenTrue whenFalse)

/-- What stands on its own at the beginning of an expression, and the level at
which it is held together. -/
inductive Begins : List Token → Level → Expr → Prop
  | atom {token : Token} {value : Expr} (isAtom : IsAtom token value) :
      Begins [token] Level.primary value
  | parenthesized {tokens : List Token} {value : Expr}
      (reads : Reads Level.conditional tokens value) :
      Begins (mark "(" :: (tokens ++ [mark ")"])) Level.primary value
  | new (text : String) (entries : List Entry)
      (readsEach : ∀ entry ∈ entries,
        Reads Level.conditional entry.tokens entry.value) :
      Begins (keyword "new" :: name text :: argumentTokens entries)
        Level.primary (.new text (arguments entries))
  | anonymousObject (entries : List Entry)
      (readsEach : ∀ entry ∈ entries,
        Reads Level.conditional entry.tokens entry.value) :
      Begins (keyword "new" :: fieldTokens entries) Level.primary
        (.anonymousObject (fields entries))
  | unary {sign : String} {operator : UnaryOperator} {tokens : List Token}
      {operand : Expr} (isOperator : prefixOperator? sign = some operator)
      (reads : Reads Level.unary tokens operand) :
      Begins (mark sign :: tokens) Level.unary (.unary operator operand)
  | cast {typeTokens tokens : List Token} {operand : Expr}
      (isType : IsType typeTokens) (reads : Reads Level.unary tokens operand) :
      Begins (mark "(" :: (typeTokens ++ mark ")" :: tokens)) Level.unary
        (.cast (Spelling.typeName typeTokens) operand)

/-- How an expression that is held together at one level goes on, up to an
expression of another level. -/
inductive GoesOn (level : Level) : Level → Expr → List Token → Expr → Prop
  | done {held : Level} {value : Expr} (reached : level ≤ held) :
      GoesOn level held value [] value
  | member {held : Level} {receiver value : Expr} {tokens : List Token}
      (text : String) (isPrimary : Level.primary ≤ held)
      (later : GoesOn level Level.primary (.member receiver text) tokens value) :
      GoesOn level held receiver (mark "." :: name text :: tokens) value
  | conditionalMember {held : Level} {receiver value : Expr}
      {tokens : List Token} (text : String) (isPrimary : Level.primary ≤ held)
      (later : GoesOn level Level.primary (.conditionalMember receiver text)
        tokens value) :
      GoesOn level held receiver (mark "?." :: name text :: tokens) value
  | element {held : Level} {receiver index value : Expr}
      {indexTokens tokens : List Token} (isPrimary : Level.primary ≤ held)
      (readsIndex : Reads Level.conditional indexTokens index)
      (later : GoesOn level Level.primary (.element receiver index) tokens
        value) :
      GoesOn level held receiver
        (mark "[" :: (indexTokens ++ mark "]" :: tokens)) value
  | call {held : Level} {callee value : Expr} {tokens : List Token}
      (entries : List Entry) (isPrimary : Level.primary ≤ held)
      (readsEach : ∀ entry ∈ entries,
        Reads Level.conditional entry.tokens entry.value)
      (later : GoesOn level Level.primary (.call callee (arguments entries))
        tokens value) :
      GoesOn level held callee (argumentTokens entries ++ tokens) value
  | binary {held operatorLevel : Level} {sign : String}
      {operator : BinaryOperator} {left right value : Expr}
      {rightTokens tokens : List Token}
      (isOperator : operator? sign = some (operatorLevel, operator))
      (isHeld : operatorLevel ≤ held)
      (readsRight : Reads (operatorLevel + 1) rightTokens right)
      (later : GoesOn level operatorLevel (.binary left operator right) tokens
        value) :
      GoesOn level held left (mark sign :: (rightTokens ++ tokens)) value
  | test {held : Level} {operand value : Expr} {pattern : Pattern}
      {patternTokens tokens : List Token} (isHeld : Level.relational ≤ held)
      (readsPattern : ReadsPattern patternTokens pattern)
      (later : GoesOn level Level.relational (.test operand pattern) tokens
        value) :
      GoesOn level held operand (keyword "is" :: (patternTokens ++ tokens)) value
  | conditional {held : Level} {condition whenTrue whenFalse value : Expr}
      {trueTokens falseTokens tokens : List Token}
      (isHeld : Level.logicalOr ≤ held)
      (readsTrue : Reads Level.conditional trueTokens whenTrue)
      (readsFalse : Reads Level.conditional falseTokens whenFalse)
      (later : GoesOn level Level.conditional
        (.conditional condition whenTrue whenFalse) tokens value) :
      GoesOn level held condition
        (mark "?" :: (trueTokens ++ mark ":" :: (falseTokens ++ tokens))) value

namespace GoesOn

theorem level_le (goesOn : GoesOn level held first tokens second) :
    level ≤ held := by
  induction goesOn with
  | done reached => exact reached
  | member _ isPrimary _ ih | conditionalMember _ isPrimary _ ih
  | element isPrimary _ _ ih | call _ isPrimary _ _ ih =>
      exact ih.trans isPrimary
  | binary _ isHeld _ _ ih | test isHeld _ _ ih => exact ih.trans isHeld
  | conditional isHeld _ _ _ ih => exact (ih.trans (Nat.zero_le 1)).trans isHeld

/-- What is held together more tightly can go on in the same way. -/
theorem tighten {tighter : Level}
    (goesOn : GoesOn level held first tokens second)
    (isTighter : held ≤ tighter) : GoesOn level tighter first tokens second := by
  cases goesOn with
  | done reached => exact .done (reached.trans isTighter)
  | member text isPrimary later =>
      exact .member text (isPrimary.trans isTighter) later
  | conditionalMember text isPrimary later =>
      exact .conditionalMember text (isPrimary.trans isTighter) later
  | element isPrimary readsIndex later =>
      exact .element (isPrimary.trans isTighter) readsIndex later
  | call entries isPrimary readsEach later =>
      exact .call entries (isPrimary.trans isTighter) readsEach later
  | binary isOperator isHeld readsRight later =>
      exact .binary isOperator (isHeld.trans isTighter) readsRight later
  | test isHeld readsPattern later =>
      exact .test (isHeld.trans isTighter) readsPattern later
  | conditional isHeld readsTrue readsFalse later =>
      exact .conditional (isHeld.trans isTighter) readsTrue readsFalse later

/-- One continuation after another. -/
theorem trans (goesOn : GoesOn middle held first tokens second)
    (goesFurther : GoesOn level middle second later third) :
    GoesOn level held first (tokens ++ later) third := by
  induction goesOn with
  | done reached => exact goesFurther.tighten reached
  | member text isPrimary _ ih => exact .member text isPrimary (ih goesFurther)
  | conditionalMember text isPrimary _ ih =>
      exact .conditionalMember text isPrimary (ih goesFurther)
  | element isPrimary readsIndex _ ih =>
      have whole := GoesOn.element isPrimary readsIndex (ih goesFurther)
      simpa using whole
  | call entries isPrimary readsEach _ ih =>
      rw [List.append_assoc]
      exact .call entries isPrimary readsEach (ih goesFurther)
  | binary isOperator isHeld readsRight _ ih =>
      have whole := GoesOn.binary isOperator isHeld readsRight (ih goesFurther)
      simpa using whole
  | test isHeld readsPattern _ ih =>
      have whole := GoesOn.test isHeld readsPattern (ih goesFurther)
      simpa using whole
  | conditional isHeld readsTrue readsFalse _ ih =>
      have whole :=
        GoesOn.conditional isHeld readsTrue readsFalse (ih goesFurther)
      simpa using whole

end GoesOn

/-- Whether a sequence begins with an operand from which it goes on to an
expression. -/
def IsReached (level : Level) (tokens : List Token) (value : Expr) : Prop :=
  ∃ start rest held operand, tokens = start ++ rest ∧
    Begins start held operand ∧ GoesOn level held operand rest value

namespace IsReached

theorem of_begins (begins : Begins tokens level first) :
    IsReached level tokens first :=
  ⟨tokens, [], level, first, (List.append_nil _).symm, begins, .done le_rfl⟩

theorem then_goesOn (reached : IsReached middle tokens first)
    (goesOn : GoesOn level middle first later second) :
    IsReached level (tokens ++ later) second := by
  obtain ⟨start, rest, held, operand, rfl, begins, early⟩ := reached
  exact ⟨start, rest ++ later, held, operand, List.append_assoc .., begins,
    early.trans goesOn⟩

theorem loosen (reached : IsReached middle tokens first)
    (isLooser : level ≤ middle) : IsReached level tokens first :=
  List.append_nil tokens ▸ reached.then_goesOn (.done isLooser)

end IsReached

/-- Every expression begins with an operand and goes on from there. -/
theorem Reads.isReached (reads : Reads level tokens first) :
    IsReached level tokens first := by
  induction reads with
  | tighter _ ih => exact ih.loosen (Nat.le_succ _)
  | atom isAtom => exact .of_begins (.atom isAtom)
  | parenthesized reads => exact .of_begins (.parenthesized reads)
  | member text _ ih => exact ih.then_goesOn (.member text le_rfl (.done le_rfl))
  | conditionalMember text _ ih =>
      exact ih.then_goesOn (.conditionalMember text le_rfl (.done le_rfl))
  | element _ readsIndex ih =>
      exact ih.then_goesOn (.element le_rfl readsIndex (.done le_rfl))
  | call entries _ readsEach ih =>
      have whole := ih.then_goesOn
        (.call entries le_rfl readsEach (.done (le_refl Level.primary)))
      rwa [List.append_nil] at whole
  | new text entries readsEach => exact .of_begins (.new text entries readsEach)
  | anonymousObject entries readsEach =>
      exact .of_begins (.anonymousObject entries readsEach)
  | unary isOperator reads => exact .of_begins (.unary isOperator reads)
  | cast isType reads => exact .of_begins (.cast isType reads)
  | binary isOperator _ readsRight ih =>
      have whole := ih.then_goesOn
        (.binary isOperator le_rfl readsRight (.done le_rfl))
      rwa [List.append_nil] at whole
  | test _ readsPattern ih =>
      have whole := ih.then_goesOn
        (.test le_rfl readsPattern (.done (le_refl Level.relational)))
      rwa [List.append_nil] at whole
  | conditional _ readsTrue readsFalse ih =>
      have whole := ih.then_goesOn
        (.conditional le_rfl readsTrue readsFalse (.done le_rfl))
      rwa [List.append_nil] at whole

/-- What goes on does so with a token that continues a level in between. -/
theorem GoesOn.continues (goesOn : GoesOn level held first tokens second) :
    (tokens = [] ∧ second = first) ∨ ∃ token rest, tokens = token :: rest ∧
      ¬ Ends level token ∧ Ends (held + 1) token := by
  have sign {sign : String} {other : Level} (isLevel : continuation? sign = some other)
      (above : level ≤ other) (below : other ≤ held) :
      ¬ Ends level (mark sign) ∧ Ends (held + 1) (mark sign) := by
    rw [ends_mark_iff isLevel, ends_mark_iff isLevel]
    exact ⟨above.not_gt, Nat.lt_succ_of_le below⟩
  cases goesOn with
  | done => exact .inl ⟨rfl, rfl⟩
  | member _ isPrimary later | conditionalMember _ isPrimary later
  | element isPrimary _ later | call _ isPrimary _ later =>
      exact .inr ⟨_, _, rfl, sign (by decide) later.level_le isPrimary⟩
  | binary isOperator isHeld _ later =>
      exact .inr ⟨_, _, rfl, sign (continuation?_of_operator? isOperator)
        later.level_le isHeld⟩
  | test isHeld _ later =>
      refine .inr ⟨_, _, rfl, ?_⟩
      rw [ends_is_iff, ends_is_iff]
      exact ⟨later.level_le.not_gt, Nat.lt_succ_of_le isHeld⟩
  | conditional isHeld _ _ later =>
      exact .inr ⟨_, _, rfl, sign (by decide)
        (later.level_le.trans (Nat.zero_le 1)) isHeld⟩

theorem GoesOn.endsBefore (goesOn : GoesOn level held first tokens second)
    (ends : EndsBefore level later) : EndsBefore (held + 1) (tokens ++ later) := by
  rcases goesOn.continues with ⟨rfl, -⟩ | ⟨token, rest, rfl, -, endsAbove⟩
  · exact ends.mono (goesOn.level_le.trans (Nat.le_succ _))
  · rintro _ ⟨⟩
    exact endsAbove

/-- What ends before a sequence does not go on with it. -/
theorem GoesOn.eq_nil {rest : List Token}
    (goesOn : GoesOn level held first tokens second)
    (same : tokens ++ rest = later) (ends : EndsBefore level later) :
    tokens = [] ∧ second = first := by
  rcases goesOn.continues with isNil | ⟨token, others, rfl, goesFurther, -⟩
  · exact isNil
  · subst same
    exact absurd (ends token rfl) goesFurther

/-- No sequence that is read as an expression closes a parenthesis that it does
not open. -/
theorem Reads.opensFirst (reads : Reads level tokens first) :
    OpensFirst tokens := by
  induction reads with
  | tighter _ ih => exact ih
  | atom isAtom => cases isAtom <;> exact .of_not_mem (by simp)
  | parenthesized => exact .of_paren _
  | member _ _ ih | conditionalMember _ _ ih =>
      exact ih.append (.of_not_mem (by simp))
  | element _ _ ih ihIndex =>
      exact ih.append (.cons (by simp) (ihIndex.append (.of_not_mem (by simp))))
  | call _ _ _ ih => exact ih.append (.of_paren _)
  | new => exact .cons (by simp) (.cons (by simp) (.of_paren _))
  | anonymousObject entries _ ih =>
      refine .cons (by simp) (.cons (by simp)
        (.append (.commaSeparated ?_) (.of_not_mem (by simp))))
      simp only [List.mem_map, forall_exists_index, and_imp,
        forall_apply_eq_imp_iff₂]
      exact fun entry isEntry => .labelled _ _ (by simp) (ih entry isEntry)
  | unary isOperator _ ih =>
      refine .cons ?_ ih
      rintro ⟨⟩
      cases isOperator
  | cast => exact .of_paren _
  | binary isOperator _ _ ih ihRight =>
      refine ih.append (.cons ?_ ihRight)
      rintro ⟨⟩
      cases isOperator
  | test _ readsPattern ih =>
      exact ih.append (.cons (by simp) readsPattern.opensFirst)
  | conditional _ _ _ ih ihTrue ihFalse =>
      exact ih.append (.cons (by simp) (ihTrue.append (.cons (by simp) ihFalse)))

/-! ## Types and expressions -/

/-- Whether an expression is made with an operator. -/
def isOperation : Expr → Bool
  | .binary .. | .unary .. | .conditional .. | .test .. | .cast .. => true
  | _ => false

theorem Reads.startsOperand (reads : Reads level tokens first) :
    ∃ token ∈ tokens.head?, StartsOperand token := by
  obtain ⟨start, rest, held, operand, rfl, begins, -⟩ := reads.isReached
  cases begins with
  | atom isAtom => cases isAtom <;> exact ⟨_, rfl, nofun⟩
  | parenthesized | cast => exact ⟨_, rfl, by rintro _ ⟨⟩; decide⟩
  | new | anonymousObject => exact ⟨_, rfl, nofun⟩
  | unary isOperator =>
      refine ⟨_, rfl, ?_⟩
      rintro sign ⟨⟩ isMark
      rw [prefixOperator?_of_mem_typeMarks isMark] at isOperator
      cases isOperator

/-- In an expression that is made of the tokens of types, a closing angle
compares, and there is no operation without an angle. -/
theorem Reads.comparesAngles (reads : Reads level tokens first)
    (areTypeTokens : ∀ token ∈ tokens, IsTypeToken token) :
    ComparesAngles tokens ∧
      (isOperation first = true → mark "<" ∈ tokens ∨ mark ">" ∈ tokens) := by
  have part {tokens part : List Token}
      (areTypeTokens : ∀ token ∈ tokens, IsTypeToken token)
      (isPart : part ⊆ tokens) : ∀ token ∈ part, IsTypeToken token :=
    fun token isToken => areTypeTokens token (isPart isToken)
  induction reads with
  | tighter _ ih => exact ih areTypeTokens
  | atom isAtom => cases isAtom <;> exact ⟨.of_not_mem (by simp), nofun⟩
  | member _ _ ih =>
      have compares := (ih (part areTypeTokens (by simp))).1
      exact ⟨compares.append (.of_not_mem (by simp)), nofun⟩
  | element _ _ ih ihIndex =>
      have compares := (ih (part areTypeTokens (by simp))).1
      have comparesIndex := (ihIndex (part areTypeTokens fun token isToken => by
        simp [isToken])).1
      exact ⟨compares.append
        (.cons (by simp) (comparesIndex.append (.of_not_mem (by simp)))), nofun⟩
  | @binary _ sign _ _ _ _ _ isOperator _ readsRight ih ihRight =>
      have angles : ∀ sign ∈ typeMarks, sign = "<" ∨ sign = ">" ∨
          operator? sign = none := by decide
      have compares := (ih (part areTypeTokens (by simp))).1
      have comparesRight := (ihRight (part areTypeTokens fun token isToken => by
        simp [isToken])).1
      refine ⟨compares.append (comparesRight.operand sign
        readsRight.startsOperand), fun _ => ?_⟩
      rcases angles sign (areTypeTokens (mark sign) (by simp)) with
        rfl | rfl | isNone
      · exact .inl (by simp)
      · exact .inr (by simp)
      · rw [isNone] at isOperator
        cases isOperator
  | @unary sign _ _ _ isOperator =>
      rw [prefixOperator?_of_mem_typeMarks (areTypeTokens (mark sign) (by simp))] at isOperator
      cases isOperator
  | parenthesized | call | new | cast =>
      exact absurd (areTypeTokens (mark "(") (by simp [argumentTokens]))
        (by decide)
  | conditionalMember =>
      exact absurd (areTypeTokens (mark "?.") (by simp)) (by decide)
  | anonymousObject =>
      exact absurd (areTypeTokens (mark "\x7b") (by simp [fieldTokens]))
        (by decide)
  | test => exact absurd (areTypeTokens (keyword "is") (by simp)) (by decide)
  | conditional => exact absurd (areTypeTokens (mark ":") (by simp)) (by decide)

/-- A type is not read as an operation. -/
theorem IsType.isOperation_eq_false (isType : IsType tokens)
    (reads : Reads level tokens first) : isOperation first = false := by
  obtain ⟨compares, angle⟩ := reads.comparesAngles isType.isTypeToken
  obtain ⟨noOpening, noClosing⟩ := isType.no_angle compares
  rw [← Bool.not_eq_true]
  exact fun isOperation => (angle isOperation).elim noOpening noClosing

end Grammar

end BasicLowering.Target
