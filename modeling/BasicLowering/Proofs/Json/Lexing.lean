import BasicLowering.Proofs.Json.Grammar
import Mathlib.Data.List.Chain
import Mathlib.Tactic.IntervalCases

/-!
# Reading tokens

The lexer reads one character after another. A literal name or a number is complete only
once a character follows that is no part of it; any other token ends with its last
character.

So a text with blanks between its tokens is read as those tokens, as long as no two names
or numbers stand side by side.
-/

namespace BasicLowering.Json

/-- The first step of a run that may fail. -/
theorem read_cons {State Item : Type} {step : State → Item → Option State}
    {state next : State} {item : Item} (here : step state item = some next)
    (items : List Item) : (item :: items).foldlM step state = items.foldlM step next := by
  rw [List.foldlM_cons, here]
  rfl

/-! ## Numbers -/

/-- The digits. -/
def digits : List Char :=
  ['0', '1', '2', '3', '4', '5', '6', '7', '8', '9']

theorem mem_digits {character : Char} (isDigit : character.isDigit = true) :
    character ∈ digits := by
  have range : 48 ≤ character.toNat ∧ character.toNat ≤ 57 := by
    simpa [Char.isDigit, UInt32.le_iff_toNat_le] using isDigit
  obtain ⟨low, high⟩ := range
  rw [← Char.ofNat_toNat character]
  interval_cases character.toNat <;> decide

namespace NumberPhase

variable {phase between later : NumberPhase} {first second text : List Char}
  {character : Char}

/-- Whether a text leads from one phase of a number to another. -/
def Leads (phase : NumberPhase) (text : List Char) (later : NumberPhase) : Prop :=
  text.foldlM next? phase = some later

namespace Leads

theorem append (early : Leads phase first between) (late : Leads between second later) :
    Leads phase (first ++ second) later := by
  rw [Leads, List.foldlM_append, early]
  exact late

theorem cons (leads : phase.next? character = some between)
    (late : Leads between text later) : Leads phase (character :: text) later :=
  (read_cons leads text).trans late

theorem stays (goesOn : ∀ digit, digit.isDigit = true → phase.next? digit = some phase)
    (areDigits : ∀ digit ∈ text, digit.isDigit = true) : Leads phase text phase := by
  induction text with
  | nil => rfl
  | cons digit text ih =>
      obtain ⟨isDigit, others⟩ := List.forall_mem_cons.mp areDigits
      exact cons (goesOn digit isDigit) (ih others)

/-- Digits lead to a phase that goes on with digits. -/
theorem digits (starts : ∀ digit, digit.isDigit = true → phase.next? digit = some later)
    (goesOn : ∀ digit, digit.isDigit = true → later.next? digit = some later)
    (areDigits : IsDigits text) : Leads phase text later := by
  obtain ⟨notEmpty, areDigits⟩ := areDigits
  cases text with
  | nil => exact absurd rfl notEmpty
  | cons digit text =>
      obtain ⟨isDigit, others⟩ := List.forall_mem_cons.mp areDigits
      exact cons (starts digit isDigit) (stays goesOn others)

theorem integer (isInteger : IsInteger text) :
    Leads sign text zero ∨ Leads sign text integer := by
  obtain ⟨areDigits, noZero⟩ := isInteger
  by_cases startsZero : text.head? = some '0'
  · rw [noZero startsZero]
    exact .inl rfl
  · right
    obtain ⟨notEmpty, areDigits⟩ := areDigits
    cases text with
    | nil => exact absurd rfl notEmpty
    | cons digit text =>
        obtain ⟨isDigit, others⟩ := List.forall_mem_cons.mp areDigits
        have notZero : digit ≠ '0' := fun same => startsZero (by rw [same]; rfl)
        have starts : sign.next? digit = some .integer := by
          simp [next?, notZero, isDigit]
        refine cons starts (stays (fun digit isDigit => ?_) others)
        simp [next?, isDigit]

theorem fraction (isFraction : IsFraction text) (phase : NumberPhase)
    (isWhole : phase = zero ∨ phase = .integer) : Leads phase text fraction := by
  obtain ⟨digits, rfl, areDigits⟩ := isFraction
  have atPoint : phase.next? '.' = some point := by
    obtain rfl | rfl := isWhole <;> rfl
  refine cons atPoint (.digits ?_ ?_ areDigits) <;> simp +contextual [next?]

theorem exponent (isExponent : IsExponent text) (phase : NumberPhase)
    (isDecimal : phase = zero ∨ phase = .integer ∨ phase = .fraction) :
    Leads phase text exponentDigits := by
  obtain ⟨letter, sign, digits, rfl, isLetter, isSign, areDigits⟩ := isExponent
  have atLetter : phase.next? letter = some .exponent := by
    simp only [List.mem_cons, List.not_mem_nil, or_false] at isLetter
    obtain rfl | rfl | rfl := isDecimal <;> obtain rfl | rfl := isLetter <;> rfl
  refine cons atLetter ?_
  simp only [List.mem_cons, List.not_mem_nil, or_false] at isSign
  obtain rfl | isSign := isSign
  · refine .digits ?_ ?_ areDigits <;> simp +contextual [next?]
  · have atSign : Leads .exponent sign exponentSign := by
      obtain rfl | rfl := isSign <;> rfl
    refine atSign.append (.digits ?_ ?_ areDigits) <;> simp +contextual [next?]

end Leads

/-- A number leads to a phase in which it may end, once its sign is read. -/
theorem exists_complete {integer fraction exponent : List Char}
    (isInteger : IsInteger integer) (hasFraction : fraction = [] ∨ IsFraction fraction)
    (hasExponent : exponent = [] ∨ IsExponent exponent) :
    ∃ phase : NumberPhase, phase.isComplete = true ∧
      Leads sign (integer ++ (fraction ++ exponent)) phase := by
  obtain ⟨whole, isWhole, toWhole⟩ : ∃ whole, (whole = zero ∨ whole = .integer) ∧
      Leads sign integer whole := by
    obtain leads | leads := Leads.integer isInteger
    · exact ⟨zero, .inl rfl, leads⟩
    · exact ⟨.integer, .inr rfl, leads⟩
  obtain ⟨decimal, isDecimal, toDecimal⟩ : ∃ decimal,
      (decimal = zero ∨ decimal = .integer ∨ decimal = .fraction) ∧
        Leads whole fraction decimal := by
    obtain rfl | isFraction := hasFraction
    · exact ⟨whole, isWhole.imp_right .inl, rfl⟩
    · exact ⟨.fraction, .inr (.inr rfl), .fraction isFraction whole isWhole⟩
  obtain rfl | isExponent := hasExponent
  · refine ⟨decimal, ?_, toWhole.append (toDecimal.append rfl)⟩
    obtain rfl | rfl | rfl := isDecimal <;> rfl
  · exact ⟨exponentDigits, rfl,
      toWhole.append (toDecimal.append (.exponent isExponent decimal isDecimal))⟩

end NumberPhase

/-! ## What one character does -/

/-- The characters that are part of no literal name and of no number. -/
def delimiters : List Char :=
  [' ', '\t', '\n', '\r', '\x7b', '\x7d', '[', ']', ':', ',', '"']

/-- Whether a token is a literal name or a number, so that its end is known only from
what follows. -/
def Token.isBare : Token → Bool
  | null | boolean _ | number _ => true
  | _ => false

/-- Whether no two literal names or numbers stand side by side. -/
def Apart (tokens : List Token) : Prop :=
  tokens.IsChain fun token next => token.isBare = false ∨ next.isBare = false

namespace Lexer

variable {tokens before : List Token} {text written read : List Char} {character : Char}
  {phase later : NumberPhase}

theorem step_word_end (notLower : character.isLower = false) :
    step ⟨tokens, .word read⟩ character =
      (finish? ⟨tokens, .word read⟩).bind (start · character) := by
  simp [step, notLower]

theorem step_number (next : phase.next? character = some later) :
    step ⟨tokens, .number phase read⟩ character =
      some ⟨tokens, .number later (character :: read)⟩ := by
  simp only [step, next]

theorem step_number_end (noNext : phase.next? character = none) :
    step ⟨tokens, .number phase read⟩ character =
      (finish? ⟨tokens, .number phase read⟩).bind (start · character) := by
  simp only [step, noNext]

theorem step_sign : step ⟨tokens, .between⟩ '-' = some ⟨tokens, .number .sign ['-']⟩ :=
  rfl

theorem step_quote : step ⟨tokens, .between⟩ '"' = some ⟨tokens, .string []⟩ :=
  rfl

theorem step_backslash :
    step ⟨tokens, .string read⟩ '\\' = some ⟨tokens, .escape ('\\' :: read)⟩ :=
  rfl

theorem step_unit :
    step ⟨tokens, .escape read⟩ 'u' = some ⟨tokens, .digits 4 ('u' :: read)⟩ :=
  rfl

theorem step_string (noQuote : character ≠ '"') (noBackslash : character ≠ '\\')
    (noControl : ' ' ≤ character) :
    step ⟨tokens, .string read⟩ character =
      some ⟨tokens, .string (character :: read)⟩ := by
  simp [step, noQuote, noBackslash, noControl]

theorem step_escape (isSimple : isSimpleEscape character = true) (notUnit : character ≠ 'u') :
    step ⟨tokens, .escape read⟩ character =
      some ⟨tokens, .string (character :: read)⟩ := by
  simp [step, isSimple, notUnit]

theorem step_digits (isDigit : isHexDigit character = true) (missing : Nat) :
    step ⟨tokens, .digits (missing + 2) read⟩ character =
      some ⟨tokens, .digits (missing + 1) (character :: read)⟩ := by
  simp [step, isDigit]

theorem step_digits_last (isDigit : isHexDigit character = true) :
    step ⟨tokens, .digits 1 read⟩ character =
      some ⟨tokens, .string (character :: read)⟩ := by
  simp [step, isDigit]

/-! ## Reading one token -/

theorem read_number (leads : phase.Leads text later) (read : List Char) :
    text.foldlM step ⟨tokens, .number phase read⟩ =
      some ⟨tokens, .number later (text.reverse ++ read)⟩ := by
  induction text generalizing phase read with
  | nil =>
      obtain rfl : phase = later := Option.some.inj leads
      rfl
  | cons character text ih =>
      rw [NumberPhase.Leads, List.foldlM_cons] at leads
      obtain ⟨between, next, late⟩ := Option.bind_eq_some_iff.mp leads
      rw [read_cons (step_number next), ih late, List.reverse_cons, List.append_assoc]
      rfl

theorem read_string {value : List Nat} (spells : Spells written value) (read : List Char) :
    written.foldlM step ⟨tokens, .string read⟩ =
      some ⟨tokens, .string (written.reverse ++ read)⟩ := by
  induction spells generalizing read with
  | nil => rfl
  | plain noQuote noBackslash noControl _ ih =>
      rw [read_cons (step_string noQuote noBackslash noControl), ih, List.reverse_cons,
        List.append_assoc]
      rfl
  | letter isEscape _ ih =>
      have all : ∀ pair ∈ letterEscapes, isSimpleEscape pair.1 = true ∧ pair.1 ≠ 'u' := by
        decide
      obtain ⟨isSimple, notUnit⟩ := all _ isEscape
      rw [read_cons step_backslash, read_cons (step_escape isSimple notUnit), ih]
      simp
  | unit isNumber length _ ih =>
      obtain ⟨a, b, c, d, rfl, -, areDigits⟩ := exists_digits isNumber length
      simp only [List.forall_mem_cons] at areDigits
      obtain ⟨first, second, third, fourth, -⟩ := areDigits
      rw [read_cons step_backslash, read_cons step_unit,
        List.cons_append, read_cons (step_digits first 2),
        List.cons_append, read_cons (step_digits second 1),
        List.cons_append, read_cons (step_digits third 0),
        List.cons_append, read_cons (step_digits_last fourth), List.nil_append, ih]
      simp

/-- The tokens, the last one first, that a lexer has read once a delimiter follows or the
text ends. -/
structure Holds (lexer : Lexer) (tokens : List Token) : Prop where
  ends : lexer.finish? = some tokens
  goesOn : ∀ character ∈ delimiters, lexer.step character = start tokens character

theorem holds_between (tokens : List Token) : Holds ⟨tokens, .between⟩ tokens :=
  ⟨rfl, fun _ _ => rfl⟩

theorem holds_word {token : Token} (isWord : wordToken? read = some token) :
    Holds ⟨tokens, .word read⟩ (token :: tokens) := by
  have ends : finish? ⟨tokens, .word read⟩ = some (token :: tokens) := by
    simp only [finish?, isWord, Option.map_some]
  refine ⟨ends, fun character isDelimiter => ?_⟩
  have notLower : ∀ character ∈ delimiters, character.isLower = false :=
    List.all_iff_forall_prop.mp (by decide)
  rw [step_word_end (notLower character isDelimiter), ends]
  rfl

theorem holds_number (isComplete : phase.isComplete = true)
    (same : read.reverse = written) :
    Holds ⟨tokens, .number phase read⟩ (.number written :: tokens) := by
  have ends : finish? ⟨tokens, .number phase read⟩ = some (.number written :: tokens) := by
    simp only [finish?, isComplete, if_true, same]
  refine ⟨ends, fun character isDelimiter => ?_⟩
  have noNext : ∀ character ∈ delimiters, phase.next? character = none :=
    List.all_iff_forall_prop.mp (by cases phase <;> decide)
  rw [step_number_end (noNext character isDelimiter), ends]
  rfl

theorem start_digit (isDigit : character.isDigit = true) :
    start tokens character = (NumberPhase.next? .sign character).map fun phase =>
      ⟨tokens, .number phase [character]⟩ := by
  have isDigit := mem_digits isDigit
  simp only [digits, List.mem_cons, List.not_mem_nil, or_false] at isDigit
  obtain rfl | rfl | rfl | rfl | rfl | rfl | rfl | rfl | rfl | rfl := isDigit <;> rfl

theorem read_isNumber (isNumber : IsNumber text) :
    ∃ lexer, text.foldlM step ⟨tokens, .between⟩ = some lexer ∧
      lexer.Holds (.number text :: tokens) := by
  obtain ⟨_, exponent, rfl, ⟨_, fraction, rfl, ⟨sign, integer, rfl, isSign, isInteger⟩,
    hasFraction⟩, hasExponent⟩ := isNumber
  rw [List.append_assoc, List.append_assoc]
  obtain ⟨phase, isComplete, leads⟩ :=
    NumberPhase.exists_complete isInteger hasFraction hasExponent
  simp only [List.mem_cons, List.not_mem_nil, or_false] at isSign
  obtain rfl | rfl := isSign
  · obtain ⟨⟨notEmpty, areDigits⟩, -⟩ := isInteger
    cases integer with
    | nil => exact absurd rfl notEmpty
    | cons digit integer =>
        simp only [List.nil_append, List.cons_append] at leads ⊢
        rw [NumberPhase.Leads, List.foldlM_cons] at leads
        obtain ⟨first, next, late⟩ := Option.bind_eq_some_iff.mp leads
        have isDigit := areDigits digit List.mem_cons_self
        have starts : step ⟨tokens, .between⟩ digit =
            some ⟨tokens, .number first [digit]⟩ := by
          rw [show step ⟨tokens, .between⟩ digit = start tokens digit from rfl,
            start_digit isDigit, next]
          rfl
        exact ⟨_, (read_cons starts _).trans (read_number late _),
          holds_number isComplete (by simp)⟩
  · exact ⟨_, (read_cons step_sign _).trans
      (read_number leads _), holds_number isComplete (by simp)⟩

/-- A literal name or a number is read, up to its end. -/
theorem read_bare {token : Token} (isText : token.IsText text)
    (isBare : token.isBare = true) :
    ∃ lexer, text.foldlM step ⟨tokens, .between⟩ = some lexer ∧
      lexer.Holds (token :: tokens) := by
  cases isText with
  | null => exact ⟨⟨tokens, .word ['l', 'l', 'u', 'n']⟩, rfl, holds_word rfl⟩
  | true => exact ⟨⟨tokens, .word ['e', 'u', 'r', 't']⟩, rfl, holds_word rfl⟩
  | false => exact ⟨⟨tokens, .word ['e', 's', 'l', 'a', 'f']⟩, rfl, holds_word rfl⟩
  | number isNumber => exact read_isNumber isNumber
  | _ => cases isBare

/-- Any other token begins with a delimiter and ends with its last character. -/
theorem read_marked (tokens : List Token) {token : Token} (isText : token.IsText text)
    (notBare : token.isBare = false) :
    text.foldlM step ⟨tokens, .between⟩ = some ⟨token :: tokens, .between⟩ ∧
      ∃ first ∈ delimiters, text.head? = some first := by
  cases isText with
  | @string written value spells =>
      refine ⟨?_, '"', by decide, rfl⟩
      rw [read_cons step_quote, List.foldlM_append,
        read_string spells, List.append_nil]
      show step ⟨tokens, .string written.reverse⟩ '"' >>= pure = _
      simp [step]
  | leftBrace => exact ⟨rfl, '\x7b', by decide, rfl⟩
  | rightBrace => exact ⟨rfl, '\x7d', by decide, rfl⟩
  | leftBracket => exact ⟨rfl, '[', by decide, rfl⟩
  | rightBracket => exact ⟨rfl, ']', by decide, rfl⟩
  | colon => exact ⟨rfl, ':', by decide, rfl⟩
  | comma => exact ⟨rfl, ',', by decide, rfl⟩
  | _ => cases notBare

theorem read_blanks (areBlanks : IsBlanks text) :
    text.foldlM step ⟨tokens, .between⟩ = some ⟨tokens, .between⟩ := by
  induction text with
  | nil => rfl
  | cons blank text ih =>
      obtain ⟨isBlank, others⟩ := List.forall_mem_cons.mp areBlanks
      have here : step ⟨tokens, .between⟩ blank = some ⟨tokens, .between⟩ := by
        simp only [List.mem_cons, List.not_mem_nil, or_false] at isBlank
        obtain rfl | rfl | rfl | rfl := isBlank <;> rfl
      rw [read_cons here, ih others]

/-! ## Reading tokens -/

/-- A text that begins with a delimiter is read as from between two tokens. -/
theorem Holds.read_eq {lexer : Lexer} (holds : lexer.Holds before)
    (begins : ∃ first ∈ delimiters, text.head? = some first) :
    text.foldlM step lexer = text.foldlM step ⟨before, .between⟩ := by
  obtain ⟨first, isDelimiter, begins⟩ := begins
  obtain ⟨rest, rfl⟩ := List.head?_eq_some_iff.mp begins
  rw [List.foldlM_cons, List.foldlM_cons, holds.goesOn first isDelimiter]
  rfl

theorem Holds.read_blanks {lexer : Lexer} (holds : lexer.Holds before)
    (areBlanks : IsBlanks text) :
    ∃ later, text.foldlM step lexer = some later ∧ later.Holds before ∧
      (text ≠ [] ∨ lexer = ⟨before, .between⟩ → later = ⟨before, .between⟩) := by
  cases text with
  | nil => exact ⟨lexer, rfl, holds, fun known => known.resolve_left (absurd rfl)⟩
  | cons blank text =>
      have isDelimiter : ∀ blank ∈ [' ', '\t', '\n', '\r'], blank ∈ delimiters :=
        List.all_iff_forall_prop.mp (by decide)
      have begins := isDelimiter blank (areBlanks blank List.mem_cons_self)
      exact ⟨_, (holds.read_eq ⟨blank, begins, rfl⟩).trans (Lexer.read_blanks areBlanks),
        holds_between _, fun _ => rfl⟩

/-- A token is read behind other tokens, with blanks before it or none: it does not run
together with the last one unless both are bare. -/
theorem Holds.read_token {lexer : Lexer} {token : Token} (holds : lexer.Holds before)
    (isText : token.IsText text)
    (apart : lexer = ⟨before, .between⟩ ∨ token.isBare = false) :
    ∃ later, text.foldlM step lexer = some later ∧ later.Holds (token :: before) ∧
      (token.isBare = false → later = ⟨token :: before, .between⟩) := by
  cases isBare : token.isBare with
  | false =>
      obtain ⟨reads, begins⟩ := read_marked before isText isBare
      exact ⟨_, (holds.read_eq begins).trans reads, holds_between _, fun _ => rfl⟩
  | true =>
      obtain rfl := apart.resolve_right (by simp [isBare])
      obtain ⟨later, reads, holds⟩ := read_bare isText isBare
      exact ⟨later, reads, holds, fun notBare => by cases notBare⟩

/-- Tokens with blanks between them are read behind other tokens. -/
theorem read_spaced {tokens : List Token} {lexer : Lexer} (spaced : Spaced tokens text)
    (apart : Apart tokens)
    (holds : lexer.Holds before)
    (begins : lexer = ⟨before, .between⟩ ∨ ∀ token ∈ tokens.head?, token.isBare = false) :
    ∃ later, text.foldlM step lexer = some later ∧
      later.Holds (tokens.reverse ++ before) := by
  induction spaced generalizing lexer before with
  | nil areBlanks =>
      obtain ⟨later, reads, holds, -⟩ := holds.read_blanks areBlanks
      exact ⟨later, reads, holds⟩
  | @cons blanks text rest token tokens areBlanks isText further ih =>
      obtain ⟨between, readsBlanks, holds, known⟩ := holds.read_blanks areBlanks
      have here : between = ⟨before, .between⟩ ∨ token.isBare = false :=
        begins.imp (fun same => known (.inr same)) (fun marked => marked token rfl)
      obtain ⟨behind, readsToken, holds, marked⟩ := holds.read_token isText here
      obtain ⟨beside, others⟩ := List.isChain_cons.mp apart
      -- Only a bare token leaves the lexer in the middle, and no bare one is next then.
      have next : behind = ⟨token :: before, .between⟩ ∨
          ∀ next ∈ tokens.head?, next.isBare = false := by
        cases isBare : token.isBare with
        | false => exact .inl (marked isBare)
        | true =>
            exact .inr fun next isNext =>
              (beside next isNext).resolve_left (by simp [isBare])
      obtain ⟨later, readsRest, holds⟩ := ih others holds next
      refine ⟨later, ?_, by simpa using holds⟩
      rw [List.foldlM_append, readsBlanks]
      show (text ++ rest).foldlM step between = _
      rw [List.foldlM_append, readsToken]
      exact readsRest

end Lexer

/-- A text made of tokens is read as those tokens, as long as no two bare ones stand
side by side. -/
theorem tokens?_of_spaced {tokens : List Token} {text : List Char}
    (spaced : Spaced tokens text)
    (apart : Apart tokens) :
    tokens? text = some tokens := by
  obtain ⟨later, read, holds⟩ := Lexer.read_spaced spaced apart
    (Lexer.holds_between []) (.inl rfl)
  rw [List.append_nil] at holds
  rw [tokens?]
  simp [read, holds.ends]

end BasicLowering.Json
