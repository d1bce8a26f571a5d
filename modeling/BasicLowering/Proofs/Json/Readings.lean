import BasicLowering.Proofs.Json.Grammar
import Mathlib.Tactic.IntervalCases

/-!
# What has been read

The state of the lexer tells which text it has read: some tokens with blanks between
them, and behind them the part of a token. Every character keeps this up, so that a text
is read as some tokens only if it is made of them.
-/

namespace BasicLowering.Json

open Text (IsHexDigit IsHexNumber)

/-- What each step of a run keeps up about the items read so far, the run keeps up. -/
theorem foldlM_keeps {State Item : Type} {step : State → Item → Option State}
    {Has : State → List Item → Prop}
    (keeps : ∀ {state next : State} {read : List Item} {item : Item}, Has state read →
      step state item = some next → Has next (read ++ [item]))
    {state later : State} {read items : List Item} (has : Has state read)
    (runs : items.foldlM step state = some later) : Has later (read ++ items) := by
  induction items generalizing state read with
  | nil =>
      obtain rfl : state = later := Option.some.inj runs
      rwa [List.append_nil]
  | cons item items ih =>
      rw [List.foldlM_cons] at runs
      obtain ⟨between, steps, runs⟩ := Option.bind_eq_some_iff.mp runs
      rw [List.append_cons]
      exact ih (keeps has steps) runs

/-! ## Numbers -/

namespace NumberPhase

variable {phase later : NumberPhase} {text : List Char} {character : Char}

/-- What has been read of a number in a phase, its sign included. -/
def Has : NumberPhase → List Char → Prop
  | sign, text => text ∈ [[], ['-']]
  | zero, text => ∃ sign ∈ [[], ['-']], text = sign ++ ['0']
  | integer, text =>
      ∃ sign ∈ [[], ['-']], ∃ digits, text = sign ++ digits ∧ IsDigits digits ∧
        digits.head? ≠ some '0'
  | point, text => ∃ whole, text = whole ++ ['.'] ∧ IsWhole whole
  | fraction, text =>
      ∃ whole digits, text = whole ++ '.' :: digits ∧ IsWhole whole ∧ IsDigits digits
  | exponent, text =>
      ∃ decimal, ∃ letter ∈ ['e', 'E'], text = decimal ++ [letter] ∧ IsDecimal decimal
  | exponentSign, text =>
      ∃ decimal, ∃ letter ∈ ['e', 'E'], ∃ sign ∈ ['+', '-'],
        text = decimal ++ [letter, sign] ∧ IsDecimal decimal
  | exponentDigits, text =>
      ∃ decimal, ∃ letter ∈ ['e', 'E'], ∃ sign ∈ [[], ['+'], ['-']], ∃ digits,
        text = decimal ++ letter :: (sign ++ digits) ∧ IsDecimal decimal ∧ IsDigits digits

theorem isDigits_singleton (isDigit : character.isDigit = true) : IsDigits [character] :=
  ⟨List.cons_ne_nil _ _, by simpa using isDigit⟩

theorem isDigits_append_singleton (areDigits : IsDigits text)
    (isDigit : character.isDigit = true) : IsDigits (text ++ [character]) := by
  refine ⟨by simp, fun other isOther => ?_⟩
  obtain isOther | isOther := List.mem_append.mp isOther
  · exact areDigits.2 other isOther
  · rwa [List.mem_singleton.mp isOther]

theorem Has.isWhole (has : phase.Has text) (isWhole : phase = zero ∨ phase = integer) :
    IsWhole text := by
  obtain rfl | rfl := isWhole
  · obtain ⟨sign, isSign, rfl⟩ := has
    exact ⟨sign, ['0'], rfl, isSign, isDigits_singleton rfl, fun _ => rfl⟩
  · obtain ⟨sign, isSign, digits, rfl, areDigits, notZero⟩ := has
    exact ⟨sign, digits, rfl, isSign, areDigits, fun isZero => absurd isZero notZero⟩

theorem Has.isDecimal (has : phase.Has text)
    (isDecimal : phase = zero ∨ phase = integer ∨ phase = fraction) : IsDecimal text := by
  obtain isWhole | isWhole | rfl := isDecimal
  · exact ⟨text, [], by simp, has.isWhole (.inl isWhole), .inl rfl⟩
  · exact ⟨text, [], by simp, has.isWhole (.inr isWhole), .inl rfl⟩
  · obtain ⟨whole, digits, rfl, isWhole, areDigits⟩ := has
    exact ⟨whole, _, rfl, isWhole, .inr ⟨digits, rfl, areDigits⟩⟩

theorem Has.isNumber (has : phase.Has text) (isComplete : phase.isComplete = true) :
    IsNumber text := by
  cases phase with
  | zero => exact ⟨text, [], by simp, has.isDecimal (.inl rfl), .inl rfl⟩
  | integer => exact ⟨text, [], by simp, has.isDecimal (.inr (.inl rfl)), .inl rfl⟩
  | fraction => exact ⟨text, [], by simp, has.isDecimal (.inr (.inr rfl)), .inl rfl⟩
  | exponentDigits =>
      obtain ⟨decimal, letter, isLetter, sign, isSign, digits, rfl, isDecimal, areDigits⟩ :=
        has
      exact ⟨decimal, _, rfl, isDecimal,
        .inr ⟨letter, sign, digits, rfl, isLetter, isSign, areDigits⟩⟩
  | _ => cases isComplete

/-- What has been read of a number after one more character. -/
theorem Has.next (has : phase.Has text) (next : phase.next? character = some later) :
    later.Has (text ++ [character]) := by
  cases phase with
  | sign =>
      simp only [next?] at next
      split_ifs at next with isZero isDigit <;> cases next
      · exact ⟨text, has, by rw [isZero]⟩
      · exact ⟨text, has, [character], rfl, isDigits_singleton isDigit, by simpa using isZero⟩
  | zero =>
      simp only [next?] at next
      split_ifs at next with isPoint isLetter <;> cases next
      · exact ⟨text, by rw [isPoint], has.isWhole (.inl rfl)⟩
      · exact ⟨text, character, by simpa using isLetter, rfl, has.isDecimal (.inl rfl)⟩
  | integer =>
      simp only [next?] at next
      split_ifs at next with isDigit isPoint isLetter <;> cases next
      · obtain ⟨sign, isSign, digits, rfl, areDigits, notZero⟩ := has
        refine ⟨sign, isSign, digits ++ [character], List.append_assoc ..,
          isDigits_append_singleton areDigits isDigit, ?_⟩
        rwa [List.head?_append_of_ne_nil _ areDigits.1]
      · exact ⟨text, by rw [isPoint], has.isWhole (.inr rfl)⟩
      · exact ⟨text, character, by simpa using isLetter, rfl, has.isDecimal (.inr (.inl rfl))⟩
  | point =>
      simp only [next?] at next
      split_ifs at next with isDigit
      cases next
      obtain ⟨whole, rfl, isWhole⟩ := has
      exact ⟨whole, [character], by simp, isWhole, isDigits_singleton isDigit⟩
  | fraction =>
      simp only [next?] at next
      split_ifs at next with isDigit isLetter <;> cases next
      · obtain ⟨whole, digits, rfl, isWhole, areDigits⟩ := has
        exact ⟨whole, digits ++ [character], by simp, isWhole,
          isDigits_append_singleton areDigits isDigit⟩
      · exact ⟨text, character, by simpa using isLetter, rfl, has.isDecimal (.inr (.inr rfl))⟩
  | exponent =>
      simp only [next?] at next
      split_ifs at next with isDigit isSign <;> cases next <;>
        obtain ⟨decimal, letter, isLetter, rfl, isDecimal⟩ := has
      · exact ⟨decimal, letter, isLetter, [], by decide, [character], by simp, isDecimal,
          isDigits_singleton isDigit⟩
      · exact ⟨decimal, letter, isLetter, character, by simpa using isSign, by simp, isDecimal⟩
  | exponentSign =>
      simp only [next?] at next
      split_ifs at next with isDigit
      cases next
      obtain ⟨decimal, letter, isLetter, sign, isSign, rfl, isDecimal⟩ := has
      exact ⟨decimal, letter, isLetter, [sign], by simpa using isSign, [character], by simp,
        isDecimal, isDigits_singleton isDigit⟩
  | exponentDigits =>
      simp only [next?] at next
      split_ifs at next with isDigit
      cases next
      obtain ⟨decimal, letter, isLetter, sign, isSign, digits, rfl, isDecimal, areDigits⟩ :=
        has
      exact ⟨decimal, letter, isLetter, sign, isSign, digits ++ [character], by simp,
        isDecimal, isDigits_append_singleton areDigits isDigit⟩

end NumberPhase

/-! ## Strings and tokens -/

section

variable {tokens : List Token} {token : Token} {early late written : List Char}
  {value : List Nat} {character : Char}

theorem spaced_append_blanks (spaced : Spaced tokens early) (areBlanks : IsBlanks late) :
    Spaced tokens (early ++ late) := by
  induction spaced with
  | nil blanks => exact .nil (List.forall_mem_append.mpr ⟨blanks, areBlanks⟩)
  | cons blanks isText _ ih =>
      rw [List.append_assoc, List.append_assoc]
      exact .cons blanks isText ih

theorem spaced_append_token (spaced : Spaced tokens early) (isText : token.IsText late) :
    Spaced (tokens ++ [token]) (early ++ late) := by
  induction spaced with
  | nil blanks =>
      have alone := Spaced.cons blanks isText (.nil (List.forall_mem_nil _))
      rwa [List.append_nil] at alone
  | cons blanks first _ ih =>
      rw [List.append_assoc, List.append_assoc]
      exact .cons blanks first ih

theorem spells_append_plain (spells : Spells written value) (noQuote : character ≠ '"')
    (noBackslash : character ≠ '\\') (noControl : ' ' ≤ character) :
    ∃ value, Spells (written ++ [character]) value :=
  ⟨_, spells_append spells (.plain noQuote noBackslash noControl .nil)⟩

theorem spells_append_letter (spells : Spells written value)
    (isSimple : isSimpleEscape character = true) :
    ∃ value, Spells (written ++ ['\\', character]) value := by
  have all : ∀ letter ∈ ['"', '\\', '/', 'b', 'f', 'n', 'r', 't'],
      ∃ pair ∈ letterEscapes, pair.1 = letter :=
    List.all_iff_forall_prop.mp (by decide)
  obtain ⟨⟨_, stands⟩, isEscape, rfl⟩ := all character (of_decide_eq_true isSimple)
  exact ⟨_, spells_append spells (.letter isEscape .nil)⟩

theorem isHexDigit_hexValue (isDigit : isHexDigit character = true) :
    IsHexDigit character (hexValue character) := by
  have range : (48 ≤ character.toNat ∧ character.toNat ≤ 57) ∨
      (97 ≤ character.toNat ∧ character.toNat ≤ 102) ∨
      (65 ≤ character.toNat ∧ character.toNat ≤ 70) := by
    simpa [isHexDigit, Char.isDigit, Char.le_def, UInt32.le_iff_toNat_le, or_assoc]
      using isDigit
  rw [← Char.ofNat_toNat character, IsHexDigit]
  obtain ⟨low, high⟩ | ⟨low, high⟩ | ⟨low, high⟩ := range <;>
    interval_cases character.toNat <;> decide

theorem spells_append_unit {digits : List Char} (spells : Spells written value)
    (areDigits : ∀ digit ∈ digits, isHexDigit digit = true) (length : digits.length = 4) :
    ∃ value, Spells (written ++ '\\' :: 'u' :: digits) value := by
  have isNumber : IsHexNumber digits
      ((digits.map hexValue).foldl (fun front value => front * 16 + value) 0) := by
    refine ⟨digits.map hexValue, ?_, rfl⟩
    rw [List.forall₂_map_right_iff, List.forall₂_same]
    exact fun digit isDigit => isHexDigit_hexValue (areDigits digit isDigit)
  have alone := Spells.unit isNumber length .nil
  rw [List.append_nil] at alone
  exact ⟨_, spells_append spells alone⟩

end

/-- What has been read of a token, its first quotation mark included. -/
def Reading.Has : Reading → List Char → Prop
  | between, text => text = []
  | word read, text => text = read.reverse
  | number phase read, text => text = read.reverse ∧ phase.Has text
  | string read, text => text = '"' :: read.reverse ∧ ∃ value, Spells read.reverse value
  | escape read, text =>
      text = '"' :: read.reverse ∧ ∃ written value, read.reverse = written ++ ['\\'] ∧
        Spells written value
  | digits missing read, text =>
      text = '"' :: read.reverse ∧ ∃ written digits value,
        read.reverse = written ++ '\\' :: 'u' :: digits ∧ Spells written value ∧
        (∀ digit ∈ digits, isHexDigit digit = true) ∧ digits.length + missing = 4 ∧
        0 < missing

namespace Lexer

variable {tokens : List Token} {lexer next : Lexer} {early text : List Char}
  {character : Char}

/-- A text that a lexer has read: its tokens, and behind them what it is reading. -/
def HasRead (lexer : Lexer) (text : List Char) : Prop :=
  ∃ early late, text = early ++ late ∧ Spaced lexer.tokens.reverse early ∧
    lexer.reading.Has late

theorem hasRead_blank (spaced : Spaced tokens.reverse early)
    (isBlank : isBlank character = true) :
    HasRead ⟨tokens, .between⟩ (early ++ [character]) := by
  refine ⟨_, [], (List.append_nil _).symm, spaced_append_blanks spaced ?_, rfl⟩
  simpa [IsBlanks, Json.isBlank, or_assoc] using isBlank

theorem hasRead_token {token : Token} {late : List Char} (spaced : Spaced tokens.reverse early)
    (isText : token.IsText late) : HasRead ⟨token :: tokens, .between⟩ (early ++ late) := by
  refine ⟨_, [], (List.append_nil _).symm, ?_, rfl⟩
  rw [List.reverse_cons]
  exact spaced_append_token spaced isText

theorem hasRead_start (spaced : Spaced tokens.reverse early)
    (starts : start tokens character = some lexer) :
    lexer.HasRead (early ++ [character]) := by
  have mark {token : Token} (isText : token.IsText [character])
      (reads : some ⟨token :: tokens, .between⟩ = some lexer) :
      lexer.HasRead (early ++ [character]) := by
    cases reads
    exact hasRead_token spaced isText
  unfold start at starts
  rcases ite_eq_iff.mp starts with ⟨isBlank, starts⟩ | ⟨-, starts⟩
  · cases starts
    exact hasRead_blank spaced isBlank
  rcases ite_eq_iff.mp starts with ⟨isMark, starts⟩ | ⟨-, starts⟩
  · exact mark (isMark ▸ .leftBrace) starts
  rcases ite_eq_iff.mp starts with ⟨isMark, starts⟩ | ⟨-, starts⟩
  · exact mark (isMark ▸ .rightBrace) starts
  rcases ite_eq_iff.mp starts with ⟨isMark, starts⟩ | ⟨-, starts⟩
  · exact mark (isMark ▸ .leftBracket) starts
  rcases ite_eq_iff.mp starts with ⟨isMark, starts⟩ | ⟨-, starts⟩
  · exact mark (isMark ▸ .rightBracket) starts
  rcases ite_eq_iff.mp starts with ⟨isMark, starts⟩ | ⟨-, starts⟩
  · exact mark (isMark ▸ .colon) starts
  rcases ite_eq_iff.mp starts with ⟨isMark, starts⟩ | ⟨-, starts⟩
  · exact mark (isMark ▸ .comma) starts
  rcases ite_eq_iff.mp starts with ⟨isQuote, starts⟩ | ⟨-, starts⟩
  · cases starts
    rw [isQuote]
    exact ⟨early, ['"'], rfl, spaced, rfl, [], .nil⟩
  rcases ite_eq_iff.mp starts with ⟨isSign, starts⟩ | ⟨-, starts⟩
  · cases starts
    rw [isSign]
    exact ⟨early, ['-'], rfl, spaced, rfl, List.mem_cons_of_mem _ List.mem_cons_self⟩
  split at starts
  · cases starts
    exact ⟨early, [character], rfl, spaced, rfl⟩
  · obtain ⟨phase, isNext, rfl⟩ := Option.map_eq_some_iff.mp starts
    have nothing : NumberPhase.Has .sign [] := List.mem_cons_self
    exact ⟨early, [character], rfl, spaced, rfl, nothing.next isNext⟩

theorem spaced_of_finish? (hasRead : lexer.HasRead text)
    (ends : lexer.finish? = some tokens) : Spaced tokens.reverse text := by
  obtain ⟨before, reading⟩ := lexer
  obtain ⟨early, late, rfl, spaced, has⟩ := hasRead
  cases reading with
  | between =>
      obtain rfl : late = [] := has
      obtain rfl : before = tokens := Option.some.inj ends
      rwa [List.append_nil]
  | word read =>
      obtain rfl : late = read.reverse := has
      obtain ⟨token, isWord, rfl⟩ := Option.map_eq_some_iff.mp ends
      rw [List.reverse_cons]
      refine spaced_append_token spaced ?_
      unfold wordToken? at isWord
      split_ifs at isWord with isTrue isFalse isNull
      · cases isWord
        rw [isTrue]
        exact .true
      · cases isWord
        rw [isFalse]
        exact .false
      · cases isWord
        rw [isNull]
        exact .null
  | number phase read =>
      obtain ⟨rfl, has⟩ := has
      simp only [finish?] at ends
      split_ifs at ends with isComplete
      cases ends
      rw [List.reverse_cons]
      exact spaced_append_token spaced (.number (has.isNumber isComplete))
  | _ => cases ends

theorem HasRead.step (hasRead : lexer.HasRead text)
    (steps : lexer.step character = some next) : next.HasRead (text ++ [character]) := by
  obtain ⟨before, reading⟩ := lexer
  -- What is being read ends before the character, unless the character goes on with it.
  have behindToken (ended : (finish? ⟨before, reading⟩).bind (start · character) =
      some next) : next.HasRead (text ++ [character]) := by
    obtain ⟨tokens, ends, starts⟩ := Option.bind_eq_some_iff.mp ended
    exact hasRead_start (spaced_of_finish? hasRead ends) starts
  cases reading with
  | between => exact behindToken steps
  | word read =>
      simp only [Lexer.step] at steps
      split_ifs at steps with isLower
      · cases steps
        obtain ⟨early, late, rfl, spaced, rfl⟩ := hasRead
        exact ⟨early, _, List.append_assoc .., spaced, List.reverse_cons.symm⟩
      · exact behindToken steps
  | number phase read =>
      simp only [Lexer.step] at steps
      split at steps
      · next later isNext =>
          cases steps
          obtain ⟨early, late, rfl, spaced, rfl, has⟩ := hasRead
          exact ⟨early, _, List.append_assoc .., spaced, List.reverse_cons.symm,
            has.next isNext⟩
      · exact behindToken steps
  | string read =>
      obtain ⟨early, late, rfl, spaced, rfl, value, spells⟩ := hasRead
      simp only [Lexer.step] at steps
      split_ifs at steps with isQuote isBackslash isControl
      · cases steps
        rw [isQuote, List.append_assoc]
        exact hasRead_token spaced (.string spells)
      · cases steps
        rw [isBackslash]
        exact ⟨early, _, List.append_assoc .., spaced, by simp, _, value,
          List.reverse_cons, spells⟩
      · cases steps
        refine ⟨early, _, List.append_assoc .., spaced, by simp, ?_⟩
        rw [List.reverse_cons]
        exact spells_append_plain spells isQuote isBackslash (Char.not_lt.mp isControl)
  | escape read =>
      obtain ⟨early, late, rfl, spaced, rfl, written, value, behind, spells⟩ := hasRead
      simp only [Lexer.step] at steps
      split_ifs at steps with isUnit isSimple
      · cases steps
        rw [isUnit]
        refine ⟨early, _, List.append_assoc .., spaced, by simp, written, [], value, ?_,
          spells, List.forall_mem_nil _, rfl, by decide⟩
        rw [List.reverse_cons, behind, List.append_assoc]
        rfl
      · cases steps
        refine ⟨early, _, List.append_assoc .., spaced, by simp, ?_⟩
        rw [List.reverse_cons, behind, List.append_assoc]
        exact spells_append_letter spells isSimple
  | digits missing read =>
      obtain ⟨early, late, rfl, spaced, rfl, written, digits, value, behind, spells,
        areDigits, length, lacks⟩ := hasRead
      simp only [Lexer.step] at steps
      split_ifs at steps with isDigit isLast
      all_goals
        have areDigits : ∀ digit ∈ digits ++ [character], isHexDigit digit = true :=
          List.forall_mem_append.mpr ⟨areDigits, by simpa using isDigit⟩
        have behind : (character :: read).reverse =
            written ++ '\\' :: 'u' :: (digits ++ [character]) := by
          rw [List.reverse_cons, behind, List.append_assoc]
          rfl
        cases steps
      · refine ⟨early, _, List.append_assoc .., spaced, by simp, ?_⟩
        rw [behind]
        refine spells_append_unit spells areDigits ?_
        rw [List.length_append, List.length_singleton]
        omega
      · refine ⟨early, _, List.append_assoc .., spaced, by simp, written, _, value, behind,
          spells, areDigits, ?_, by omega⟩
        rw [List.length_append, List.length_singleton]
        omega

end Lexer

/-- A text that is read as some tokens is made of them. -/
theorem spaced_of_tokens? {text : List Char} {tokens : List Token}
    (reads : tokens? text = some tokens) : Spaced tokens text := by
  obtain ⟨lexer, folds, finishes⟩ := Option.bind_eq_some_iff.mp reads
  obtain ⟨last, ends, same⟩ := Option.bind_eq_some_iff.mp finishes
  obtain rfl : last.reverse = tokens := Option.some.inj same
  have starts : Lexer.HasRead {} [] :=
    ⟨[], [], rfl, .nil (List.forall_mem_nil _), rfl⟩
  exact Lexer.spaced_of_finish? (foldlM_keeps Lexer.HasRead.step starts folds) ends

end BasicLowering.Json
