import BasicLowering.Proofs.Target.Grammar

/-!
# Sequences with one reading

A sequence of tokens determines an expression if whatever is read from it, or
from it and more, begins with that expression. Suffixes and operators put
together sequences that determine their parts, and the result determines the
whole, as long as an operand is held together as tightly as its place asks for.
Parentheses help where it is not.
-/

namespace BasicLowering.Target.Grammar

open Token (mark keyword)

variable {level held : Level} {tokens later rest : List Token}
variable {value other : Expr}

/-! ## What may follow -/

theorem endsBefore_nil : EndsBefore level [] :=
  nofun

/-- No expression goes on with a mark that closes. -/
theorem endsBefore_closing {sign : String}
    (closes : sign ∈ [")", "]", "\x7d", ",", ":"]) :
    EndsBefore level (mark sign :: tokens) := by
  rintro _ ⟨⟩
  exact .inl closes

theorem IsAtom.unique {token same : Token} (isAtom : IsAtom token value)
    (isOther : IsAtom same other) (sameToken : token = same) : value = other := by
  cases isAtom <;> cases isOther <;> simp_all

/-- The access that a mark in front of the name of a member stands for. -/
def access? (sign : String) : Option (Expr → String → Expr) :=
  if sign = "." then some .member
  else if sign = "?." then some .conditionalMember
  else none

theorem mark_of_access? {sign : String} {accessTo : Expr → String → Expr}
    (isAccess : access? sign = some accessTo) :
    sign = "." ∧ .member = accessTo ∨
      sign = "?." ∧ .conditionalMember = accessTo := by
  unfold access? at isAccess
  split at isAccess
  · next isMember => exact .inl ⟨isMember, Option.some.inj isAccess⟩
  · split at isAccess
    · next isMember => exact .inr ⟨isMember, Option.some.inj isAccess⟩
    · cases isAccess

/-- The operand before a mark is primary or the operand of an operator. -/
theorem level_of_continuation? {sign : String}
    (isContinuation : continuation? sign = some level) :
    level = Level.primary ∨
      Level.conditional < level ∧ level < Level.unary := by
  unfold continuation? at isContinuation
  split_ifs at isContinuation
  · exact .inl (Option.some.inj isContinuation).symm
  · cases isContinuation
    exact .inr (by decide)
  · obtain ⟨⟨_, operator⟩, isOperator, rfl⟩ :=
      Option.map_eq_some_iff.mp isContinuation
    exact .inr (level_of_operator? isOperator)

/-- What ends an operand one level up ends it at a level to which nothing
continues. -/
theorem EndsBefore.of_succ (noMark : ∀ sign, continuation? sign ≠ some level)
    (noTest : level ≠ Level.relational)
    (ends : EndsBefore (level + 1) tokens) : EndsBefore level tokens := by
  intro token isFirst
  have endsAbove := ends token isFirst
  cases token with
  | mark sign =>
      rcases endsAbove with closes | ⟨other, isContinuation, isLooser⟩
      · exact .inl closes
      · refine .inr ⟨other, isContinuation,
          lt_of_le_of_ne (Nat.lt_succ_iff.mp isLooser) ?_⟩
        rintro rfl
        exact noMark sign isContinuation
  | keyword word =>
      exact ⟨endsAbove.1,
        lt_of_le_of_ne (Nat.lt_succ_iff.mp endsAbove.2) noTest.symm⟩
  | _ => exact endsAbove

/-- No operand before a mark is read at the level of prefixes. -/
theorem EndsBefore.ofUnary (ends : EndsBefore (Level.unary + 1) tokens) :
    EndsBefore Level.unary tokens := by
  refine ends.of_succ (fun sign isContinuation => ?_) (by decide)
  rcases level_of_continuation? isContinuation with isPrimary | between
  · exact absurd isPrimary (by decide)
  · exact absurd between.2 (lt_irrefl _)

/-- No operand before a mark is read at the level of conditional
expressions. -/
theorem EndsBefore.ofConditional
    (ends : EndsBefore (Level.conditional + 1) tokens) :
    EndsBefore Level.conditional tokens := by
  refine ends.of_succ (fun sign isContinuation => ?_) (by decide)
  rcases level_of_continuation? isContinuation with isPrimary | between
  · exact absurd isPrimary (by decide)
  · exact absurd between.1 (lt_irrefl _)

/-! ## Entries -/

/-- Whether a sequence goes on with the mark after an entry of a list. -/
def FollowsEntry (closing : String) (tokens : List Token) : Prop :=
  ∀ token ∈ tokens.head?, token = mark "," ∨ token = mark closing

/-- The entries after the first one, each after its comma. -/
def furtherTokens (sign : String) (entries : List Entry) : List Token :=
  entries.flatMap fun entry =>
    mark "," :: labelled sign entry.label entry.tokens

theorem commaSeparated_cons (sign : String) (entry : Entry)
    (entries : List Entry) :
    commaSeparated ((entry :: entries).map fun entry =>
        labelled sign entry.label entry.tokens) =
      labelled sign entry.label entry.tokens ++ furtherTokens sign entries := by
  induction entries generalizing entry with
  | nil => simp [commaSeparated, furtherTokens]
  | cons next entries ih =>
      have further := ih next
      rw [List.map_cons] at further
      rw [List.map_cons, List.map_cons, commaSeparated, further]
      · rfl
      · simp

theorem followsEntry_furtherTokens (sign closing : String)
    (entries : List Entry) (rest : List Token) :
    FollowsEntry closing (furtherTokens sign entries ++ mark closing :: rest) := by
  cases entries <;> (rintro _ ⟨⟩; simp)

theorem arguments_eq (entries : List Entry) :
    arguments entries =
      (fields entries).map fun entry => argument entry.1 entry.2 := by
  simp [arguments, fields]

/-! ## Patterns -/

/-- Whether no type of a pattern is called like a word that patterns begin
with. -/
def IsPlainPattern : Pattern → Prop
  | .type name => name ≠ "var" ∧ name ≠ "not"
  | .not inner => IsPlainPattern inner
  | _ => True

theorem not_endsBefore_name {text : String} :
    ¬ EndsBefore level (.name text :: tokens) :=
  fun ends => ends _ rfl

theorem ReadsPattern.not_endsBefore {pattern : Pattern}
    (reads : ReadsPattern tokens pattern) :
    ¬ EndsBefore level (tokens ++ rest) := by
  intro ends
  cases reads with
  | notNull | named =>
      rcases ends _ rfl with isClosing | ⟨_, isContinuation, -⟩
      · exact absurd isClosing (by decide)
      · rw [show continuation? "\x7b" = none by decide] at isContinuation
        cases isContinuation
  | null => exact absurd (ends _ rfl).1 (by decide)
  | anything | type | not => exact not_endsBefore_name ends

/-- A pattern is read in one way. -/
theorem ReadsPattern.eq_of_ends {reading : List Token} {pattern same : Pattern}
    (reads : ReadsPattern tokens pattern) (isPlain : IsPlainPattern pattern)
    (readsSame : ReadsPattern reading same)
    (sameTokens : reading ++ rest = tokens ++ later)
    (ends : EndsBefore level rest) (endsLater : EndsBefore level later) :
    same = pattern ∧ rest = later := by
  induction reads generalizing reading same with
  | anything text =>
      cases readsSame with
      | type =>
          simp only [List.cons_append, List.nil_append, List.cons.injEq] at sameTokens
          rw [sameTokens.2] at ends
          exact absurd ends not_endsBefore_name
      | _ => simp_all
  | notNull =>
      cases readsSame with
      | named =>
          simp only [List.cons_append, List.nil_append, List.cons.injEq,
            true_and] at sameTokens
          rw [← sameTokens] at endsLater
          exact absurd endsLater not_endsBefore_name
      | _ => simp_all
  | named text =>
      cases readsSame with
      | notNull =>
          simp only [List.cons_append, List.nil_append, List.cons.injEq,
            true_and] at sameTokens
          rw [sameTokens] at ends
          exact absurd ends not_endsBefore_name
      | _ => simp_all
  | null => cases readsSame <;> simp_all
  | type text =>
      obtain ⟨notVar, notNot⟩ := isPlain
      cases readsSame <;> simp_all [eq_comm]
  | not reads ih =>
      cases readsSame with
      | type =>
          simp only [List.cons_append, List.nil_append, List.cons.injEq] at sameTokens
          rw [sameTokens.2] at ends
          exact absurd ends reads.not_endsBefore
      | not readsInner =>
          obtain ⟨rfl, sameRest⟩ := ih isPlain readsInner
            (List.cons.inj sameTokens).2
          exact ⟨rfl, sameRest⟩
      | _ => simp at sameTokens

/-! ## Determined expressions -/

variable [Spelling]

/-- Whether a sequence is read as an expression, and every reading of it and of
what follows begins with that expression and goes on from there. -/
structure Determines (tokens : List Token) (held : Level) (value : Expr) :
    Prop where
  reads : Reads held tokens value
  unfolds : ∀ {level : Level} {reading rest later : List Token} {other : Expr},
    level ≤ held → Reads level reading other →
    reading ++ rest = tokens ++ later → EndsBefore level rest →
    EndsBefore (held + 1) later →
    ∃ tail, GoesOn level held value tail other ∧ tail ++ rest = later

/-- What is read at a level is read at every looser one. -/
theorem Reads.loosen {looser : Level} (reads : Reads level tokens value)
    (isLooser : looser ≤ level) : Reads looser tokens value := by
  induction isLooser with
  | refl => exact reads
  | step _ ih => exact ih reads.tighter

/-- A sequence that something follows is not over. -/
theorem GoesOn.ne_nil {token : Token} {more : List Token}
    (goesOn : GoesOn level held value tokens other)
    (same : tokens ++ rest = token :: more) (ends : EndsBefore level rest)
    (continues : ¬ Ends level token) : tokens ≠ [] := by
  rintro rfl
  subst same
  exact continues (ends token rfl)

namespace Determines

/-- Before what closes or groups less tightly, a reading is the expression. -/
theorem eq_of_ends (determines : Determines tokens held value)
    {reading : List Token} (isLooser : level ≤ held)
    (reads : Reads level reading other)
    (same : reading ++ rest = tokens ++ later) (ends : EndsBefore level rest)
    (endsLater : EndsBefore level later) : other = value ∧ rest = later := by
  obtain ⟨tail, goesOn, sameTail⟩ := determines.unfolds isLooser reads same ends
    (endsLater.mono (isLooser.trans (Nat.le_succ _)))
  obtain ⟨rfl, rfl⟩ := goesOn.eq_nil sameTail endsLater
  exact ⟨rfl, sameTail⟩

/-- A sequence that determines an expression is read as no other. -/
theorem reads_iff (determines : Determines tokens held value) :
    Reads Level.conditional tokens other ↔ other = value := by
  constructor
  · intro reads
    exact (determines.eq_of_ends (Nat.zero_le _) reads rfl endsBefore_nil
      endsBefore_nil).1
  · rintro rfl
    exact determines.reads.loosen (Nat.zero_le _)

/-! ### Operands -/

theorem atom {token : Token} (isAtom : IsAtom token value) :
    Determines [token] Level.primary value := by
  refine ⟨.atom isAtom, fun _ reads same _ _ => ?_⟩
  obtain ⟨start, tail, held, operand, rfl, begins, goesOn⟩ := reads.isReached
  have isOperand : start = [token] ∧ held = Level.primary ∧ operand = value := by
    cases begins with
    | atom isOther =>
        have sameToken := (List.cons.inj same).1
        exact ⟨by rw [sameToken], rfl, isOther.unique isAtom sameToken⟩
    | unary | parenthesized | cast | new | anonymousObject =>
        have sameToken := (List.cons.inj same).1
        cases isAtom <;> simp at sameToken
  obtain ⟨rfl, rfl, rfl⟩ := isOperand
  exact ⟨tail, goesOn, by simpa using same⟩

/-- Parentheses determine what is inside, since no operation is read as a
type. -/
theorem parenthesized (determines : Determines tokens held value)
    (isOperation : isOperation value = true) :
    Determines (mark "(" :: (tokens ++ [mark ")"])) Level.primary value := by
  refine ⟨.parenthesized (determines.reads.loosen (Nat.zero_le _)),
    fun {_ _ rest later _} _ reads same _ _ => ?_⟩
  obtain ⟨start, tail, above, operand, rfl, begins, goesOn⟩ := reads.isReached
  cases begins with
  | @parenthesized innerTokens _ readsInner =>
      have inner : innerTokens ++ mark ")" :: (tail ++ rest) =
          tokens ++ mark ")" :: later := by simpa using same
      obtain ⟨rfl, sameRest⟩ := determines.eq_of_ends (Nat.zero_le _) readsInner
        inner (endsBefore_closing (by simp)) (endsBefore_closing (by simp))
      exact ⟨tail, goesOn, (List.cons.inj sameRest).2⟩
  | @cast typeTokens operandTokens _ isType readsOperand =>
      have inner : typeTokens ++ mark ")" :: (operandTokens ++ (tail ++ rest)) =
          tokens ++ mark ")" :: later := by simpa using same
      have isInner := eq_of_append_paren determines.reads.opensFirst isType
        inner.symm
      subst isInner
      rw [isType.isOperation_eq_false determines.reads] at isOperation
      cases isOperation
  | atom isAtom =>
      have sameToken := (List.cons.inj same).1
      cases isAtom <;> simp at sameToken
  | new | anonymousObject =>
      have sameToken := (List.cons.inj same).1
      simp at sameToken
  | unary isOperator =>
      have sameToken := (List.cons.inj same).1
      rw [Token.mark.injEq] at sameToken
      rw [sameToken] at isOperator
      cases isOperator

/-- A prefix determines its operator. -/
theorem unary {sign : String} {operator : UnaryOperator}
    (isOperator : prefixOperator? sign = some operator)
    (determines : Determines tokens held value) (isHeld : Level.unary ≤ held) :
    Determines (mark sign :: tokens) Level.unary (.unary operator value) := by
  refine ⟨.unary isOperator (determines.reads.loosen isHeld),
    fun {_ _ rest later _} _ reads same ends endsLater => ?_⟩
  obtain ⟨start, tail, above, operand, rfl, begins, goesOn⟩ := reads.isReached
  cases begins with
  | @unary other _ operandTokens _ isOther readsOperand =>
      have both : mark other = mark sign ∧
          operandTokens ++ (tail ++ rest) = tokens ++ later := by
        simpa using same
      obtain ⟨sameToken, inner⟩ := both
      rw [Token.mark.injEq] at sameToken
      subst sameToken
      rw [isOperator] at isOther
      cases isOther
      obtain ⟨rfl, sameRest⟩ := determines.eq_of_ends isHeld readsOperand
        inner (goesOn.endsBefore ends).ofUnary endsLater.ofUnary
      exact ⟨tail, goesOn, sameRest⟩
  | parenthesized | cast =>
      have sameToken := (List.cons.inj same).1
      rw [Token.mark.injEq] at sameToken
      rw [← sameToken] at isOperator
      cases isOperator
  | atom isAtom =>
      have sameToken := (List.cons.inj same).1
      cases isAtom <;> simp at sameToken
  | new | anonymousObject =>
      have sameToken := (List.cons.inj same).1
      simp at sameToken

/-- A cast determines its type and its operand, unless its type could be read as
an expression in parentheses. -/
theorem cast {typeTokens : List Token} (isType : IsType typeTokens)
    (noExpression : ∀ other, ¬ Reads Level.conditional typeTokens other)
    (determines : Determines tokens held value) (isHeld : Level.unary ≤ held) :
    Determines (mark "(" :: (typeTokens ++ mark ")" :: tokens)) Level.unary
      (.cast (Spelling.typeName typeTokens) value) := by
  refine ⟨.cast isType (determines.reads.loosen isHeld),
    fun {_ _ rest later _} _ reads same ends endsLater => ?_⟩
  obtain ⟨start, tail, above, operand, rfl, begins, goesOn⟩ := reads.isReached
  cases begins with
  | @parenthesized innerTokens _ readsInner =>
      have inner : innerTokens ++ mark ")" :: (tail ++ rest) =
          typeTokens ++ mark ")" :: (tokens ++ later) := by simpa using same
      have isInner := eq_of_append_paren readsInner.opensFirst isType inner
      exact absurd (isInner ▸ readsInner) (noExpression _)
  | @cast otherTokens operandTokens _ isOther readsOperand =>
      have inner : otherTokens ++ mark ")" :: (operandTokens ++ (tail ++ rest)) =
          typeTokens ++ mark ")" :: (tokens ++ later) := by simpa using same
      have sameType := eq_of_append_paren
        (.of_not_mem (isOther.not_mem_paren (.inr rfl))) isType inner
      subst sameType
      have operands := (List.cons.inj (List.append_cancel_left inner)).2
      obtain ⟨rfl, sameRest⟩ := determines.eq_of_ends isHeld readsOperand
        operands (goesOn.endsBefore ends).ofUnary endsLater.ofUnary
      exact ⟨tail, goesOn, sameRest⟩
  | atom isAtom =>
      have sameToken := (List.cons.inj same).1
      cases isAtom <;> simp at sameToken
  | new | anonymousObject =>
      have sameToken := (List.cons.inj same).1
      simp at sameToken
  | unary isOperator =>
      have sameToken := (List.cons.inj same).1
      rw [Token.mark.injEq] at sameToken
      rw [sameToken] at isOperator
      cases isOperator

/-! ### Suffixes -/

/-- A reading of a sequence and a token that continues it goes on with the
token. -/
theorem continuedBy {reading : List Token} {token : Token}
    (determines : Determines tokens held value) (isLooser : level ≤ held)
    (continues : ¬ Ends level token) (endsAbove : Ends (held + 1) token)
    (reads : Reads level reading other)
    (same : reading ++ rest = tokens ++ token :: later)
    (ends : EndsBefore level rest) :
    ∃ tail, tail ≠ [] ∧ GoesOn level held value tail other ∧
      tail ++ rest = token :: later := by
  obtain ⟨tail, goesOn, sameTail⟩ := determines.unfolds isLooser reads same ends
    (by rintro _ ⟨⟩; exact endsAbove)
  exact ⟨tail, goesOn.ne_nil sameTail ends continues, goesOn, sameTail⟩

theorem continued {reading : List Token} {sign : String} {between : Level}
    (determines : Determines tokens held value)
    (isContinuation : continuation? sign = some between)
    (above : level ≤ between) (below : between ≤ held)
    (reads : Reads level reading other)
    (same : reading ++ rest = tokens ++ mark sign :: later)
    (ends : EndsBefore level rest) :
    ∃ tail, tail ≠ [] ∧ GoesOn level held value tail other ∧
      tail ++ rest = mark sign :: later := by
  refine determines.continuedBy (above.trans below) ?_ ?_ reads same ends
  · rw [ends_mark_iff isContinuation]
    exact above.not_gt
  · rw [ends_mark_iff isContinuation]
    exact Nat.lt_succ_of_le below

/-- The access to a member determines its receiver and its name. -/
theorem access {sign : String} {accessTo : Expr → String → Expr}
    (isAccess : access? sign = some accessTo)
    (determines : Determines tokens held value)
    (isHeld : Level.primary ≤ held) (text : String) :
    Determines (tokens ++ [mark sign, .name text]) Level.primary
      (accessTo value text) := by
  have isMark := mark_of_access? isAccess
  have isContinuation : continuation? sign = some Level.primary := by
    rcases isMark with ⟨rfl, -⟩ | ⟨rfl, -⟩ <;> decide
  have noOperator : operator? sign = none := by
    rcases isMark with ⟨rfl, -⟩ | ⟨rfl, -⟩ <;> decide
  refine ⟨?_, fun {_ _ rest later _} isLooser reads same ends _ => ?_⟩
  · have readsReceiver := determines.reads.loosen isHeld
    rcases isMark with ⟨rfl, rfl⟩ | ⟨rfl, rfl⟩
    · exact .member text readsReceiver
    · exact .conditionalMember text readsReceiver
  · rw [List.append_assoc] at same
    obtain ⟨tail, notNil, goesOn, sameTail⟩ :=
      determines.continued isContinuation isLooser isHeld reads same ends
    cases goesOn with
    | done => exact absurd rfl notNil
    | @member _ _ _ tokens _ _ further
    | @conditionalMember _ _ _ tokens _ _ further =>
        obtain ⟨rfl, rfl, sameRest⟩ :
            _ = sign ∧ _ = text ∧ tokens ++ rest = later := by
          simpa using sameTail
        obtain rfl := Option.some.inj isAccess
        exact ⟨_, further, sameRest⟩
    | binary isOperator =>
        rw [Token.mark.inj (List.cons.inj sameTail).1, noOperator] at isOperator
        cases isOperator
    | _ =>
        rcases isMark with ⟨rfl, -⟩ | ⟨rfl, -⟩ <;>
          simp [argumentTokens] at sameTail

theorem element {indexTokens : List Token} {index : Expr} {indexHeld : Level}
    (determines : Determines tokens held value)
    (isHeld : Level.primary ≤ held)
    (determinesIndex : Determines indexTokens indexHeld index) :
    Determines (tokens ++ mark "[" :: (indexTokens ++ [mark "]"]))
      Level.primary (.element value index) := by
  refine ⟨.element (determines.reads.loosen isHeld)
      (determinesIndex.reads.loosen (Nat.zero_le _)),
    fun {_ _ rest later _} isLooser reads same ends _ => ?_⟩
  rw [List.append_assoc] at same
  obtain ⟨tail, notNil, goesOn, sameTail⟩ :=
    determines.continued (by decide) isLooser isHeld reads same ends
  cases goesOn with
  | done => exact absurd rfl notNil
  | @element _ _ _ _ otherTokens tokens _ readsIndex further =>
      have inner : otherTokens ++ mark "]" :: (tokens ++ rest) =
          indexTokens ++ mark "]" :: later := by simpa using sameTail
      obtain ⟨rfl, sameRest⟩ := determinesIndex.eq_of_ends (Nat.zero_le _)
        readsIndex inner (endsBefore_closing (by simp))
        (endsBefore_closing (by simp))
      exact ⟨_, further, (List.cons.inj sameRest).2⟩
  | binary isOperator =>
      rw [Token.mark.inj (List.cons.inj sameTail).1] at isOperator
      cases isOperator
  | _ => simp [argumentTokens] at sameTail

end Determines

/-! ### Lists -/

/-- No expression begins with a mark that closes or divides. -/
theorem Reads.ne_closing {sign : String} {more : List Token}
    (closes : sign ∈ [")", "]", "\x7d", ",", ":"])
    (reads : Reads level tokens value) :
    tokens ++ rest ≠ mark sign :: more := by
  intro same
  obtain ⟨start, tail, above, operand, rfl, begins, -⟩ := reads.isReached
  cases begins with
  | atom isAtom => cases isAtom <;> simp at same
  | parenthesized | cast =>
      rw [← Token.mark.inj (List.cons.inj same).1] at closes
      exact absurd closes (by decide)
  | new | anonymousObject => simp at same
  | unary isOperator =>
      rw [Token.mark.inj (List.cons.inj same).1] at isOperator
      have noPrefix : ∀ sign ∈ [")", "]", "\x7d", ",", ":"],
          prefixOperator? sign = none := by decide
      rw [noPrefix sign closes] at isOperator
      cases isOperator

/-- No expression begins like a label, unless the label ends what is read. -/
theorem Reads.ne_label {sign text : String} {more : List Token}
    (isLabel : sign = ":" ∨ sign = "=")
    (reads : Reads level tokens value)
    (noSign : ∀ token ∈ rest.head?, token ≠ mark sign) :
    tokens ++ rest ≠ .name text :: mark sign :: more := by
  intro same
  obtain ⟨start, tail, above, operand, rfl, begins, goesOn⟩ := reads.isReached
  have isFirst : start = [.name text] := by
    cases begins with
    | atom isAtom => rw [(List.cons.inj same).1]
    | _ => simp at same
  subst isFirst
  have sameTail : tail ++ rest = mark sign :: more := by simpa using same
  rcases goesOn.continues with ⟨rfl, -⟩ | ⟨token, others, rfl, continues, ends⟩
  · subst sameTail
    exact noSign _ rfl rfl
  · have sameToken := (List.cons.inj sameTail).1
    subst sameToken
    rcases isLabel with rfl | rfl
    · exact continues (.inl (by simp))
    · rcases ends with isClosing | ⟨other, isContinuation, -⟩
      · exact absurd isClosing (by decide)
      · rw [show continuation? "=" = none by decide] at isContinuation
        cases isContinuation

/-- An entry determines its label and its value. -/
theorem Determines.entry {sign closing : String} {entry reading : Entry}
    (isLabel : sign = ":" ∨ sign = "=")
    (isClosing : closing = ")" ∨ closing = "\x7d")
    (determines : Determines entry.tokens held entry.value)
    (reads : Reads Level.conditional reading.tokens reading.value)
    (same : labelled sign reading.label reading.tokens ++ rest =
      labelled sign entry.label entry.tokens ++ later)
    (follows : FollowsEntry closing rest)
    (followsLater : FollowsEntry closing later) :
    (reading.label, reading.value) = (entry.label, entry.value) ∧
      rest = later := by
  have ends {tokens : List Token} (follows : FollowsEntry closing tokens) :
      EndsBefore Level.conditional tokens := by
    intro token isFirst
    rcases follows token isFirst with rfl | rfl
    · exact .inl (by simp)
    · rcases isClosing with rfl | rfl <;> exact .inl (by simp)
  have noSign {tokens : List Token} (follows : FollowsEntry closing tokens) :
      ∀ token ∈ tokens.head?, token ≠ mark sign := by
    rintro token isFirst rfl
    rcases follows _ isFirst with isSign | isSign <;>
      rcases isClosing with rfl | rfl <;> rcases isLabel with rfl | rfl <;>
      simp at isSign
  have values
      (sameTokens : reading.tokens ++ rest = entry.tokens ++ later) :=
    determines.eq_of_ends (Nat.zero_le _) reads sameTokens (ends follows)
      (ends followsLater)
  obtain ⟨label, entryTokens, entryValue⟩ := entry
  obtain ⟨otherLabel, readingTokens, readingValue⟩ := reading
  cases label with
  | none =>
      cases otherLabel with
      | none =>
          obtain ⟨rfl, sameRest⟩ := values same
          exact ⟨rfl, sameRest⟩
      | some text =>
          exact absurd same.symm
            (determines.reads.ne_label isLabel (noSign followsLater))
  | some text =>
      cases otherLabel with
      | none =>
          exact absurd same (reads.ne_label isLabel (noSign follows))
      | some other =>
          obtain ⟨rfl, sameTokens⟩ : other = text ∧
              readingTokens ++ rest = entryTokens ++ later := by
            simpa [labelled] using same
          obtain ⟨rfl, sameRest⟩ := values sameTokens
          exact ⟨rfl, sameRest⟩

section

variable {sign closing : String} {entries readings : List Entry}

/-- The further entries of a list determine their labels and values. -/
theorem eq_of_furtherTokens (isLabel : sign = ":" ∨ sign = "=")
    (isClosing : closing = ")" ∨ closing = "\x7d")
    (determines : ∀ entry ∈ entries,
      ∃ held, Determines entry.tokens held entry.value)
    (reads : ∀ reading ∈ readings,
      Reads Level.conditional reading.tokens reading.value)
    (same : furtherTokens sign readings ++ mark closing :: rest =
      furtherTokens sign entries ++ mark closing :: later) :
    fields readings = fields entries ∧ rest = later := by
  have noComma : mark closing ≠ mark "," := by
    rcases isClosing with rfl | rfl <;> simp
  induction entries generalizing readings with
  | nil =>
      cases readings with
      | nil => exact ⟨rfl, (List.cons.inj same).2⟩
      | cons reading readings =>
          exact absurd (List.cons.inj same).1.symm noComma
  | cons entry entries ih =>
      cases readings with
      | nil => exact absurd (List.cons.inj same).1 noComma
      | cons reading readings =>
          obtain ⟨held, determinesEntry⟩ := determines entry List.mem_cons_self
          have sameEntry :
              labelled sign reading.label reading.tokens ++
                  (furtherTokens sign readings ++ mark closing :: rest) =
                labelled sign entry.label entry.tokens ++
                  (furtherTokens sign entries ++ mark closing :: later) := by
            simpa [furtherTokens] using same
          obtain ⟨sameFirst, sameFurther⟩ := determinesEntry.entry isLabel
            isClosing (reads reading List.mem_cons_self) sameEntry
            (followsEntry_furtherTokens _ _ _ _)
            (followsEntry_furtherTokens _ _ _ _)
          obtain ⟨sameFields, sameRest⟩ := ih
            (fun other isOther => determines other (List.mem_cons_of_mem _ isOther))
            (fun other isOther => reads other (List.mem_cons_of_mem _ isOther))
            sameFurther
          refine ⟨?_, sameRest⟩
          rw [fields, List.map_cons, sameFirst, ← fields, sameFields]
          rfl

/-- The entries of a list determine their labels and values. -/
theorem eq_of_commaSeparated (isLabel : sign = ":" ∨ sign = "=")
    (isClosing : closing = ")" ∨ closing = "\x7d")
    (determines : ∀ entry ∈ entries,
      ∃ held, Determines entry.tokens held entry.value)
    (reads : ∀ reading ∈ readings,
      Reads Level.conditional reading.tokens reading.value)
    (same : commaSeparated (readings.map fun entry =>
          labelled sign entry.label entry.tokens) ++ mark closing :: rest =
      commaSeparated (entries.map fun entry =>
          labelled sign entry.label entry.tokens) ++ mark closing :: later) :
    fields readings = fields entries ∧ rest = later := by
  have isCloser : closing ∈ [")", "]", "\x7d", ",", ":"] := by
    rcases isClosing with rfl | rfl <;> simp
  -- A list is not over where an entry begins.
  have notOver {entry : Entry} {more others : List Token}
      (reads : Reads Level.conditional entry.tokens entry.value) :
      labelled sign entry.label entry.tokens ++ more ≠ mark closing :: others := by
    cases entry.label with
    | none => exact reads.ne_closing isCloser
    | some text => simp [labelled]
  cases entries with
  | nil =>
      cases readings with
      | nil => exact ⟨rfl, (List.cons.inj same).2⟩
      | cons reading readings =>
          rw [commaSeparated_cons, List.append_assoc] at same
          exact absurd same (notOver (reads reading List.mem_cons_self))
  | cons entry entries =>
      obtain ⟨held, determinesEntry⟩ := determines entry List.mem_cons_self
      cases readings with
      | nil =>
          rw [commaSeparated_cons, List.append_assoc] at same
          exact absurd same.symm
            (notOver (determinesEntry.reads.loosen (Nat.zero_le _)))
      | cons reading readings =>
          rw [commaSeparated_cons, commaSeparated_cons, List.append_assoc,
            List.append_assoc] at same
          obtain ⟨sameFirst, sameFurther⟩ := determinesEntry.entry isLabel
            isClosing (reads reading List.mem_cons_self) same
            (followsEntry_furtherTokens _ _ _ _)
            (followsEntry_furtherTokens _ _ _ _)
          obtain ⟨sameFields, sameRest⟩ := eq_of_furtherTokens isLabel isClosing
            (fun other isOther => determines other (List.mem_cons_of_mem _ isOther))
            (fun other isOther => reads other (List.mem_cons_of_mem _ isOther))
            sameFurther
          refine ⟨?_, sameRest⟩
          rw [fields, List.map_cons, sameFirst, ← fields, sameFields]
          rfl

theorem eq_of_argumentTokens
    (determines : ∀ entry ∈ entries,
      ∃ held, Determines entry.tokens held entry.value)
    (reads : ∀ reading ∈ readings,
      Reads Level.conditional reading.tokens reading.value)
    (same : argumentTokens readings ++ rest = argumentTokens entries ++ later) :
    arguments readings = arguments entries ∧ rest = later := by
  have inner := (List.cons.inj same).2
  obtain ⟨sameFields, sameRest⟩ := eq_of_commaSeparated (.inl rfl) (.inl rfl)
    determines reads (by simpa [argumentTokens] using same)
  exact ⟨by rw [arguments_eq, sameFields, ← arguments_eq], sameRest⟩

theorem eq_of_fieldTokens
    (determines : ∀ entry ∈ entries,
      ∃ held, Determines entry.tokens held entry.value)
    (reads : ∀ reading ∈ readings,
      Reads Level.conditional reading.tokens reading.value)
    (same : fieldTokens readings ++ rest = fieldTokens entries ++ later) :
    fields readings = fields entries ∧ rest = later :=
  eq_of_commaSeparated (.inr rfl) (.inr rfl) determines reads
    (by simpa [fieldTokens] using same)

end

namespace Determines

/-- A call determines its callee and its arguments. -/
theorem call {entries : List Entry} (determines : Determines tokens held value)
    (isHeld : Level.primary ≤ held)
    (determinesEach : ∀ entry ∈ entries,
      ∃ held, Determines entry.tokens held entry.value) :
    Determines (tokens ++ argumentTokens entries) Level.primary
      (.call value (arguments entries)) := by
  refine ⟨.call entries (determines.reads.loosen isHeld) fun entry isEntry => ?_,
    fun {_ _ rest later _} isLooser reads same ends _ => ?_⟩
  · obtain ⟨_, determinesEntry⟩ := determinesEach entry isEntry
    exact determinesEntry.reads.loosen (Nat.zero_le _)
  · rw [List.append_assoc] at same
    obtain ⟨tail, notNil, goesOn, sameTail⟩ :=
      determines.continued (by decide) isLooser isHeld reads same ends
    cases goesOn with
    | done => exact absurd rfl notNil
    | @call _ _ _ tokens readings _ readsEach further =>
        rw [List.append_assoc] at sameTail
        obtain ⟨sameArguments, sameRest⟩ :=
          eq_of_argumentTokens determinesEach readsEach sameTail
        rw [sameArguments] at further
        exact ⟨_, further, sameRest⟩
    | binary isOperator =>
        rw [Token.mark.inj (List.cons.inj sameTail).1] at isOperator
        cases isOperator
    | _ => simp at sameTail

theorem new (text : String) {entries : List Entry}
    (determinesEach : ∀ entry ∈ entries,
      ∃ held, Determines entry.tokens held entry.value) :
    Determines (keyword "new" :: .name text :: argumentTokens entries)
      Level.primary (.new text (arguments entries)) := by
  refine ⟨.new text entries fun entry isEntry => ?_,
    fun {_ _ rest later _} _ reads same _ _ => ?_⟩
  · obtain ⟨_, determinesEntry⟩ := determinesEach entry isEntry
    exact determinesEntry.reads.loosen (Nat.zero_le _)
  · obtain ⟨start, tail, above, operand, rfl, begins, goesOn⟩ := reads.isReached
    cases begins with
    | atom isAtom =>
        have sameToken := (List.cons.inj same).1
        cases isAtom <;> simp at sameToken
    | new other readings readsEach =>
        obtain ⟨rfl, sameTokens⟩ : other = text ∧
            argumentTokens readings ++ (tail ++ rest) =
              argumentTokens entries ++ later := by simpa using same
        obtain ⟨sameArguments, sameRest⟩ :=
          eq_of_argumentTokens determinesEach readsEach sameTokens
        rw [sameArguments] at goesOn
        exact ⟨tail, goesOn, sameRest⟩
    | anonymousObject => simp [fieldTokens] at same
    | _ => simp at same

theorem anonymousObject {entries : List Entry}
    (determinesEach : ∀ entry ∈ entries,
      ∃ held, Determines entry.tokens held entry.value) :
    Determines (keyword "new" :: fieldTokens entries) Level.primary
      (.anonymousObject (fields entries)) := by
  refine ⟨.anonymousObject entries fun entry isEntry => ?_,
    fun {_ _ rest later _} _ reads same _ _ => ?_⟩
  · obtain ⟨_, determinesEntry⟩ := determinesEach entry isEntry
    exact determinesEntry.reads.loosen (Nat.zero_le _)
  · obtain ⟨start, tail, above, operand, rfl, begins, goesOn⟩ := reads.isReached
    cases begins with
    | atom isAtom =>
        have sameToken := (List.cons.inj same).1
        cases isAtom <;> simp at sameToken
    | new => simp [fieldTokens] at same
    | anonymousObject readings readsEach =>
        obtain ⟨sameFields, sameRest⟩ := eq_of_fieldTokens determinesEach
          readsEach (show fieldTokens readings ++ (tail ++ rest) =
            fieldTokens entries ++ later by simpa using same)
        rw [sameFields] at goesOn
        exact ⟨tail, goesOn, sameRest⟩
    | _ => simp at same

/-! ### Operators -/

/-- A binary operator determines its operands if the left one is held together
as tightly as the operator, and the right one more tightly. -/
theorem binary {sign : String} {operator : BinaryOperator}
    {rightTokens : List Token} {right : Expr} {rightHeld : Level}
    (isOperator : operator? sign = some (level, operator))
    (determines : Determines tokens held value) (isHeld : level ≤ held)
    (determinesRight : Determines rightTokens rightHeld right)
    (isRightHeld : level + 1 ≤ rightHeld) :
    Determines (tokens ++ mark sign :: rightTokens) level
      (.binary value operator right) := by
  refine ⟨.binary isOperator (determines.reads.loosen isHeld)
      (determinesRight.reads.loosen isRightHeld),
    fun {_ _ rest later _} isLooser reads same ends endsLater => ?_⟩
  rw [List.append_assoc] at same
  have isContinuation := continuation?_of_operator? isOperator
  obtain ⟨tail, notNil, goesOn, sameTail⟩ :=
    determines.continued isContinuation isLooser isHeld reads same ends
  cases goesOn with
  | done => exact absurd rfl notNil
  | @binary _ _ _ _ _ _ _ otherTokens tokens isOther _ readsRight further =>
      obtain ⟨rfl, inner⟩ : _ ∧
          otherTokens ++ (tokens ++ rest) = rightTokens ++ later := by
        simpa using sameTail
      rw [isOperator] at isOther
      cases isOther
      obtain ⟨rfl, sameRest⟩ := determinesRight.eq_of_ends isRightHeld
        readsRight inner (further.endsBefore ends) endsLater
      exact ⟨_, further, sameRest⟩
  | test => simp at sameTail
  | member | conditionalMember | element | call | conditional =>
      rw [← Token.mark.inj (List.cons.inj sameTail).1] at isOperator
      cases isOperator

/-- A test determines its operand and its pattern. -/
theorem test {patternTokens : List Token} {pattern : Pattern}
    (determines : Determines tokens held value)
    (isHeld : Level.relational ≤ held)
    (readsPattern : ReadsPattern patternTokens pattern)
    (isPlain : IsPlainPattern pattern) :
    Determines (tokens ++ keyword "is" :: patternTokens) Level.relational
      (.test value pattern) := by
  refine ⟨.test (determines.reads.loosen isHeld) readsPattern,
    fun {_ _ rest later _} isLooser reads same ends endsLater => ?_⟩
  rw [List.append_assoc] at same
  obtain ⟨tail, notNil, goesOn, sameTail⟩ := determines.continuedBy
    (isLooser.trans isHeld) (by rw [ends_is_iff]; exact isLooser.not_gt)
    (by rw [ends_is_iff]; exact Nat.lt_succ_of_le isHeld) reads same ends
  cases goesOn with
  | done => exact absurd rfl notNil
  | @test _ _ _ _ otherTokens tokens _ readsOther further =>
      have inner : otherTokens ++ (tokens ++ rest) = patternTokens ++ later := by
        simpa using sameTail
      obtain ⟨rfl, sameRest⟩ := readsPattern.eq_of_ends isPlain readsOther inner
        (further.endsBefore ends) endsLater
      exact ⟨_, further, sameRest⟩
  | _ => simp [argumentTokens] at sameTail

/-- A conditional expression determines its parts. -/
theorem conditional {trueTokens falseTokens : List Token}
    {whenTrue whenFalse : Expr} {trueHeld falseHeld : Level}
    (determines : Determines tokens held value)
    (isHeld : Level.logicalOr ≤ held)
    (determinesTrue : Determines trueTokens trueHeld whenTrue)
    (determinesFalse : Determines falseTokens falseHeld whenFalse) :
    Determines
      (tokens ++ mark "?" :: (trueTokens ++ mark ":" :: falseTokens))
      Level.conditional (.conditional value whenTrue whenFalse) := by
  refine ⟨.conditional (determines.reads.loosen isHeld)
      (determinesTrue.reads.loosen (Nat.zero_le _))
      (determinesFalse.reads.loosen (Nat.zero_le _)),
    fun {_ _ rest later _} isLooser reads same ends endsLater => ?_⟩
  rw [List.append_assoc] at same
  obtain ⟨tail, notNil, goesOn, sameTail⟩ :=
    determines.continued (by decide) (isLooser.trans (Nat.zero_le 1)) isHeld
      reads same ends
  cases goesOn with
  | done => exact absurd rfl notNil
  | @conditional _ _ _ _ _ otherTrue otherFalse tokens _ readsTrue readsFalse
      further =>
      have inner : otherTrue ++ mark ":" :: (otherFalse ++ (tokens ++ rest)) =
          trueTokens ++ mark ":" :: (falseTokens ++ later) := by
        simpa using sameTail
      obtain ⟨rfl, sameFalse⟩ := determinesTrue.eq_of_ends (Nat.zero_le _)
        readsTrue inner (endsBefore_closing (by simp))
        (endsBefore_closing (by simp))
      obtain ⟨rfl, sameRest⟩ := determinesFalse.eq_of_ends (Nat.zero_le _)
        readsFalse (List.cons.inj sameFalse).2
        (further.endsBefore ends).ofConditional endsLater.ofConditional
      exact ⟨_, further, sameRest⟩
  | binary isOperator =>
      rw [Token.mark.inj (List.cons.inj sameTail).1] at isOperator
      cases isOperator
  | _ => simp [argumentTokens] at sameTail

end Determines

end BasicLowering.Target.Grammar
