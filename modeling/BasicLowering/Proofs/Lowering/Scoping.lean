import BasicLowering.Proofs.Lowering.Collection
import BasicLowering.Proofs.Lowering.Descent
import BasicLowering.Proofs.Qualification.Derived

/-!
# Scopes of the captures of a conversion

A conversion binds each name that it issues once, and reads it only after the pattern
that binds it has matched. What a template repeats are operands that count as safely
reusable. Where these are bare, they bind no names, so no pattern is repeated.
-/

namespace BasicLowering.Lowering

open Source Binding Analysis Qualification
open Target (Expr Occurrence Closed boundAt)

/-! ## Names that are bound once -/

/-- Whether the names bound at some places are those that have been issued on the
way, each as often as it has been issued. -/
structure Tidy (session later : Session) (visits : List Visit)
    (places : List Occurrence) : Prop where
  captures : later.captures =
    session.captures.advance (namesIssued visits)
  binds : (boundAt places).Perm
    (session.captures.upcoming (namesIssued visits))

section

variable {session between later : Session} {visits more : List Visit}
variable {places morePlaces : List Occurrence}

namespace Tidy

theorem append (first : Tidy session between visits places)
    (second : Tidy between later more morePlaces) :
    Tidy session later (visits ++ more) (places ++ morePlaces) where
  captures := by
    rw [second.captures, first.captures, namesIssued_append,
      CaptureNames.advance_advance]
  binds := by
    have others := second.binds
    rw [first.captures] at others
    rw [Target.boundAt_append, namesIssued_append,
      ← CaptureNames.upcoming_append]
    exact first.binds.append others

theorem collecting : Collecting Tidy where
  nothing session := ⟨by simp [namesIssued], by simp [namesIssued, boundAt]⟩
  append := append
  atNode tidy _ none := by
    refine ⟨?_, ?_⟩
    · simpa [namesIssued, none] using tidy.captures
    · simpa [namesIssued, none] using tidy.binds
  atName _ none := ⟨by simp [namesIssued, none], by
    simp [namesIssued, none, boundAt]⟩
  sameNames tidy same := ⟨same ▸ tidy.captures, same ▸ tidy.binds⟩

end Tidy

/-- Operands that bind no names where they may be repeated: a template binds what its
operands bind, and its names, each once. -/
theorem Assembled.bound_perm {left right : Operand} {names : List String}
    {expr : Expr} (assembled : Assembled [left, right] names expr)
    (silent : ∀ operand ∈ [left, right], operand.isReusable = true →
      boundAt operand.expr.occurrences = []) :
    (boundAt expr.occurrences).Perm
      (boundAt (left.expr.occurrences ++ right.expr.occurrences) ++ names) := by
  have parts : boundAt (partsOf [left, right] names) =
      boundAt (left.expr.occurrences ++ right.expr.occurrences) ++ names := by
    simp [partsOf]
  rw [List.perm_iff_count]
  intro name
  rw [← parts, Target.count_boundAt, Target.count_boundAt]
  refine (assembled.covers (.binds name)).2 ?_
  rintro (⟨_, -, ⟨⟩⟩ | ⟨operand, isOperand, reusable, occurs⟩)
  have isBound : 0 < (boundAt operand.expr.occurrences).count name := by
    rw [Target.count_boundAt]
    exact List.count_pos_iff.mpr occurs
  rw [silent operand isOperand reusable] at isBound
  cases isBound

/-- Two operands that are put together. -/
theorem Tidy.putTogether {setting : Setting} {arena : Arena} {here : Step}
    {left right : Slot} {operator : BinaryOperator}
    {loweredLeft loweredRight lowered : Lowered} {captures : CaptureNames}
    {visit : Visit}
    (tidy : Tidy session later visits
      (loweredLeft.expr.occurrences ++ loweredRight.expr.occurrences))
    (counted : captures = later.captures.advance visit.issued)
    (together : PutTogether setting arena here loweredLeft.expr
      loweredRight.expr (later.captures.upcoming visit.issued) lowered.expr)
    (found : arena.form? here.effective = some (.binary left operator right))
    (silentLeft : isSafelyReusable setting.model arena left = true →
      boundAt loweredLeft.expr.occurrences = [])
    (silentRight : isSafelyReusable setting.model arena right = true →
      boundAt loweredRight.expr.occurrences = []) :
    Tidy session { later with captures } (visits ++ [visit])
      lowered.expr.occurrences := by
  obtain ⟨leftOperand, rightOperand, isLeft, isRight, reusable, assembled⟩ :=
    together
  have isBinary : arena.binary? here.effective = some (left, operator, right) := by
    simp [Arena.binary?, found]
  obtain ⟨leftReusable, rightReusable⟩ := reusable _ _ _ isBinary
  have issued : namesIssued (visits ++ [visit]) =
      namesIssued visits + visit.issued := by
    simp [namesIssued]
  refine ⟨?_, ?_⟩
  · rw [counted, tidy.captures, issued, CaptureNames.advance_advance]
  · have perm := assembled.bound_perm (by
      simp only [List.forall_mem_cons]
      refine ⟨fun isReusable => ?_, fun isReusable => ?_, List.forall_mem_nil _⟩
      · rw [isLeft]
        exact silentLeft (leftReusable isReusable)
      · rw [isRight]
        exact silentRight (rightReusable isReusable))
    rw [isLeft, isRight] at perm
    refine perm.trans ?_
    rw [issued, ← CaptureNames.upcoming_append, ← tidy.captures]
    exact tidy.binds.append_right _

end

/-! ## Captures that are read in their scope -/

section

variable {isCapture : String → Prop} {child : Slot → Passage Lowered}
variable {grandchild : Step → Slot → Passage Lowered}
variable {session later : Session} {visits : List Visit}

/-- Whether what each slot becomes reads captures in their scope. -/
def ClosesAll (isCapture : String → Prop) (child : Slot → Passage Lowered) :
    Prop :=
  ∀ ⦃slot session lowered later visits⦄,
    child slot session lowered later visits → Closed isCapture lowered.expr

theorem closed_inSequence {Item Result : Type} {passage : Item → Passage Result}
    {items : List Item} {results : List Result} (exprOf : Result → Expr)
    (each : ∀ ⦃item session result later visits⦄,
      passage item session result later visits →
        Closed isCapture (exprOf result))
    (run : InSequence passage items session results later visits) :
    ∀ result ∈ results, Closed isCapture (exprOf result) := by
  induction run with
  | nil => exact nofun
  | cons first _ ih => exact List.forall_mem_cons.mpr ⟨each first, ih⟩

theorem closed_all {slots : List Slot} {results : List Lowered}
    (each : ClosesAll isCapture child)
    (run : InSequence child slots session results later visits) :
    ∀ expr ∈ results.map (·.expr), Closed isCapture expr :=
  List.forall_mem_map.mpr (closed_inSequence Lowered.expr each run)

theorem closed_collapseCondition (model : Model) (arena : Arena)
    (condition : Slot) (lowered : Lowered)
    (closed : Closed isCapture lowered.expr) :
    Closed isCapture (collapseCondition model arena condition lowered) := by
  unfold collapseCondition
  dsimp only
  split
  · exact closed.equalsTrue
  · exact closed

/-- Captures are read in their scope if they are below, and if the bare names of the
tree are no captures. -/
theorem FormRun.closed {setting : Setting} {path : Path} {here : Step}
    {form : Form} {issued : Nat} {lowered : Lowered}
    (run : FormRun setting child grandchild path here form issued session lowered
      later visits)
    (each : ClosesAll isCapture child)
    (eachField : ∀ field, ClosesAll isCapture (grandchild field))
    (noCapture : ∀ text, form = .identifier text → ¬ isCapture text) :
    Closed isCapture lowered.expr := by
  have silent {expr : Expr} (noNames : ∀ trace truth,
      expr.Evaluates trace truth → trace = []) : Closed isCapture expr :=
    Target.scoped_of_silent noNames
  cases run with
  | identifier text =>
      exact Target.scoped_identifier fun captured =>
        absurd captured (noCapture text rfl)
  | literal value => cases value <;> exact silent fun _ _ same => same
  | selfReference kind => cases kind <;> exact silent fun _ _ same => same
  | parenthesized converted => exact each converted
  | @memberAccess _ _ kind _ _ _ _ _ converted _ =>
      cases kind with
      | simple => exact (each converted).member
      | dictionary =>
          exact (each converted).element (silent fun _ _ same => same)
  | conditionalAccess converted _ => exact (each converted).conditionalMember
  | invocation called passed =>
      exact (each called).call (closed_all each passed)
  | namedArgument converted _ => exact (each converted).namedArgument
  | objectCreation passed => exact .new (closed_all each passed)
  | anonymousObject initialized =>
      refine .anonymousObject (closed_inSequence Prod.snd ?_ initialized)
      intro field session result later visits run
      cases run with
      | named _ converted _ => exact eachField _ converted
      | inferred _ converted => exact eachField _ converted
  | unary converted => exact (each converted).unary
  | typeTest converted => exact (each converted).test
  | ternary asked first second =>
      exact (closed_collapseCondition _ _ _ _ (each asked)).conditional
        (each first) (each second)
  | nothingTest _ _ converted => exact (each converted).test
  | binary _ first second together =>
      obtain ⟨left, right, isLeft, isRight, -, assembled⟩ :=
        (putTogether_upcoming together).2
      refine assembled.closed isCapture ?_
      simp only [List.forall_mem_cons, isLeft, isRight]
      exact ⟨each first, each second, nofun⟩

end

/-! ## Operands that bind nothing -/

/-- Whether a slot holds what may be evaluated twice: a bare operand, where names are
still to be qualified, and otherwise a plain node. -/
def IsSimple (model : Model) (parsed : Arena) (qualify : Bool) (arena : Arena)
    (slot : Slot) : Prop :=
  if qualify then IsBareOperand model parsed slot else Plain arena slot

/-- Whether a form is a leaf or stands around another slot of which something
holds. -/
def IsSimpleForm (holds : Slot → Prop) : Form → Prop
  | .identifier _ | .literal _ | .selfReference _ => True
  | .parenthesized inner => holds inner
  | .memberAccess receiver _ _ => holds receiver
  | _ => False

section

variable {model : Model} {parsed before after arena : Arena} {path : Path}
variable {qualify : Bool} {slot : Slot} {decision : Decision} {form : Form}
variable {setting : Setting}

theorem isSimpleForm_of_plain (plain : Plain arena slot)
    (found : arena.form? slot = some form) :
    IsSimpleForm (Plain arena) form := by
  cases plain with
  | name isForm | literal isForm | self isForm =>
      cases isForm.symm.trans found
      trivial
  | parenthesized isForm isPlain | access isForm isPlain =>
      cases isForm.symm.trans found
      exact isPlain

theorem isSimpleForm_of_isBareOperand (sound : parsed.Sound)
    (isBare : IsBareOperand model parsed slot)
    (found : parsed.form? slot = some form) :
    IsSimpleForm (IsBareOperand model parsed) form := by
  cases parenthesized : parsed.isParenthesized slot with
  | true =>
      unfold Arena.isParenthesized at parenthesized
      split at parenthesized
      · next inner isForm =>
          cases isForm.symm.trans found
          unfold IsBareOperand at isBare
          rwa [sound.acyclic.skipParens_of_parenthesized isForm] at isBare
      · cases parenthesized
  | false =>
      obtain ⟨value, rfl⟩ | ⟨text, rfl, -⟩ := isBare.form found parenthesized <;>
        trivial

theorem Settles.derived
    (settles : Settles setting parsed path qualify slot before after decision)
    (wellFormed : WellFormed setting.model parsed)
    (bareOperands : BareOperands setting.model parsed)
    (growsFrom : parsed.Grows before)
    (isParsed : qualify = true → parsed.holds slot = true)
    (derived : Derived setting.model parsed before slot) :
    Derived setting.model parsed after (settledOn slot decision).node := by
  have growsAfter := growsFrom.trans settles.grows
  cases settles with
  | asItIs _ unchanged => exact unchanged ▸ derived
  | byRule asked decides =>
      have held := isParsed asked
      cases decides with
      | keep unchanged | skip unchanged | asWritten unchanged =>
          exact unchanged ▸ derived
      | shortCircuit found adds =>
          refine .built adds.form? (fun _ => Form.noConfusion)
            (fun later grows sound reusable => ?_) ?_
          · have growsAll := growsAfter.trans grows
            have bare : parsed.isParenthesized slot = false := by
              simp [Arena.isParenthesized, found]
            have foundLater := grows.form? adds.form?
            have reusableBefore := isSafelyReusable_of_replacement sound
              (growsAll.holds held)
              ((grows.origin?_eq adds.holds).trans adds.origin?)
              (by simp [isLiteral, foundLater])
              (by simp [Arena.isParenthesized, foundLater])
              (by rw [growsAll.isParenthesized_eq held, bare]) reusable
            rw [isSafelyReusable_eq wellFormed.sound sound growsAll held]
              at reusableBefore
            obtain ⟨_, ⟨⟩⟩ | ⟨_, ⟨⟩, -⟩ :=
              (bareOperands slot held reusableBefore).form found bare
          · have operands := isParsed_slots wellFormed.sound found
            exact fun child isSlot => .parsed (operands child isSlot)
      | implicit _ _ reads =>
          obtain ⟨text, receiver, isName, inPlace, from'⟩ := reads.reads
          have found := Arena.form?_of_nameText? isName
          have bare : parsed.isParenthesized slot = false := by
            simp [Arena.isParenthesized, found]
          obtain isMe | ⟨attached, member, isAttached, isReceiver⟩ := from'
          · exact inPlace.derived (derived_of_plain isMe.2 (fun _ => Form.noConfusion)
                (.self isMe.2) (List.forall_mem_nil _))
              (mem_sourceNames_of_nameText? isName)
              fun _ _ _ _ => inPlace.plain (.self isMe.2)
          · refine inPlace.derived (isReceiver.derived wellFormed bareOperands
              (holds_attachedReceiver wellFormed isAttached) growsFrom growsAfter)
              (mem_sourceNames_of_nameText? isName) fun later grows sound reusable => ?_
            have reusableBefore := inPlace.isSafelyReusable wellFormed.sound
              growsAfter held bare grows sound reusable
            obtain ⟨_, ⟨⟩⟩ | ⟨_, -, noReceiver⟩ :=
              (bareOperands slot held reusableBefore).form found bare
            rw [isAttached] at noReceiver
            cases noReceiver
      | elsewhere _ _ reads =>
          obtain ⟨receiver, member, symbol, _, _, _, found, isAttached, known,
            inPlace⟩ := reads.reads
          have bare : parsed.isParenthesized slot = false := by
            simp [Arena.isParenthesized, found]
          refine inPlace.derived (.parsed (isParsed_of_holds
              (holds_attachedReceiver wellFormed isAttached)))
            (mem_sourceNames_of_symbol? known) fun later grows sound reusable => ?_
          have reusableBefore := inPlace.isSafelyReusable wellFormed.sound
            growsAfter held bare grows sound reusable
          obtain ⟨_, ⟨⟩⟩ | ⟨_, ⟨⟩, -⟩ :=
            (bareOperands slot held reusableBefore).form found bare
      | inFull _ writes =>
          exact writes.written.derived wellFormed bareOperands
            (isParsed_of_holds held) growsAfter

/-- What is converted in place of a simple slot is simple. -/
theorem Settles.isSimpleForm
    (settles : Settles setting parsed path qualify slot before after decision)
    (wellFormed : WellFormed setting.model parsed) (growsFrom : parsed.Grows before)
    (isParsed : qualify = true → parsed.holds slot = true)
    (simple : IsSimple setting.model parsed qualify before slot)
    (found : after.form? (settledOn slot decision).node = some form) :
    IsSimpleForm (IsSimple setting.model parsed (goesOn decision) after) form := by
  have growsAfter := growsFrom.trans settles.grows
  have ofPlain (plain : Plain after (settledOn slot decision).node)
      (final : goesOn decision = false) :
      IsSimpleForm (IsSimple setting.model parsed (goesOn decision) after) form := by
    rw [final]
    exact isSimpleForm_of_plain plain found
  cases settles with
  | asItIs _ unchanged =>
      refine ofPlain ?_ rfl
      cases qualify with
      | true =>
          exact (IsBareOperand.plain wellFormed simple (isParsed rfl)).grow
            growsAfter
      | false => exact unchanged ▸ simple
  | byRule asked decides =>
      have held := isParsed asked
      subst asked
      have isBare : IsBareOperand setting.model parsed slot := simple
      have plainNow : Plain after slot :=
        (isBare.plain wellFormed held).grow growsAfter
      cases decides with
      | keep unchanged =>
          change after.form? slot = some form at found
          rw [growsAfter.form?_eq held] at found
          exact isSimpleForm_of_isBareOperand wellFormed.sound isBare found
      | skip | asWritten => exact ofPlain plainNow rfl
      | shortCircuit isForm =>
          obtain ⟨_, ⟨⟩⟩ | ⟨_, ⟨⟩, -⟩ := isBare.form isForm
            (by simp [Arena.isParenthesized, isForm])
      | implicit _ _ reads =>
          obtain ⟨text, receiver, isName, inPlace, from'⟩ := reads.reads
          obtain isMe | ⟨attached, member, isAttached, -⟩ := from'
          · exact ofPlain (inPlace.plain (.self isMe.2)) rfl
          · have isForm := Arena.form?_of_nameText? isName
            obtain ⟨_, ⟨⟩⟩ | ⟨_, -, noReceiver⟩ := isBare.form isForm
              (by simp [Arena.isParenthesized, isForm])
            rw [isAttached] at noReceiver
            cases noReceiver
      | elsewhere _ _ reads =>
          obtain ⟨_, _, _, _, _, _, isForm, -⟩ := reads.reads
          obtain ⟨_, ⟨⟩⟩ | ⟨_, ⟨⟩, -⟩ := isBare.form isForm
            (by simp [Arena.isParenthesized, isForm])
      | inFull _ writes =>
          exact ofPlain (writes.written.plain wellFormed isBare growsAfter) rfl

end

/-- What stands around nothing that binds names binds none itself. -/
theorem FormRun.silent {setting : Setting} {child : Slot → Passage Lowered}
    {grandchild : Step → Slot → Passage Lowered} {path : Path} {here : Step}
    {form : Form} {issued : Nat} {session later : Session} {lowered : Lowered}
    {visits : List Visit} {holds : Slot → Prop}
    (run : FormRun setting child grandchild path here form issued session lowered
      later visits)
    (simple : IsSimpleForm holds form)
    (each : ∀ {slot lowered later visits}, holds slot →
      child slot session lowered later visits →
        boundAt lowered.expr.occurrences = []) :
    boundAt lowered.expr.occurrences = [] := by
  cases run with
  | identifier => rfl
  | literal value => cases value <;> rfl
  | selfReference kind => cases kind <;> rfl
  | parenthesized converted => exact each simple converted
  | @memberAccess _ _ kind _ _ _ _ _ converted _ =>
      have silent := each simple converted
      cases kind <;>
        simpa [convertAccess, Lowered.plain, Expr.occurrences] using silent
  | _ => exact absurd simple id

/-! ## Slots -/

/-- Whether what a slot becomes binds each name that has been issued on the way
once, and reads captures in their scope. -/
structure Orderly (isCapture : String → Prop) (session later : Session)
    (lowered : Lowered) (visits : List Visit) : Prop where
  tidy : Tidy session later visits lowered.expr.occurrences
  closed : Closed isCapture lowered.expr

/-- An operand that the later arena has for reusable was simple when it was
converted. -/
theorem isSimple_of_isSafelyReusable {model : Model} {parsed before later : Arena}
    {slot : Slot} {qualify : Bool} (wellFormed : WellFormed model parsed)
    (bareOperands : BareOperands model parsed) (growsFrom : parsed.Grows before)
    (held : before.holds slot = true)
    (isParsed : qualify = true → IsParsed parsed slot)
    (derived : Derived model parsed before slot) (grows : before.Grows later)
    (sound : later.Sound)
    (reusable : isSafelyReusable model later slot = true) :
    IsSimple model parsed qualify before slot := by
  cases qualify with
  | true =>
      have heldParsed := (isParsed rfl).holds held
      rw [isSafelyReusable_eq wellFormed.sound sound (growsFrom.trans grows)
        heldParsed] at reusable
      exact bareOperands slot heldParsed reusable
  | false =>
      exact derived.plain wellFormed bareOperands growsFrom held grows sound
        reusable

section

variable {setting : Setting} {parsed : Arena} {isCapture : String → Prop}
variable (isNames : setting.expander = names)
  (wellFormed : WellFormed setting.model parsed)
  (bareOperands : BareOperands setting.model parsed)
  (noCapture : ∀ text ∈ sourceNames setting.model parsed, ¬ isCapture text)

include isNames wellFormed bareOperands noCapture

theorem SlotRun.orderly {levels : Nat} {path : Path} {qualify : Bool}
    {slot : Slot} {session later : Session} {lowered : Lowered}
    {visits : List Visit}
    (run : SlotRun setting levels path qualify slot session lowered later visits)
    (grows : parsed.Grows session.arena) (sound : session.arena.Sound)
    (isParsed : qualify = true → IsParsed parsed slot)
    (derived : Derived setting.model parsed session.arena slot) :
    Orderly isCapture session later lowered visits ∧
      session.arena.Grows later.arena ∧ later.arena.Sound := by
  -- An operand that may be repeated must bind nothing. That is not said of the operand
  -- when an operator takes it, so it is carried along from where it was converted.
  have whole := run.nameInduction isNames wellFormed
    (fun _ _ slot arena =>
      parsed.Grows arena ∧ Derived setting.model parsed arena slot)
    (fun _ qualify slot session lowered later visits =>
      Orderly isCapture session later lowered visits ∧
      session.arena.holds slot = true ∧ session.arena.Grows later.arena ∧
      later.arena.Sound ∧
      (IsSimple setting.model parsed qualify session.arena slot →
        boundAt lowered.expr.occurrences = []))
    ?_ ?_ ?_ ?_ grows sound isParsed ⟨grows, derived⟩
  · exact ⟨whole.1.1, whole.2⟩
  · exact fun _ _ _ _ _ ready growing =>
      ⟨ready.1.trans growing, ready.2.grow growing⟩
  · exact fun _ _ _ _ _ _ ready found isSlot =>
      ⟨ready.1, ready.2.child wellFormed.sound ready.1 found _
        (valueSlots_subset_slots _ isSlot)⟩
  · intro path qualify slot decision form before after ready growsFrom isParsed
      settles found child isSlot
    have growsAfter := growsFrom.trans settles.grows
    exact ⟨growsAfter, (settles.derived wellFormed bareOperands growsFrom isParsed
      ready.2).child wellFormed.sound growsAfter found child
        (valueSlots_subset_slots _ isSlot)⟩
  · intro path qualify slot session form issued lowered later below decided here
      reached ready held growsFrom sound isParsed settles found run growsLater
      soundLater
    have growsAfter := growsFrom.trans settles.grows
    have derived := settles.derived wellFormed bareOperands growsFrom isParsed
      ready.2
    have tidy := run.collect Tidy.collecting
      (fun _ _ _ _ _ passage => passage.1.1.tidy)
      (fun _ _ _ _ _ _ passage => passage.1.1.tidy) ?_
    refine ⟨⟨Tidy.collecting.sameNames tidy
      (captures_settleAt setting path qualify slot session), ?_⟩, held,
      settles.grows.trans growsLater, soundLater, fun simple => ?_⟩
    · refine run.closed (fun _ _ _ _ _ passage => passage.1.1.closed)
        (fun _ _ _ _ _ _ passage => passage.1.1.closed) ?_
      rintro text rfl
      exact noCapture text (derived.named growsAfter (nameText?_of_form? found))
    · exact run.silent
        (settles.isSimpleForm wellFormed growsFrom isParsed simple found)
        fun simple passage => passage.1.2.2.2.2 simple
    · rintro left operator right visits more between after captures loweredLeft
        loweredRight rfl ⟨first, growsFirst, soundFirst, isParsedFirst, readyFirst⟩
        ⟨second, growsSecond, soundSecond, isParsedSecond, readySecond⟩ counted
        together
      obtain ⟨orderlyFirst, heldFirst, onward, -, silentFirst⟩ := first
      obtain ⟨orderlySecond, heldSecond, further, soundAfter, silentSecond⟩ :=
        second
      refine (orderlyFirst.tidy.append orderlySecond.tidy).putTogether counted
        together ((onward.trans further).form? found) (fun reusable => ?_)
        fun reusable => ?_
      · exact silentFirst (isSimple_of_isSafelyReusable wellFormed bareOperands
          growsFirst heldFirst isParsedFirst readyFirst.2 (onward.trans further)
          soundAfter reusable)
      · exact silentSecond (isSimple_of_isSafelyReusable wellFormed bareOperands
          growsSecond heldSecond isParsedSecond readySecond.2 further soundAfter
          reusable)

end

/-! ## Requests -/

/-- Whether an output reads captures in their scope. -/
def Output.Closed (isCapture : String → Prop) : Output → Prop
  | .statement converted => converted.Closed isCapture
  | .expression converted => Target.Closed isCapture converted

theorem StatementFormRun.closed {setting : Setting} {isCapture : String → Prop}
    {child : Slot → Passage Lowered} {form : Form} {session later : Session}
    {converted : Target.Statement} {visits : List Visit}
    (run : StatementFormRun setting child form session converted later visits)
    (each : ClosesAll isCapture child) : converted.Closed isCapture := by
  have ofOptional {slot : Slot} {session later : Session} {result : Option Expr}
      {visits : List Visit}
      (run : OptionalRun child slot session result later visits) :
      ∀ expr ∈ result, Closed isCapture expr := by
    cases run with
    | absent => exact nofun
    | present converted =>
        rintro _ ⟨⟩
        exact each converted
  cases run with
  | @conditionStatement kind _ _ _ _ _ converted =>
      cases kind <;> exact closed_collapseCondition _ _ _ _ (each converted)
  | returnStatement converted => exact ofOptional converted
  | localDeclaration converted => exact ofOptional converted
  | assignment assigned converted => exact ⟨each assigned, each converted⟩
  | expressionStatement converted => exact each converted

/-- A request for a parsed node is answered in an orderly way, and leaves a sound
arena behind. -/
theorem Request.Run.orderly {setting : Setting} {parsed : Arena}
    {isCapture : String → Prop} (isNames : setting.expander = names)
    (wellFormed : WellFormed setting.model parsed)
    (bareOperands : BareOperands setting.model parsed)
    (noCapture : ∀ text ∈ sourceNames setting.model parsed, ¬ isCapture text)
    {request : Request} {session later : Session} {output : Output}
    {visits : List Visit}
    (run : request.Run setting session output later visits)
    (isParsed : parsed.holds request.slot = true)
    (grows : parsed.Grows session.arena) (sound : session.arena.Sound) :
    Tidy session later visits output.occurrences ∧ output.Closed isCapture ∧
      session.arena.Grows later.arena ∧ later.arena.Sound := by
  cases run with
  | expression run =>
      obtain ⟨orderly, growsLater, soundLater⟩ := run.orderly isNames wellFormed
        bareOperands noCapture grows sound
        (fun _ => isParsed_of_holds isParsed) (.parsed (isParsed_of_holds isParsed))
      exact ⟨orderly.tidy, orderly.closed, growsLater, soundLater⟩
  | statement run =>
      obtain ⟨form, found, run, growsLater, soundLater⟩ :=
        run.handDown isNames wellFormed isParsed grows sound
      have each {slot : Slot} {session later : Session} {lowered : Lowered}
          {visits : List Visit} {levels : Nat} {path : Path}
          (run : SlotRun setting levels path true slot session lowered later
            visits)
          (here : (parsed.Grows session.arena ∧ session.arena.Sound) ∧
            slot ∈ form.slots ∧ IsParsed parsed slot) :=
        (run.orderly isNames wellFormed bareOperands noCapture here.1.1 here.1.2
          (fun _ => here.2.2) (.parsed here.2.2)).1
      exact ⟨run.collect Tidy.collecting
          fun _ _ _ _ _ passage => (each passage.1 passage.2).tidy,
        run.closed fun _ _ _ _ _ passage => (each passage.1 passage.2).closed,
        growsLater, soundLater⟩

end BasicLowering.Lowering
