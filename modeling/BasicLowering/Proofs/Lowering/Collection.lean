import BasicLowering.Proofs.Lowering.Assembly
import BasicLowering.Qualification.NameExpander

/-!
# Collecting what a conversion reads and binds

The places at which the result of a conversion reads and binds names are those of the
results below, one after another, and at most a few more where two operands are put
together. What is said about all places of a result is therefore shown for parts that
follow one another, for nodes that add nothing, and for operands that are put
together; `FormRun.collect` takes it through all forms.
-/

namespace BasicLowering.Lowering

open Source
open Target (Expr Occurrence)

/-- The name that a node spells, if it is a bare name. -/
def Visit.name? (visit : Visit) : Option String :=
  match visit.form with
  | .identifier text => some text
  | _ => none

/-- What may be said of the places that a conversion accounts for on its way from
one session to another one. -/
abbrev Account : Type :=
  Session → Session → List Visit → List Occurrence → Prop

/-- Whether an account may be put together from accounts of parts. -/
structure Collecting (account : Account) : Prop where
  nothing : ∀ session, account session session [] []
  append : ∀ {session between later visits more places morePlaces},
    account session between visits places →
      account between later more morePlaces →
        account session later (visits ++ more) (places ++ morePlaces)
  atNode : ∀ {session later visits places} {visit : Visit},
    account session later visits places → visit.name? = none →
      visit.issued = 0 → account session later (visits ++ [visit]) places
  atName : ∀ {session visit text}, visit.name? = some text → visit.issued = 0 →
    account session session [visit] [.reads text]
  sameNames : ∀ {first second later : Session} {visits places},
    account first later visits places → first.captures = second.captures →
      account second later visits places

theorem namesIssued_append (visits more : List Visit) :
    namesIssued (visits ++ more) = namesIssued visits + namesIssued more := by
  simp [namesIssued]

section

variable {Item Result : Type} {passage : Item → Passage Result}
variable {account : Account} (collecting : Collecting account)
variable {child : Slot → Passage Lowered}
variable {grandchild : Step → Slot → Passage Lowered}
variable {session later : Session} {visits : List Visit}

/-- Whether the passage of each slot accounts for what it reads and binds. -/
def AccountsForAll (account : Account) (child : Slot → Passage Lowered) : Prop :=
  ∀ ⦃slot session lowered later visits⦄,
    child slot session lowered later visits →
      account session later visits lowered.expr.occurrences

include collecting

/-- Several slots one after another. -/
theorem collect_inSequence {items : List Item} {results : List Result}
    (placesOf : Result → List Occurrence)
    (placesAmong : List Result → List Occurrence)
    (among_nil : placesAmong [] = [])
    (among_cons : ∀ result rest, placesAmong (result :: rest) =
      placesOf result ++ placesAmong rest)
    (each : ∀ ⦃item session result later visits⦄,
      passage item session result later visits →
        account session later visits (placesOf result))
    (run : InSequence passage items session results later visits) :
    account session later visits (placesAmong results) := by
  induction run with
  | nil session =>
      rw [among_nil]
      exact collecting.nothing session
  | cons first _ ih =>
      rw [among_cons]
      exact collecting.append (each first) ih

theorem collect_all {slots : List Slot} {results : List Lowered}
    (each : AccountsForAll account child)
    (run : InSequence child slots session results later visits) :
    account session later visits
      (Expr.occurrencesAmong (results.map (·.expr))) :=
  collect_inSequence collecting (fun result => result.expr.occurrences)
    (fun results => Expr.occurrencesAmong (results.map (·.expr))) rfl
    (fun _ _ => rfl) (fun _ _ _ _ _ converted => each converted) run

theorem collect_fields {slots : List Slot}
    {fields : List (Option String × Expr)}
    (each : ∀ field, AccountsForAll account (grandchild field))
    (run : InSequence (FieldRun grandchild) slots session fields later visits) :
    account session later visits (Expr.occurrencesInFields fields) := by
  refine collect_inSequence collecting (fun field => field.2.occurrences)
    Expr.occurrencesInFields rfl (fun _ _ => rfl) ?_ run
  intro field session result later visits run
  cases run with
  | named _ converted _ => exact each _ converted
  | inferred _ converted => exact each _ converted

omit collecting

theorem bound_typePattern (typeName : String) (negated : Bool) :
    (typePattern typeName negated).bound = [] := by
  cases negated <;> rfl

theorem bound_nothingPattern {operator : BinaryOperator}
    {pattern : Target.Pattern}
    (isTest : nothingPattern? operator = some pattern) : pattern.bound = [] := by
  cases operator <;> simp [nothingPattern?] at isTest <;> subst isTest <;> rfl

theorem occurrences_collapseCondition (model : Binding.Model) (arena : Arena)
    (condition : Slot) (lowered : Lowered) :
    (collapseCondition model arena condition lowered).occurrences =
      lowered.expr.occurrences := by
  unfold collapseCondition
  dsimp only
  split <;> simp

include collecting

/-- A node accounts for what it reads and binds if the slots below it do, and if its
operands, where it has any that are put together. -/
theorem FormRun.collect {setting : Setting} {path : Path} {here : Step}
    {form : Form} {issued : Nat} {lowered : Lowered}
    (run : FormRun setting child grandchild path here form issued session lowered
      later visits)
    (each : AccountsForAll account child)
    (eachField : ∀ field, AccountsForAll account (grandchild field))
    (putTogether : ∀ {left operator right visits more between after}
      {captures : CaptureNames} {loweredLeft loweredRight : Lowered},
      form = .binary left operator right →
      child left session loweredLeft between visits →
      child right between loweredRight after more →
      captures = after.captures.advance issued →
      PutTogether setting after.arena here loweredLeft.expr loweredRight.expr
        (after.captures.upcoming issued) lowered.expr →
      account session { after with captures }
        (visits ++ more ++ [⟨path, here, form, lowered, issued⟩])
        lowered.expr.occurrences) :
    account session later (visits ++ [⟨path, here, form, lowered, issued⟩])
      lowered.expr.occurrences := by
  have atNode {lowered : Lowered} {places : List Occurrence}
      (collected : account session later visits places)
      (same : lowered.expr.occurrences = places)
      {form : Form}
      (noName : (Visit.mk path here form lowered 0).name? = none) :
      account session later (visits ++ [⟨path, here, form, lowered, 0⟩])
        lowered.expr.occurrences :=
    same ▸ collecting.atNode collected noName rfl
  cases run with
  | identifier text =>
      simp only [Lowered.plain, Expr.occurrences]
      exact collecting.atName rfl rfl
  | literal value =>
      refine atNode (collecting.nothing session) ?_ rfl
      cases value <;> rfl
  | selfReference kind =>
      refine atNode (collecting.nothing session) ?_ rfl
      cases kind <;> rfl
  | parenthesized converted => exact atNode (each converted) rfl rfl
  | @memberAccess _ _ kind _ _ _ _ _ converted _ =>
      refine atNode (each converted) ?_ rfl
      cases kind <;> simp [convertAccess, Lowered.plain, Expr.occurrences]
  | conditionalAccess converted _ =>
      refine atNode (each converted) ?_ rfl
      rfl
  | invocation called passed =>
      refine atNode
        (collecting.append (each called) (collect_all collecting each passed)) ?_
        rfl
      rfl
  | namedArgument converted _ =>
      refine atNode (each converted) ?_ rfl
      rfl
  | objectCreation passed =>
      refine atNode (collect_all collecting each passed) ?_ rfl
      rfl
  | anonymousObject initialized =>
      refine atNode (collect_fields collecting eachField initialized) ?_ rfl
      rfl
  | unary converted =>
      refine atNode (each converted) ?_ rfl
      rfl
  | typeTest converted =>
      refine atNode (each converted) ?_ rfl
      simp [Lowered.proven, Expr.occurrences, bound_typePattern]
  | ternary asked first second =>
      refine atNode (collecting.append (each asked)
        (collecting.append (each first) (each second))) ?_ rfl
      simp [Expr.occurrences, occurrences_collapseCondition]
  | nothingTest isTest _ converted =>
      refine atNode (each converted) ?_ rfl
      simp [Lowered.proven, Expr.occurrences, bound_nothingPattern isTest]
  | binary _ first second together =>
      obtain ⟨counted, isTogether⟩ := putTogether_upcoming together
      exact putTogether rfl first second counted isTogether

end

/-! ## Whole conversions -/

/-- The places of what is given back. -/
def Output.occurrences : Output → List Occurrence
  | .statement converted => converted.occurrences
  | .expression converted => converted.occurrences

section

variable {setting : Setting} {account : Account} {session later : Session}
variable {visits : List Visit}

theorem StatementFormRun.collect {child : Slot → Passage Lowered} {form : Form}
    {converted : Target.Statement} (collecting : Collecting account)
    (each : AccountsForAll account child)
    (run : StatementFormRun setting child form session converted later visits) :
    account session later visits converted.occurrences := by
  have ofOptional {slot : Slot} {result : Option Expr}
      (run : OptionalRun child slot session result later visits) :
      account session later visits (result.elim [] Expr.occurrences) := by
    cases run with
    | absent => exact collecting.nothing session
    | present converted => exact each converted
  cases run with
  | @conditionStatement kind _ _ _ _ _ converted =>
      cases kind <;>
        simpa [convertHeader, Target.Statement.occurrences,
          occurrences_collapseCondition] using each converted
  | returnStatement converted => exact ofOptional converted
  | localDeclaration converted => exact ofOptional converted
  | assignment assigned converted =>
      exact collecting.append (each assigned) (each converted)
  | expressionStatement converted => exact each converted

theorem Request.Run.collect {request : Request} {output : Output}
    (collecting : Collecting account)
    (each : ∀ levels path, AccountsForAll account
      (SlotRun setting levels path true))
    (run : request.Run setting session output later visits) :
    account session later visits output.occurrences := by
  cases run with
  | statement run =>
      obtain ⟨form, -, run⟩ := run
      exact run.collect collecting (each _ _)
  | expression run => exact each _ _ run

end

end BasicLowering.Lowering
