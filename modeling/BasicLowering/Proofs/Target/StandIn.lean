import BasicLowering.Proofs.Target.Knowledge
import BasicLowering.Proofs.Target.Names

/-!
# Stand-ins for operands

What an expression does with its operands does not depend on what they are made
of. A stand-in is a call that takes the place of an operand, and an expression can
be studied with stand-ins, in a program that knows nothing but what they do. The
same expression with the operands themselves then runs in the same way. The
operands may bind names of their own, as long as these are none of the names of
the expression around them, and whatever these names have been bound to before.
-/

namespace BasicLowering.Target

open Semantics

variable {State : Type} {environment : Environment State}

/-! ## Names that are not bound -/

theorem Pattern.bindings_run {pattern : Pattern} {value : Value}
    {store after : Store State} {holds : Bool} {name : String}
    (ran : pattern.run value store = some (holds, after))
    (unbound : name ∉ pattern.bound) :
    after.bindings name = store.bindings name := by
  induction pattern generalizing holds with
  | anything other =>
      cases ran
      exact Function.update_of_ne (List.ne_of_not_mem_cons unbound) _ _
  | notNull other =>
      cases other with
      | none =>
          cases ran
          rfl
      | some other =>
          rw [Pattern.run] at ran
          split at ran
          · cases ran
            rfl
          · cases ran
            exact Function.update_of_ne (List.ne_of_not_mem_cons unbound) _ _
  | null =>
      cases ran
      rfl
  | type => cases ran
  | not inner ih =>
      obtain ⟨⟨_, _⟩, ranInner, ⟨⟩⟩ := Option.map_eq_some_iff.mp ran
      exact ih ranInner unbound

theorem Environment.bindings_run {expr : Expr} {store after : Store State}
    {value : Value} (ran : environment.run expr store = some (value, after)) :
    after.bindings = store.bindings := by
  obtain ⟨⟨_, _⟩, -, ⟨⟩⟩ := Option.map_eq_some_iff.mp ran
  rfl

/-- An evaluation leaves the names alone that its expression does not bind. -/
theorem Expr.bindings_run {expr : Expr}
    {store after : Store State} {value : Value} {name : String}
    (ran : expr.run environment store = some (value, after))
    (unbound : .binds name ∉ expr.occurrences) :
    after.bindings name = store.bindings name := by
  fun_induction Expr.run environment expr store generalizing value after
  case case1 text store =>
    obtain ⟨_, -, ⟨⟩⟩ := Option.map_eq_some_iff.mp ran
    rfl
  case case2 | case3 | case4 =>
    cases ran
    rfl
  case case5 operand store ih =>
    obtain ⟨⟨_, _⟩, ranOperand, ⟨⟩⟩ := Option.map_eq_some_iff.mp ran
    exact ih ranOperand unbound
  case case6 operand store _ ih =>
    exact ih (Option.filter_eq_some_iff.mp ran).1 unbound
  case case7 | case8 | case12 | case15 | case16 =>
    rw [Environment.bindings_run ran]
  case case9 left operator right store _ ihLeft ihRight =>
    simp only [occurrences, List.mem_append, not_or] at unbound
    obtain ⟨⟨_, between⟩, ranLeft, ranRest⟩ := Option.bind_eq_some_iff.mp ran
    have kept := ihLeft ranLeft unbound.1
    dsimp only at ranRest
    split at ranRest
    · cases ranRest
      exact kept
    · obtain ⟨⟨_, _⟩, ranRight, ranResult⟩ :=
        Option.bind_eq_some_iff.mp ranRest
      obtain ⟨_, -, ⟨⟩⟩ := Option.bind_eq_some_iff.mp ranResult
      exact (ihRight between ranRight unbound.2).trans kept
  case case10 operand store ih =>
    obtain ⟨⟨_, _⟩, ranOperand, ranResult⟩ := Option.bind_eq_some_iff.mp ran
    dsimp only at ranResult
    split at ranResult
    · cases ranResult
      exact ih ranOperand unbound
    · cases ranResult
  case case11 condition whenTrue whenFalse store ih ihTrue ihFalse =>
    simp only [occurrences, List.mem_append, not_or] at unbound
    obtain ⟨⟨_, between⟩, ranCondition, ranBranch⟩ :=
      Option.bind_eq_some_iff.mp ran
    have kept := ih ranCondition unbound.1
    dsimp only at ranBranch
    split at ranBranch
    · exact (ihTrue between ranBranch unbound.2.1).trans kept
    · exact (ihFalse between ranBranch unbound.2.2).trans kept
    · cases ranBranch
  case case13 operand pattern store _ ih =>
    simp only [occurrences, List.mem_append, List.mem_map, not_or] at unbound
    obtain ⟨⟨_, between⟩, ranOperand, ranTest⟩ := Option.bind_eq_some_iff.mp ran
    obtain ⟨⟨_, _⟩, ranPattern, ⟨⟩⟩ := Option.bind_eq_some_iff.mp ranTest
    exact (Pattern.bindings_run ranPattern fun bound =>
      unbound.2 ⟨name, bound, rfl⟩).trans (ih ranOperand unbound.1)
  case case14 operand store ih =>
    exact ih (Option.filter_eq_some_iff.mp ran).1 unbound

/-! ## Stand-ins -/

/-- A call without arguments, in the place of an operand. -/
def Expr.standIn (name : String) : Expr :=
  .call (.identifier name) []

/-- Put operands in the places of their stand-ins. -/
def Expr.fill (operandOf : String → Expr) : Expr → Expr
  | .call (.identifier name) [] => operandOf name
  | .member receiver name => .member (receiver.fill operandOf) name
  | .binary left operator right =>
      .binary (left.fill operandOf) operator (right.fill operandOf)
  | .unary operator operand => .unary operator (operand.fill operandOf)
  | .conditional condition whenTrue whenFalse =>
      .conditional (condition.fill operandOf) (whenTrue.fill operandOf)
        (whenFalse.fill operandOf)
  | .test operand pattern => .test (operand.fill operandOf) pattern
  | .cast typeName operand => .cast typeName (operand.fill operandOf)
  | expr => expr

/-- The program that knows nothing but what the stand-ins do. -/
def standInProgram (does : String → State → Value × State) :
    Environment State where
  read _ _ := none
  perform state
    | .call (.identifier name) [] => some (does name state)
    | _ => none

/-- Whether an operand does something wherever the captures around it have their
values, none of which it binds anew. -/
structure Acts (environment : Environment State) (outer : Knowledge)
    (expr : Expr) (does : State → Value × State) : Prop where
  runs : ∀ bindings state, outer.Within bindings →
    ∃ bound, expr.run environment ⟨bindings, state⟩ =
      some ((does state).1, ⟨bound, (does state).2⟩)
  keeps : ∀ name, .binds name ∈ expr.occurrences → outer name = none

/-- An operand leaves the captures around it as they are. -/
theorem Acts.yields {expr : Expr} {outer : Knowledge}
    {does : State → Value × State} (acts : Acts environment outer expr does)
    (state : State) :
    Yields environment outer state expr (does state).1 (does state).2 outer := by
  intro bindings satisfied
  obtain ⟨bound, ran⟩ := acts.runs bindings state satisfied
  refine ⟨bound, fun name value isKnown => ?_, ran⟩
  have unbound : .binds name ∉ expr.occurrences := by
    intro binds
    cases (acts.keeps name binds).symm.trans isKnown
  exact (Expr.bindings_run ran unbound).trans (satisfied name value isKnown)

/-- Whether operands do what their stand-ins do. They have nothing to do with the
names of a template. -/
structure StandsIn (environment : Environment State) (names : List String)
    (outer : Knowledge) (operandOf : String → Expr)
    (does : String → State → Value × State) : Prop where
  acts : ∀ operand, Acts environment outer (operandOf operand) (does operand)
  unknown : ∀ name ∈ names, outer name = none
  unread : ∀ name ∈ names, ∀ state, environment.read state name = none
  apart : ∀ name ∈ names, ∀ operand,
    .binds name ∉ (operandOf operand).occurrences

/-- Whether a store of the program of stand-ins is like one of the program
itself, where names of templates have the same values. -/
structure Shows (names : List String) (outer : Knowledge)
    (shown actual : Store State) : Prop where
  state : shown.state = actual.state
  bindings : ∀ name value, shown.bindings name = some value →
    name ∈ names ∧ actual.bindings name = some value
  outer : outer.Within actual.bindings

/-- Whether one evaluation goes as another one does, if that has a result. -/
def Follows {Result : Type} (names : List String) (outer : Knowledge)
    (shown actual : Option (Result × Store State)) : Prop :=
  ∀ result shownAfter, shown = some (result, shownAfter) →
    ∃ after, actual = some (result, after) ∧ Shows names outer shownAfter after

/-! ## Evaluations side by side -/

section

variable {Result Final : Type} {names : List String} {outer : Knowledge}
variable {shown actual : Store State}

theorem Follows.none {other : Option (Result × Store State)} :
    Follows names outer none other :=
  nofun

theorem Follows.some (shows : Shows names outer shown actual)
    {result : Result} :
    Follows names outer (some (result, shown)) (some (result, actual)) := by
  rintro _ _ ⟨⟩
  exact ⟨actual, rfl, shows⟩

theorem Follows.bind {first second : Option (Result × Store State)}
    {next other : Result × Store State → Option (Final × Store State)}
    (follows : Follows names outer first second)
    (continues : ∀ result shown actual, Shows names outer shown actual →
      Follows names outer (next (result, shown)) (other (result, actual))) :
    Follows names outer (first >>= next) (second >>= other) := by
  intro final shownAfter ran
  obtain ⟨⟨result, between⟩, ranFirst, ranNext⟩ :=
    Option.bind_eq_some_iff.mp ran
  obtain ⟨actualBetween, ranSecond, shows⟩ := follows result between ranFirst
  obtain ⟨after, ranOther, showsAfter⟩ :=
    continues result between actualBetween shows final shownAfter ranNext
  exact ⟨after, Option.bind_eq_some_iff.mpr ⟨_, ranSecond, ranOther⟩,
    showsAfter⟩

theorem Follows.map {first second : Option (Result × Store State)}
    (follows : Follows names outer first second) (change : Result → Final) :
    Follows names outer (first.map fun (result, store) => (change result, store))
      (second.map fun (result, store) => (change result, store)) := by
  intro final shownAfter ran
  obtain ⟨⟨_, _⟩, ranFirst, ⟨⟩⟩ := Option.map_eq_some_iff.mp ran
  obtain ⟨actualBetween, ranSecond, shows⟩ := follows _ _ ranFirst
  exact ⟨actualBetween, Option.map_eq_some_iff.mpr ⟨_, ranSecond, rfl⟩, shows⟩

theorem Follows.filter {first second : Option (Result × Store State)}
    (follows : Follows names outer first second) (keeps : Result → Bool) :
    Follows names outer (first.filter (keeps ·.1)) (second.filter (keeps ·.1)) := by
  intro result shownAfter ran
  obtain ⟨ranFirst, kept⟩ := Option.filter_eq_some_iff.mp ran
  obtain ⟨after, ranSecond, shows⟩ := follows result shownAfter ranFirst
  exact ⟨after, Option.filter_eq_some_iff.mpr ⟨ranSecond, kept⟩, shows⟩

theorem Store.bindings_bind (store : Store State) (name : String) (value : Value) :
    (store.bind name value).bindings =
      Function.update store.bindings name (.some value) :=
  rfl

/-- Binding a name. -/
theorem Shows.bind (shows : Shows names outer shown actual) {name : String}
    (isName : name ∈ names) (unknown : outer name = .none) (value : Value) :
    Shows names outer (shown.bind name value) (actual.bind name value) where
  state := shows.state
  bindings := by
    intro other otherValue isBound
    by_cases same : other = name
    · subst same
      rw [Store.bindings_bind, Function.update_self] at isBound ⊢
      exact ⟨isName, isBound⟩
    · rw [Store.bindings_bind, Function.update_of_ne same] at isBound ⊢
      exact shows.bindings other otherValue isBound
  outer := by
    intro other otherValue isKnown
    have different : other ≠ name := by
      rintro rfl
      cases unknown.symm.trans isKnown
    rw [Store.bindings_bind, Function.update_of_ne different]
    exact shows.outer other otherValue isKnown

theorem Pattern.follows_run {pattern : Pattern}
    (shows : Shows names outer shown actual)
    (fresh : ∀ name ∈ pattern.bound, name ∈ names ∧ outer name = .none)
    (value : Value) :
    Follows names outer (pattern.run value shown) (pattern.run value actual) := by
  induction pattern with
  | anything name =>
      have isFresh := fresh name List.mem_cons_self
      exact .some (shows.bind isFresh.1 isFresh.2 value)
  | notNull name =>
      cases name with
      | none => exact .some shows
      | some name =>
          have isFresh := fresh name List.mem_cons_self
          rw [Pattern.run, Pattern.run]
          split
          · exact .some shows
          · exact .some (shows.bind isFresh.1 isFresh.2 value)
  | null => exact .some shows
  | type => exact .none
  | not inner ih => exact (ih fresh).map _

/-- An operand does what its stand-in does. -/
theorem Acts.follows {expr : Expr} {does : State → Value × State}
    (acts : Acts environment outer expr does)
    (shows : Shows names outer shown actual)
    (apart : ∀ name ∈ names, .binds name ∉ expr.occurrences) :
    Follows names outer
      (.some ((does shown.state).1, { shown with state := (does shown.state).2 }))
      (expr.run environment actual) := by
  rintro _ _ ⟨⟩
  obtain ⟨bound, ran⟩ := acts.runs actual.bindings actual.state shows.outer
  rw [shows.state]
  have kept {name : String} (unbound : .binds name ∉ expr.occurrences) :
      bound name = actual.bindings name :=
    Expr.bindings_run ran unbound
  refine ⟨_, ran, rfl, ?_, ?_⟩
  · intro name value isBound
    obtain ⟨isName, isSame⟩ := shows.bindings name value isBound
    exact ⟨isName, (kept (apart name isName)).trans isSame⟩
  · intro name value isKnown
    refine (kept ?_).trans (shows.outer name value isKnown)
    intro binds
    cases (acts.keeps name binds).symm.trans isKnown

variable {does : String → State → Value × State} {operandOf : String → Expr}

theorem follows_perform {expr : Expr} (notCall : ∀ name, expr ≠ .standIn name)
    (other : Option (Value × Store State)) :
    Follows names outer ((standInProgram does).run expr shown) other := by
  intro value after ran
  obtain ⟨_, performed, -⟩ := Option.map_eq_some_iff.mp ran
  simp only [standInProgram] at performed
  split at performed
  · next name => exact absurd rfl (notCall name)
  · cases performed

/-- An expression that is filled with operands runs as it does with their
stand-ins. -/
theorem StandsIn.follows_run {expr : Expr}
    (standsIn : StandsIn environment names outer operandOf does)
    (bound : ∀ name, .binds name ∈ expr.occurrences → name ∈ names)
    (shows : Shows names outer shown actual) :
    Follows names outer (expr.run (standInProgram does) shown)
      ((expr.fill operandOf).run environment actual) := by
  fun_induction Expr.run (standInProgram does) expr shown generalizing actual
  case case1 text shown =>
    intro value after ran
    obtain ⟨_, isRead, ⟨⟩⟩ := Option.map_eq_some_iff.mp ran
    obtain ⟨isName, isBound⟩ := shows.bindings text value isRead
    refine ⟨actual, ?_, shows⟩
    simp [Expr.fill, standsIn.unread text isName, isBound]
  case case2 | case3 | case4 => exact .some shows
  case case5 operand shown ih =>
    simp only [Expr.fill, Expr.run, if_true]
    exact (ih bound shows).map fun value => Value.boolean (value != .null)
  case case6 operand shown _ ih =>
    simp only [Expr.fill, Expr.run, if_true, reduceIte, String.reduceEq]
    exact (ih bound shows).filter (· ≠ .null)
  case case7 | case8 | case12 | case15 =>
    exact follows_perform (by simp [Expr.standIn]) _
  case case9 left operator right shown notArithmetic ihLeft ihRight =>
    simp only [Expr.occurrences, List.mem_append] at bound
    rw [Expr.fill, Expr.run, if_neg notArithmetic]
    refine (ihLeft (fun name binds => bound name (.inl binds)) shows).bind ?_
    intro leftValue shown actual shows
    dsimp only
    split
    · exact .some shows
    · refine (ihRight shown (fun name binds => bound name (.inr binds))
        shows).bind ?_
      intro rightValue shown actual shows
      dsimp only
      cases operator.result? leftValue rightValue with
      | none => exact .none
      | some => exact .some shows
  case case10 operand shown ih =>
    rw [Expr.fill, Expr.run]
    refine (ih bound shows).bind ?_
    intro value shown actual shows
    dsimp only
    split
    · exact .some shows
    · exact .none
  case case11 condition whenTrue whenFalse shown ih ihTrue ihFalse =>
    simp only [Expr.occurrences, List.mem_append] at bound
    rw [Expr.fill, Expr.run]
    refine (ih (fun name binds => bound name (.inl binds)) shows).bind ?_
    intro value shown actual shows
    dsimp only
    split
    · exact ihTrue shown (fun name binds => bound name (.inr (.inl binds))) shows
    · exact ihFalse shown (fun name binds => bound name (.inr (.inr binds))) shows
    · exact .none
  case case13 operand pattern shown notType ih =>
    simp only [Expr.occurrences, List.mem_append, List.mem_map] at bound
    rw [Expr.fill, Expr.run, if_neg notType]
    refine (ih (fun name binds => bound name (.inl binds)) shows).bind ?_
    intro value shown actual shows
    refine (Pattern.follows_run shows (fun name binds => ?_) value).bind ?_
    · have isName := bound name (.inr ⟨name, binds, rfl⟩)
      exact ⟨isName, standsIn.unknown name isName⟩
    · intro holds shown actual shows
      exact .some shows
  case case14 operand shown ih =>
    simp only [Expr.fill, Expr.run, if_true]
    exact (ih bound shows).filter (·.isLogical)
  case case16 expr shown _ _ _ _ _ _ _ _ _ _ =>
    by_cases isCall : ∃ name, expr = .standIn name
    · obtain ⟨name, rfl⟩ := isCall
      exact (standsIn.acts name).follows shows fun other isName =>
        standsIn.apart other isName name
    · exact follows_perform (fun name same => isCall ⟨name, same⟩) _

end

end BasicLowering.Target
