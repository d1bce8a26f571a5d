import BasicLowering.Proofs.Target.Names

/-!
# Scopes of captures

A capture may be read once the pattern that binds it has run and has matched.
Evaluation goes from left to right, save where an operand is left out: on the
right of `&&` and `||`, in the branch of a conditional that is not taken, and at
the end of a chain whose `?.` has met null. What an expression comes to is left
open apart from this, so all the ways in which an evaluation can go are covered.

`Scoped` is the rule by which the target language itself decides that a name is
assigned: what is known before an expression, and what is known in addition after
it has come to true and after it has come to false.
-/

namespace BasicLowering.Target

/-- Whether a pattern may end with a result, after it has bound the given
names. -/
def Pattern.Ends : Pattern → Bool → List String → Prop
  | .anything name, result, names => result = true ∧ names = [name]
  | .notNull name, true, names => names = name.toList
  | .notNull _, false, names | .null, _, names | .type _, _, names => names = []
  | .not inner, result, names => inner.Ends (!result) names

namespace Expr

/-- Whether a chain of accesses ends where the receiver of a `?.` in it is
null. -/
def mayEndEarly : Expr → Bool
  | conditionalMember _ _ => true
  | member receiver _ | element receiver _ | call receiver _ =>
      receiver.mayEndEarly
  | _ => false

mutual

/-- Whether an evaluation may read and bind the given names, one after another, and
come to something that is true or is not. -/
def Evaluates : Expr → List Occurrence → Bool → Prop
  | identifier text, trace, _ => trace = [.reads text]
  | this, trace, _ | base, trace, _ | null, trace, _ | boolean _, trace, _
  | number _, trace, _ | string _, trace, _ => trace = []
  | member receiver _, trace, _ | conditionalMember receiver _, trace, _ =>
      ∃ truth, Evaluates receiver trace truth
  | element receiver index, trace, _ =>
      ∃ first rest, (∃ truth, Evaluates receiver first truth) ∧
        (receiver.mayEndEarly = true ∧ rest = [] ∨
          ∃ truth, Evaluates index rest truth) ∧
        trace = first ++ rest
  | call callee arguments, trace, _ =>
      ∃ first rest, (∃ truth, Evaluates callee first truth) ∧
        (callee.mayEndEarly = true ∧ rest = [] ∨
          EvaluatesAll arguments rest) ∧
        trace = first ++ rest
  | namedArgument _ value, trace, _ => ∃ truth, Evaluates value trace truth
  | new _ arguments, trace, _ => EvaluatesAll arguments trace
  | anonymousObject fields, trace, _ => EvaluatesFields fields trace
  | binary left .logicalAnd right, trace, truth =>
      truth = false ∧ Evaluates left trace false ∨
        ∃ first rest, Evaluates left first true ∧ Evaluates right rest truth ∧
          trace = first ++ rest
  | binary left .logicalOr right, trace, truth =>
      truth = true ∧ Evaluates left trace true ∨
        ∃ first rest, Evaluates left first false ∧ Evaluates right rest truth ∧
          trace = first ++ rest
  | binary left _ right, trace, _ =>
      ∃ first rest, (∃ truth, Evaluates left first truth) ∧
        (∃ truth, Evaluates right rest truth) ∧ trace = first ++ rest
  | unary .logicalNot operand, trace, truth => Evaluates operand trace (!truth)
  | unary _ operand, trace, _ => ∃ truth, Evaluates operand trace truth
  | conditional condition whenTrue whenFalse, trace, truth =>
      ∃ first rest, trace = first ++ rest ∧
        (Evaluates condition first true ∧ Evaluates whenTrue rest truth ∨
          Evaluates condition first false ∧ Evaluates whenFalse rest truth)
  | test operand pattern, trace, truth =>
      ∃ first names, (∃ truth, Evaluates operand first truth) ∧
        pattern.Ends truth names ∧ trace = first ++ names.map .binds
  | cast _ operand, trace, _ => ∃ truth, Evaluates operand trace truth

/-- Whether expressions may be evaluated one after another in this way. -/
def EvaluatesAll : List Expr → List Occurrence → Prop
  | [], trace => trace = []
  | expr :: more, trace =>
      ∃ first rest, (∃ truth, Evaluates expr first truth) ∧
        EvaluatesAll more rest ∧ trace = first ++ rest

/-- Whether the values of fields may be evaluated one after another in this
way. -/
def EvaluatesFields : List (Option String × Expr) → List Occurrence → Prop
  | [], trace => trace = []
  | (_, value) :: more, trace =>
      ∃ first rest, (∃ truth, Evaluates value first truth) ∧
        EvaluatesFields more rest ∧ trace = first ++ rest

end

end Expr

/-! ## Traces -/

/-- Whether each read of a capture in a trace is of one that is known, or comes
after the pattern that binds it. -/
def InScope (isCapture : String → Prop) (known : List String)
    (trace : List Occurrence) : Prop :=
  ∀ earlier name further, trace = earlier ++ .reads name :: further →
    isCapture name → name ∈ known ∨ .binds name ∈ earlier

namespace InScope

variable {isCapture : String → Prop} {known more : List String}
variable {first rest trace : List Occurrence}

theorem nil : InScope isCapture known [] := by
  intro earlier name further same
  simp at same

theorem mono (inScope : InScope isCapture known trace)
    (fewer : ∀ name ∈ known, name ∈ more) : InScope isCapture more trace :=
  fun earlier name further same captured =>
    (inScope earlier name further same captured).imp_left (fewer name)

theorem reads {name : String} (isKnown : isCapture name → name ∈ known) :
    InScope isCapture known [.reads name] := by
  intro earlier other further same captured
  cases earlier with
  | nil =>
      cases same
      exact .inl (isKnown captured)
  | cons => simp at same

theorem binds (names : List String) :
    InScope isCapture known (names.map .binds) := by
  intro earlier name further same
  have isRead : .reads name ∈ names.map Occurrence.binds := by simp [same]
  simp at isRead

/-- What the first part binds is known in the second one. -/
theorem append (before : InScope isCapture known first)
    (after : InScope isCapture more rest)
    (fromBefore : ∀ name ∈ more, name ∈ known ∨ .binds name ∈ first) :
    InScope isCapture known (first ++ rest) := by
  intro earlier name further same captured
  obtain ⟨between, rfl, isRest⟩ | ⟨between, isFirst, isRest⟩ :=
    List.append_eq_append_iff.mp same
  · obtain isKnown | bound := after between name further isRest captured
    · exact (fromBefore name isKnown).imp_right (List.mem_append_left _)
    · exact .inr (List.mem_append_right _ bound)
  · cases between with
    | nil =>
        obtain rfl : first = earlier := by simpa using isFirst
        obtain isKnown | bound := after [] name further isRest.symm captured
        · exact fromBefore name isKnown
        · cases bound
    | cons place between =>
        obtain ⟨rfl, -⟩ := List.cons.inj isRest
        exact before earlier name between isFirst captured

end InScope

/-! ## What is known after an expression -/

/-- Whether every evaluation that starts with `known` reads captures in their
scope, and binds what is said to be known once it has come to true, or to
something else. -/
def Scoped (isCapture : String → Prop) (known : List String) (expr : Expr)
    (whenTrue whenFalse : List String) : Prop :=
  ∀ trace truth, expr.Evaluates trace truth →
    InScope isCapture known trace ∧
      ∀ name ∈ (if truth then whenTrue else whenFalse),
        name ∈ known ∨ .binds name ∈ trace

/-- Whether an expression reads only captures that it binds before. -/
def Closed (isCapture : String → Prop) (expr : Expr) : Prop :=
  Scoped isCapture [] expr [] []

section

variable {isCapture : String → Prop} {known more : List String}
variable {expr left right operand condition yes no : Expr}
variable {whenTrue whenFalse rightTrue rightFalse : List String}

theorem Scoped.weaken {fewerTrue fewerFalse : List String}
    (scope : Scoped isCapture known expr whenTrue whenFalse)
    (kept : known ⊆ more) (keptTrue : fewerTrue ⊆ whenTrue)
    (keptFalse : fewerFalse ⊆ whenFalse) :
    Scoped isCapture more expr fewerTrue fewerFalse := by
  intro trace truth evaluates
  obtain ⟨inScope, isKnown⟩ := scope trace truth evaluates
  refine ⟨inScope.mono kept, fun name member => ?_⟩
  refine (isKnown name ?_).imp_left (kept ·)
  cases truth with
  | true => exact keptTrue member
  | false => exact keptFalse member

/-- What is known besides does not matter to a closed expression. -/
theorem Closed.anywhere (closed : Closed isCapture expr) :
    Scoped isCapture known expr [] [] :=
  Scoped.weaken closed (List.nil_subset known) (List.Subset.refl [])
    (List.Subset.refl [])

/-- Of an expression that is not tested only the scopes matter. -/
theorem scoped_untested :
    Scoped isCapture known expr [] [] ↔
      ∀ trace truth, expr.Evaluates trace truth →
        InScope isCapture known trace := by
  simp [Scoped]

theorem Scoped.untested
    (scope : Scoped isCapture known expr whenTrue whenFalse) :
    Scoped isCapture known expr [] [] :=
  scoped_untested.mpr fun trace truth evaluates =>
    (scope trace truth evaluates).1

/-- Parts that are evaluated one after another and not tested. -/
theorem InScope.append_untested {first rest : List Occurrence}
    (before : InScope isCapture known first)
    (after : InScope isCapture known rest) :
    InScope isCapture known (first ++ rest) :=
  before.append after fun _ isKnown => .inl isKnown

/-! ### Single expressions -/

theorem scoped_identifier {text : String}
    (isKnown : isCapture text → text ∈ known) :
    Scoped isCapture known (.identifier text) [] [] := by
  rw [scoped_untested]
  rintro _ _ rfl
  exact .reads isKnown

/-- An expression without operands reads nothing. -/
theorem scoped_of_silent
    (silent : ∀ trace truth, expr.Evaluates trace truth → trace = []) :
    Scoped isCapture known expr [] [] := by
  rw [scoped_untested]
  intro trace truth evaluates
  rw [silent trace truth evaluates]
  exact .nil

theorem scoped_null : Scoped isCapture known .null [] [] :=
  scoped_of_silent fun _ _ silent => silent

theorem scoped_boolean {value : Bool} :
    Scoped isCapture known (.boolean value) [] [] :=
  scoped_of_silent fun _ _ silent => silent

namespace Scoped

section

variable (scope : Scoped isCapture known operand whenTrue whenFalse)

include scope

theorem member {name : String} :
    Scoped isCapture known (.member operand name) [] [] :=
  scoped_untested.mpr fun _ _ ⟨truth, evaluates⟩ => (scope _ truth evaluates).1

theorem conditionalMember {name : String} :
    Scoped isCapture known (.conditionalMember operand name) [] [] :=
  scoped_untested.mpr fun _ _ ⟨truth, evaluates⟩ => (scope _ truth evaluates).1

theorem namedArgument {name : String} :
    Scoped isCapture known (.namedArgument name operand) [] [] :=
  scoped_untested.mpr fun _ _ ⟨truth, evaluates⟩ => (scope _ truth evaluates).1

theorem cast {typeName : String} :
    Scoped isCapture known (.cast typeName operand) [] [] :=
  scoped_untested.mpr fun _ _ ⟨truth, evaluates⟩ => (scope _ truth evaluates).1

theorem hasValue : Scoped isCapture known operand.hasValue [] [] :=
  scope.member

theorem getValue : Scoped isCapture known operand.getValue [] [] :=
  scope.member

theorem negate :
    Scoped isCapture known operand.negate whenFalse whenTrue := by
  intro trace truth evaluates
  obtain ⟨inScope, isKnown⟩ := scope trace (!truth) evaluates
  refine ⟨inScope, ?_⟩
  cases truth <;> exact isKnown

theorem unary {operator : UnaryOperator} :
    Scoped isCapture known (.unary operator operand) [] [] := by
  cases operator with
  | logicalNot => exact scope.negate.untested
  | complement | minus | plus =>
      exact scoped_untested.mpr fun _ _ ⟨truth, evaluates⟩ =>
        (scope _ truth evaluates).1

theorem hasNoValue : Scoped isCapture known operand.hasNoValue [] [] :=
  scope.hasValue.unary

/-- A pattern that always matches has bound its name. -/
theorem testAnything {name : String} :
    Scoped isCapture known (.test operand (.anything name)) [name] [name] := by
  rintro _ _ ⟨first, _, ⟨truth, evaluates⟩, ⟨rfl, rfl⟩, rfl⟩
  refine ⟨(scope first truth evaluates).1.append_untested (.binds _), ?_⟩
  simp

theorem testNotNull {name : String} :
    Scoped isCapture known (.test operand (.notNull (some name))) [name] [] := by
  rintro _ result ⟨first, names, ⟨truth, evaluates⟩, ends, rfl⟩
  refine ⟨(scope first truth evaluates).1.append_untested (.binds _), ?_⟩
  cases result with
  | false => nofun
  | true =>
      obtain rfl : names = [name] := ends
      simp

omit scope in
theorem testNot {pattern : Pattern}
    (scope : Scoped isCapture known (.test operand pattern) whenTrue whenFalse) :
    Scoped isCapture known (.test operand (.not pattern)) whenFalse whenTrue := by
  intro trace truth evaluates
  obtain ⟨inScope, isKnown⟩ := scope trace (!truth) evaluates
  refine ⟨inScope, ?_⟩
  cases truth <;> exact isKnown

theorem testNull {name : String} :
    Scoped isCapture known (.test operand (.not (.notNull (some name)))) []
      [name] :=
  scope.testNotNull.testNot

theorem test {pattern : Pattern} :
    Scoped isCapture known (.test operand pattern) [] [] :=
  scoped_untested.mpr fun _ _ ⟨first, _, ⟨truth, evaluates⟩, _, same⟩ =>
    same ▸ (scope first truth evaluates).1.append_untested (.binds _)

end

/-! ### Several operands -/

/-- What is known after two parts of an evaluation, of which the second one relies
on what the first one binds. -/
theorem sequence {first rest : List Occurrence} {bound : List String}
    {truth : Bool}
    (before : InScope isCapture known first ∧
      ∀ name ∈ bound, name ∈ known ∨ .binds name ∈ first)
    (scope : Scoped isCapture (known ++ bound) right rightTrue rightFalse)
    (evaluates : right.Evaluates rest truth) :
    InScope isCapture known (first ++ rest) ∧
      ∀ name ∈ bound ++ (if truth then rightTrue else rightFalse),
        name ∈ known ∨ .binds name ∈ first ++ rest := by
  obtain ⟨inScope, isKnown⟩ := before
  obtain ⟨inScopeRight, isKnownRight⟩ := scope rest truth evaluates
  have known_append : ∀ name ∈ known ++ bound,
      name ∈ known ∨ .binds name ∈ first := by
    intro name member
    obtain isKnownBefore | isBound := List.mem_append.mp member
    · exact .inl isKnownBefore
    · exact isKnown name isBound
  refine ⟨inScope.append inScopeRight known_append, fun name member => ?_⟩
  obtain isBound | isNew := List.mem_append.mp member
  · exact (isKnown name isBound).imp_right (List.mem_append_left rest)
  · obtain isKnownThen | isBound := isKnownRight name isNew
    · exact (known_append name isKnownThen).imp_right
        (List.mem_append_left rest)
    · exact .inr (List.mem_append_right first isBound)

/-- The right operand of `&&` runs where the left one is true. -/
theorem and {whenNot : List String}
    (first : Scoped isCapture known left whenTrue whenFalse)
    (second : Scoped isCapture (known ++ whenTrue) right rightTrue rightFalse)
    (leftFails : whenNot ⊆ whenFalse)
    (rightFails : whenNot ⊆ whenTrue ++ rightFalse) :
    Scoped isCapture known (left.and right) (whenTrue ++ rightTrue)
      whenNot := by
  rintro trace truth (⟨rfl, evaluates⟩ | ⟨front, rest, tested, evaluates, rfl⟩)
  · obtain ⟨inScope, isKnown⟩ := first trace false evaluates
    exact ⟨inScope, fun name member => isKnown name (leftFails member)⟩
  · obtain ⟨inScope, isKnown⟩ := sequence (first front true tested) second
      evaluates
    refine ⟨inScope, fun name member => isKnown name ?_⟩
    cases truth with
    | true => exact member
    | false => exact rightFails member

/-- The right operand of `||` runs where the left one is false. -/
theorem or {whenSo : List String}
    (first : Scoped isCapture known left whenTrue whenFalse)
    (second : Scoped isCapture (known ++ whenFalse) right rightTrue rightFalse)
    (leftHolds : whenSo ⊆ whenTrue)
    (rightHolds : whenSo ⊆ whenFalse ++ rightTrue) :
    Scoped isCapture known (left.or right) whenSo
      (whenFalse ++ rightFalse) := by
  rintro trace truth (⟨rfl, evaluates⟩ | ⟨front, rest, tested, evaluates, rfl⟩)
  · obtain ⟨inScope, isKnown⟩ := first trace true evaluates
    exact ⟨inScope, fun name member => isKnown name (leftHolds member)⟩
  · obtain ⟨inScope, isKnown⟩ := sequence (first front false tested) second
      evaluates
    refine ⟨inScope, fun name member => isKnown name ?_⟩
    cases truth with
    | true => exact rightHolds member
    | false => exact member

theorem conditional
    (tested : Scoped isCapture known condition whenTrue whenFalse)
    (scopeYes : Scoped isCapture (known ++ whenTrue) yes [] [])
    (scopeNo : Scoped isCapture (known ++ whenFalse) no [] []) :
    Scoped isCapture known (.conditional condition yes no) [] [] := by
  rw [scoped_untested]
  rintro _ truth ⟨front, rest, rfl, ⟨holds, evaluates⟩ | ⟨fails, evaluates⟩⟩
  · exact (sequence (tested front true holds) scopeYes evaluates).1
  · exact (sequence (tested front false fails) scopeNo evaluates).1

/-- Any operator, where neither operand relies on the other one. -/
theorem binary {operator : BinaryOperator}
    (first : Scoped isCapture known left whenTrue whenFalse)
    (second : Scoped isCapture known right rightTrue rightFalse) :
    Scoped isCapture known (.binary left operator right) [] [] := by
  have secondAfter (bound : List String) :
      Scoped isCapture (known ++ bound) right [] [] :=
    second.untested.weaken (List.subset_append_left known bound)
      (List.Subset.refl []) (List.Subset.refl [])
  cases operator with
  | logicalAnd =>
      exact (first.and (secondAfter whenTrue) (List.nil_subset _)
        (List.nil_subset _)).untested
  | logicalOr =>
      exact (first.or (secondAfter whenFalse) (List.nil_subset _)
        (List.nil_subset _)).untested
  | _ =>
      rw [scoped_untested]
      rintro _ _ ⟨front, rest, ⟨_, early⟩, ⟨_, late⟩, rfl⟩
      exact (first front _ early).1.append_untested (second rest _ late).1

theorem equalsTrue (scope : Scoped isCapture known operand whenTrue whenFalse) :
    Scoped isCapture known operand.equalsTrue [] [] :=
  scope.binary scoped_boolean

theorem equalsFalse (scope : Scoped isCapture known operand whenTrue whenFalse) :
    Scoped isCapture known operand.equalsFalse [] [] :=
  scope.binary scoped_boolean

end Scoped

/-! ### Lists of operands -/

section

variable {arguments : List Expr} {fields : List (Option String × Expr)}
variable {trace : List Occurrence}

theorem inScope_evaluatesAll
    (scopes : ∀ argument ∈ arguments, Scoped isCapture known argument [] [])
    (evaluates : Expr.EvaluatesAll arguments trace) :
    InScope isCapture known trace := by
  induction arguments generalizing trace with
  | nil =>
      obtain rfl : trace = [] := evaluates
      exact .nil
  | cons argument more ih =>
      obtain ⟨first, rest, ⟨truth, early⟩, late, rfl⟩ := evaluates
      rw [List.forall_mem_cons] at scopes
      exact (scopes.1 first truth early).1.append_untested (ih scopes.2 late)

/-- The values of fields are evaluated as arguments are. -/
theorem evaluatesFields_eq (fields : List (Option String × Expr)) :
    Expr.EvaluatesFields fields = Expr.EvaluatesAll (fields.map Prod.snd) := by
  induction fields with
  | nil => rfl
  | cons field more ih =>
      funext trace
      rw [List.map_cons, Expr.EvaluatesFields, Expr.EvaluatesAll, ih]

theorem inScope_evaluatesFields
    (scopes : ∀ field ∈ fields, Scoped isCapture known field.2 [] [])
    (evaluates : Expr.EvaluatesFields fields trace) :
    InScope isCapture known trace := by
  rw [evaluatesFields_eq] at evaluates
  exact inScope_evaluatesAll (List.forall_mem_map.mpr scopes) evaluates

end

namespace Scoped

theorem call {callee : Expr} {arguments : List Expr}
    (scope : Scoped isCapture known callee [] [])
    (scopes : ∀ argument ∈ arguments, Scoped isCapture known argument [] []) :
    Scoped isCapture known (.call callee arguments) [] [] := by
  rw [scoped_untested]
  rintro _ _ ⟨first, rest, ⟨truth, early⟩, ⟨-, rfl⟩ | late, rfl⟩
  · exact (scope first truth early).1.append_untested .nil
  · exact (scope first truth early).1.append_untested
      (inScope_evaluatesAll scopes late)

theorem new {typeName : String} {arguments : List Expr}
    (scopes : ∀ argument ∈ arguments, Scoped isCapture known argument [] []) :
    Scoped isCapture known (.new typeName arguments) [] [] :=
  scoped_untested.mpr fun _ _ evaluates => inScope_evaluatesAll scopes evaluates

theorem anonymousObject {fields : List (Option String × Expr)}
    (scopes : ∀ field ∈ fields, Scoped isCapture known field.2 [] []) :
    Scoped isCapture known (.anonymousObject fields) [] [] :=
  scoped_untested.mpr fun _ _ evaluates =>
    inScope_evaluatesFields scopes evaluates

theorem element {receiver index : Expr}
    (first : Scoped isCapture known receiver [] [])
    (second : Scoped isCapture known index [] []) :
    Scoped isCapture known (.element receiver index) [] [] := by
  rw [scoped_untested]
  rintro _ _ ⟨front, rest, ⟨truth, early⟩, ⟨-, rfl⟩ | ⟨_, late⟩, rfl⟩
  · exact (first front truth early).1.append_untested .nil
  · exact (first front truth early).1.append_untested (second rest _ late).1

end Scoped

end

/-! ## Evaluations and what is written -/

theorem Pattern.subset_bound {pattern : Pattern} {result : Bool}
    {names : List String} (ends : pattern.Ends result names) :
    names ⊆ pattern.bound := by
  induction pattern generalizing result with
  | anything name => exact ends.2 ▸ List.Subset.refl [name]
  | notNull name =>
      cases result with
      | true =>
          obtain rfl : names = name.toList := ends
          exact List.Subset.refl _
      | false =>
          obtain rfl : names = [] := ends
          exact List.nil_subset _
  | null | type =>
      obtain rfl : names = [] := ends
      exact List.nil_subset _
  | not inner ih => exact ih ends

theorem subset_append {first rest front back : List Occurrence}
    (early : first ⊆ front) (late : rest ⊆ back) :
    first ++ rest ⊆ front ++ back :=
  List.append_subset.mpr ⟨List.subset_append_of_subset_left back early,
    List.subset_append_of_subset_right front late⟩

namespace Expr

mutual

/-- An evaluation comes only by places that are written in the expression. -/
theorem subset_occurrences : (expr : Expr) → {trace : List Occurrence} →
    {truth : Bool} → expr.Evaluates trace truth → trace ⊆ expr.occurrences
  | identifier _, _, _, same | this, _, _, same | base, _, _, same
  | null, _, _, same | boolean _, _, _, same | number _, _, _, same
  | string _, _, _, same => by
      simp only [Evaluates] at same
      exact same ▸ List.Subset.refl _
  | member operand _, _, _, evaluates
  | conditionalMember operand _, _, _, evaluates
  | namedArgument _ operand, _, _, evaluates
  | cast _ operand, _, _, evaluates => by
      simp only [Evaluates] at evaluates
      obtain ⟨_, inside⟩ := evaluates
      exact subset_occurrences operand inside
  | element receiver index, _, _, evaluates => by
      simp only [Evaluates] at evaluates
      obtain ⟨first, rest, ⟨_, early⟩, late, rfl⟩ := evaluates
      refine subset_append (subset_occurrences receiver early) ?_
      obtain ⟨-, rfl⟩ | ⟨_, late⟩ := late
      · exact List.nil_subset _
      · exact subset_occurrences index late
  | call callee arguments, _, _, evaluates => by
      simp only [Evaluates] at evaluates
      obtain ⟨first, rest, ⟨_, early⟩, late, rfl⟩ := evaluates
      refine subset_append (subset_occurrences callee early) ?_
      obtain ⟨-, rfl⟩ | late := late
      · exact List.nil_subset _
      · exact subset_occurrencesAmong arguments late
  | new _ arguments, _, _, evaluates => by
      simp only [Evaluates] at evaluates
      exact subset_occurrencesAmong arguments evaluates
  | anonymousObject fields, _, _, evaluates => by
      simp only [Evaluates] at evaluates
      exact subset_occurrencesInFields fields evaluates
  | binary left operator right, _, truth, evaluates => by
      have both {first rest : List Occurrence} {early late : Bool}
          (front : left.Evaluates first early) (back : right.Evaluates rest late) :
          first ++ rest ⊆ (binary left operator right).occurrences :=
        subset_append (subset_occurrences left front)
          (subset_occurrences right back)
      have leftOnly {first : List Occurrence} {early : Bool}
          (front : left.Evaluates first early) :
          first ⊆ (binary left operator right).occurrences :=
        List.subset_append_of_subset_left _ (subset_occurrences left front)
      cases operator with
      | logicalAnd | logicalOr =>
          simp only [Evaluates] at evaluates
          obtain ⟨-, front⟩ | ⟨first, rest, front, back, rfl⟩ := evaluates
          · exact leftOnly front
          · exact both front back
      | _ =>
          simp only [Evaluates] at evaluates
          obtain ⟨first, rest, ⟨_, front⟩, ⟨_, back⟩, rfl⟩ := evaluates
          exact both front back
  | unary operator operand, _, _, evaluates => by
      cases operator with
      | logicalNot =>
          simp only [Evaluates] at evaluates
          exact subset_occurrences operand evaluates
      | _ =>
          simp only [Evaluates] at evaluates
          obtain ⟨_, inside⟩ := evaluates
          exact subset_occurrences operand inside
  | conditional condition whenTrue whenFalse, _, _, evaluates => by
      simp only [Evaluates] at evaluates
      obtain ⟨first, rest, rfl, ⟨asked, taken⟩ | ⟨asked, taken⟩⟩ := evaluates
      · exact subset_append (subset_occurrences condition asked)
          (List.subset_append_of_subset_left _ (subset_occurrences whenTrue taken))
      · exact subset_append (subset_occurrences condition asked)
          (List.subset_append_of_subset_right _
            (subset_occurrences whenFalse taken))
  | test operand pattern, _, _, evaluates => by
      simp only [Evaluates] at evaluates
      obtain ⟨first, names, ⟨_, inside⟩, ends, rfl⟩ := evaluates
      exact subset_append (subset_occurrences operand inside)
        (List.map_subset _ (Pattern.subset_bound ends))

theorem subset_occurrencesAmong : (exprs : List Expr) →
    {trace : List Occurrence} → EvaluatesAll exprs trace →
      trace ⊆ occurrencesAmong exprs
  | [], _, same => by
      simp only [EvaluatesAll] at same
      exact same ▸ List.Subset.refl _
  | expr :: more, _, evaluates => by
      simp only [EvaluatesAll] at evaluates
      obtain ⟨first, rest, ⟨_, early⟩, late, rfl⟩ := evaluates
      exact subset_append (subset_occurrences expr early)
        (subset_occurrencesAmong more late)

theorem subset_occurrencesInFields : (fields : List (Option String × Expr)) →
    {trace : List Occurrence} → EvaluatesFields fields trace →
      trace ⊆ occurrencesInFields fields
  | [], _, same => by
      simp only [EvaluatesFields] at same
      exact same ▸ List.Subset.refl _
  | (_, value) :: more, _, evaluates => by
      simp only [EvaluatesFields] at evaluates
      obtain ⟨first, rest, ⟨_, early⟩, late, rfl⟩ := evaluates
      exact subset_append (subset_occurrences value early)
        (subset_occurrencesInFields more late)

end

end Expr

/-- An expression in which no capture is read is closed. -/
theorem closed_of_reads {isCapture : String → Prop} {expr : Expr}
    (noCapture : ∀ name, .reads name ∈ expr.occurrences → ¬ isCapture name) :
    Closed isCapture expr := by
  intro trace truth evaluates
  have written := expr.subset_occurrences evaluates
  refine ⟨fun earlier name further same captured => ?_, by simp⟩
  exact absurd captured (noCapture name (written (by simp [same])))

/-- Whether the expressions of a statement read only captures that they bind
before. -/
def Statement.Closed (isCapture : String → Prop) : Statement → Prop
  | .ifHeader condition | .elseIfHeader condition | .whileHeader condition
  | .doWhileTrailer condition => Target.Closed isCapture condition
  | .returnValue value | .localDeclaration _ value =>
      ∀ expr ∈ value, Target.Closed isCapture expr
  | .assignment target value =>
      Target.Closed isCapture target ∧ Target.Closed isCapture value
  | .expression value => Target.Closed isCapture value

end BasicLowering.Target
