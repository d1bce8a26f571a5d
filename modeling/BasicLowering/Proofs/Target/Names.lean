import BasicLowering.Target.Expr

/-!
# Names in expressions

An expression reads a name where the name stands as an operand, and binds one
where a pattern names what it matches. Names of members, of arguments and of types
are neither.
-/

namespace BasicLowering.Target

/-- A place at which a name is read or bound. -/
inductive Occurrence where
  | reads (name : String)
  | binds (name : String)
  deriving DecidableEq

/-- The names that are bound at some places. -/
def boundAt (places : List Occurrence) : List String :=
  places.filterMap fun
    | .binds name => some name
    | .reads _ => none

@[simp] theorem boundAt_append (first second : List Occurrence) :
    boundAt (first ++ second) = boundAt first ++ boundAt second :=
  List.filterMap_append

@[simp] theorem boundAt_binds (names : List String) :
    boundAt (names.map .binds) = names := by
  rw [boundAt, List.filterMap_map]
  exact List.filterMap_some

theorem count_boundAt (places : List Occurrence) (name : String) :
    (boundAt places).count name = places.count (.binds name) := by
  induction places with
  | nil => rfl
  | cons place rest ih =>
      cases place with
      | reads other => simpa [boundAt] using ih
      | binds other =>
          rw [List.count_cons, ← ih]
          simp [boundAt, List.count_cons]

/-- The names that a pattern binds. -/
def Pattern.bound : Pattern → List String
  | .anything name => [name]
  | .notNull name => name.toList
  | .null | .type _ => []
  | .not inner => inner.bound

namespace Expr

mutual

/-- The places of an expression at which names are read or bound, in the order in
which they are written. -/
def occurrences : Expr → List Occurrence
  | identifier text => [.reads text]
  | this | base | null | boolean _ | number _ | string _ => []
  | member receiver _ | conditionalMember receiver _ => occurrences receiver
  | element receiver index => occurrences receiver ++ occurrences index
  | call callee arguments => occurrences callee ++ occurrencesAmong arguments
  | namedArgument _ value => occurrences value
  | new _ arguments => occurrencesAmong arguments
  | anonymousObject fields => occurrencesInFields fields
  | binary left _ right => occurrences left ++ occurrences right
  | unary _ operand => occurrences operand
  | conditional condition whenTrue whenFalse =>
      occurrences condition ++ (occurrences whenTrue ++ occurrences whenFalse)
  | test operand pattern => occurrences operand ++ pattern.bound.map .binds
  | cast _ operand => occurrences operand

/-- The places of several expressions. -/
def occurrencesAmong : List Expr → List Occurrence
  | [] => []
  | expr :: rest => occurrences expr ++ occurrencesAmong rest

/-- The places of the values of several fields. -/
def occurrencesInFields : List (Option String × Expr) → List Occurrence
  | [] => []
  | (_, value) :: rest => occurrences value ++ occurrencesInFields rest

end

section

variable (left right operand : Expr)

@[simp] theorem occurrences_and :
    (left.and right).occurrences = left.occurrences ++ right.occurrences :=
  rfl

@[simp] theorem occurrences_or :
    (left.or right).occurrences = left.occurrences ++ right.occurrences :=
  rfl

@[simp] theorem occurrences_hasValue :
    operand.hasValue.occurrences = operand.occurrences :=
  rfl

@[simp] theorem occurrences_hasNoValue :
    operand.hasNoValue.occurrences = operand.occurrences :=
  rfl

@[simp] theorem occurrences_getValue :
    operand.getValue.occurrences = operand.occurrences :=
  rfl

@[simp] theorem occurrences_equalsTrue :
    operand.equalsTrue.occurrences = operand.occurrences :=
  List.append_nil _

@[simp] theorem occurrences_equalsFalse :
    operand.equalsFalse.occurrences = operand.occurrences :=
  List.append_nil _

end

end Expr

/-- The places of a statement at which names are read or bound. The name of a
declared local is neither. -/
def Statement.occurrences : Statement → List Occurrence
  | .ifHeader condition | .elseIfHeader condition | .whileHeader condition
  | .doWhileTrailer condition => condition.occurrences
  | .returnValue value | .localDeclaration _ value =>
      value.elim [] Expr.occurrences
  | .assignment target value => target.occurrences ++ value.occurrences
  | .expression value => value.occurrences

end BasicLowering.Target
