import BasicLowering.Proofs.Target.Names

/-!
# Renaming

Names that are read or bound may be exchanged for others throughout an expression.
Names of members, of arguments and of types, and the name of a declared local, stay
what they are.
-/

namespace BasicLowering.Target

/-- Rename what a pattern binds. -/
def Pattern.rename (rename : String → String) : Pattern → Pattern
  | .anything name => .anything (rename name)
  | .notNull name => .notNull (name.map rename)
  | .null => .null
  | .type name => .type name
  | .not inner => .not (inner.rename rename)

namespace Expr

mutual

/-- Rename what an expression reads and binds. -/
def rename (change : String → String) : Expr → Expr
  | identifier text => identifier (change text)
  | this => this
  | base => base
  | null => null
  | boolean value => boolean value
  | number text => number text
  | string value => string value
  | member receiver name => member (rename change receiver) name
  | conditionalMember receiver name =>
      conditionalMember (rename change receiver) name
  | element receiver index => element (rename change receiver) (rename change index)
  | call callee arguments =>
      call (rename change callee) (renameAmong change arguments)
  | namedArgument name value => namedArgument name (rename change value)
  | new typeName arguments => new typeName (renameAmong change arguments)
  | anonymousObject fields => anonymousObject (renameInFields change fields)
  | binary left operator right =>
      binary (rename change left) operator (rename change right)
  | unary operator operand => unary operator (rename change operand)
  | conditional condition whenTrue whenFalse =>
      conditional (rename change condition) (rename change whenTrue)
        (rename change whenFalse)
  | test operand pattern => test (rename change operand) (pattern.rename change)
  | cast typeName operand => cast typeName (rename change operand)

/-- Rename what several expressions read and bind. -/
def renameAmong (change : String → String) : List Expr → List Expr
  | [] => []
  | expr :: rest => rename change expr :: renameAmong change rest

/-- Rename what the values of several fields read and bind. -/
def renameInFields (change : String → String) :
    List (Option String × Expr) → List (Option String × Expr)
  | [] => []
  | (name, value) :: rest =>
      (name, rename change value) :: renameInFields change rest

end

theorem renameAmong_eq_map (change : String → String) (exprs : List Expr) :
    renameAmong change exprs = exprs.map (rename change) := by
  induction exprs with
  | nil => rfl
  | cons expr rest ih => rw [renameAmong, ih, List.map_cons]

theorem renameInFields_eq_map (change : String → String)
    (fields : List (Option String × Expr)) :
    renameInFields change fields =
      fields.map fun field => (field.1, field.2.rename change) := by
  induction fields with
  | nil => rfl
  | cons field rest ih => rw [renameInFields, ih, List.map_cons]

end Expr

/-- Rename what a statement reads and binds. -/
def Statement.rename (change : String → String) : Statement → Statement
  | .ifHeader condition => .ifHeader (condition.rename change)
  | .elseIfHeader condition => .elseIfHeader (condition.rename change)
  | .whileHeader condition => .whileHeader (condition.rename change)
  | .doWhileTrailer condition => .doWhileTrailer (condition.rename change)
  | .returnValue value => .returnValue (value.map (Expr.rename change))
  | .localDeclaration name initializer =>
      .localDeclaration name (initializer.map (Expr.rename change))
  | .assignment target value =>
      .assignment (target.rename change) (value.rename change)
  | .expression value => .expression (value.rename change)

end BasicLowering.Target
