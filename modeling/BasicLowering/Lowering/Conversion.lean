import BasicLowering.Lowering.Binary
import BasicLowering.Lowering.ConversionError
import BasicLowering.Qualification.Expander

/-!
# Conversion

A statement or an expression is walked from the top downward. In each slot the
expander first decides which node is converted; the node is then converted by
its form, and a binary expression is restated once both its operands are
converted. A slot with too many levels above it is given up.

What a conversion has done before it is given up stays done: the nodes it has
added, the names it has issued and the imports it has asked for.
-/

namespace BasicLowering.Lowering

open Source Binding Qualification
open Target (Expr Pattern Statement)

/-- How many levels may stand above a slot that is converted, the slot itself
included. -/
def depthLimit : Nat := 1000

/-- What does not change during a session. -/
structure Setting where
  model : Model
  options : Options := {}
  expander : Expander

/-- What a conversion changes. Each import is listed once, in the order in which
the imports were first asked for. -/
structure Session where
  arena : Arena := {}
  captures : CaptureNames := {}
  imports : List String := []

/-- A step of a conversion. -/
abbrev Conversion := ExceptT ConversionError (StateM Session)

namespace Session

/-- Ask for an import. -/
def addImport (session : Session) (name : String) : Session :=
  if session.imports.contains name then session
  else { session with imports := session.imports ++ [name] }

end Session

namespace Conversion

/-- Run a step that may add nodes. -/
def building {α : Type} (step : Building α) : Conversion α :=
  modifyGet fun session =>
    let (result, arena) := step session.arena
    (result, { session with arena })

/-- Run a step that may issue names. -/
def naming {α : Type} (step : Naming α) : Conversion α :=
  modifyGet fun session =>
    let (result, captures) := step session.captures
    (result, { session with captures })

/-- Ask for an import, if there is one to ask for. -/
def recordImport : Option String → Conversion Unit
  | none => return ()
  | some name => modify (·.addImport name)

/-- The form of the node in a slot. -/
def formOf (slot : Slot) : Conversion Form := do
  match (← get).arena.form? slot with
  | some form => return form
  | none => throw (.missingNode slot)

/-- Give up on a node that is not an expression. -/
def refuse {α : Type} (slot : Slot) (form : Form) : Conversion α := do
  throw (.expectedExpression form.kindName ((← get).arena.position slot))

/-- The text of a name. -/
def nameOf (slot : Slot) : Conversion String := do
  match ← formOf slot with
  | .identifier text => return text
  | form => refuse slot form

end Conversion

/-- The literal that a source literal becomes. -/
def convertLiteral : Literal → Expr
  | .boolean value => .boolean value
  | .number text => .number text
  | .text value => .string value
  | .nothing => .null

/-- The operator that a source operator becomes. `Is` and `IsNot` between two
references compare identity. -/
def convertOperator : BinaryOperator → Target.BinaryOperator
  | .andAlso => .logicalAnd
  | .orElse => .logicalOr
  | .and => .bitAnd
  | .or => .bitOr
  | .xor => .exclusiveOr
  | .equals | .is => .equal
  | .notEquals | .isNot => .notEqual
  | .lessThan => .less
  | .lessThanOrEqual => .lessOrEqual
  | .greaterThan => .greater
  | .greaterThanOrEqual => .greaterOrEqual
  | .add | .concatenate => .add
  | .subtract => .subtract
  | .multiply => .multiply
  | .divide | .integerDivide => .divide
  | .modulo => .modulo

/-- The operator that a unary operator becomes. `Not` on anything but `Boolean`
inverts bits. -/
def convertUnaryOperator (model : Model) (arena : Arena)
    (operator : UnaryOperator) (operand : Slot) : Target.UnaryOperator :=
  match operator with
  | .not =>
      if (model.typeOf (arena.standsFor operand)).own.any
          model.types.isBooleanOrNullable then
        .logicalNot
      else
        .complement
  | .minus => .minus
  | .plus => .plus

/-- A condition as a plain `bool`: a nullable condition that may be null is
compared with `true`. -/
def collapseCondition (model : Model) (arena : Arena) (condition : Slot)
    (lowered : Lowered) : Expr :=
  let isNullableBoolean (type : TypeId) :=
    model.types.isNullable type && model.types.isBooleanOrNullable type
  if (model.typeOf (arena.standsFor condition)).converted.any isNullableBoolean
      && !lowered.notNull then
    lowered.expr.equalsTrue
  else
    lowered.expr

/-- The side of `Is` or `IsNot` that is compared with `Nothing`. -/
def comparedWithNothing? (arena : Arena) (left right : Slot) : Option Slot :=
  if arena.isNothing (arena.skipParens right) then some left
  else if arena.isNothing (arena.skipParens left) then some right
  else none

/-- The test for `Is Nothing` or `IsNot Nothing`. -/
def nothingPattern? : BinaryOperator → Option Pattern
  | .is => some .null
  | .isNot => some (.not .null)
  | _ => none

section

variable (setting : Setting)

/-- What the expander decides about a slot: the node to convert, and whether
names below it are qualified. -/
def settle (path : Path) (slot : Slot) (qualify : Bool) :
    Conversion (Slot × Bool) := do
  if qualify && setting.options.qualifyNames then
    match ← Conversion.building
        (setting.expander.decision setting.model path slot) with
    | .keep => return (slot, true)
    | .skip => return (slot, false)
    | .replace expansion =>
        Conversion.recordImport expansion.staticImport
        return (expansion.node, false)
    | .replaceAndEnter expansion =>
        Conversion.recordImport expansion.staticImport
        return (expansion.node, true)
  else
    return (slot, false)

/-- Convert a binary expression, where `path` leads to it and `child` converts
its operands. -/
def convertBinary (child : Slot → Conversion Lowered) (path : Path)
    (parent : Step) (left : Slot) (operator : BinaryOperator) (right : Slot) :
    Conversion Lowered := do
  let arena := (← get).arena
  match nothingPattern? operator, comparedWithNothing? arena left right with
  | some pattern, some operand =>
      let operand ← child operand
      return .proven (.test operand.expr pattern)
  | _, _ =>
      let loweredLeft ← child left
      let loweredRight ← child right
      let unchanged :=
        Expr.binary loweredLeft.expr (convertOperator operator)
          loweredRight.expr
      if setting.options.lowerNullableLogic && isRestated operator then
        let arena := (← get).arena
        let site : Site := ⟨setting.model, arena, setting.options⟩
        let typeOf (slot : Slot) := setting.model.typeOf (arena.standsFor slot)
        Conversion.naming
          (site.lowerBinary path parent (typeOf left) (typeOf right) unchanged
            loweredLeft loweredRight)
      else
        return .plain unchanged

/-- Convert a field of an anonymous object, where `child` converts its value,
which stands below the field itself. -/
def convertField (child : Step → Slot → Conversion Lowered) (field : Slot) :
    Conversion (Option String × Expr) := do
  match ← Conversion.formOf field with
  | .namedField name value =>
      let value ← child (.unchanged field) value
      let name ← Conversion.nameOf name
      return (some name, value.expr)
  | .inferredField value =>
      let value ← child (.unchanged field) value
      return (none, value.expr)
  | form => Conversion.refuse field form

/-- Convert a node by its form. `child` converts a slot of the node, and
`grandchild` a slot of one of its children. -/
def convertForm (child : Slot → Conversion Lowered)
    (grandchild : Step → Slot → Conversion Lowered) (path : Path)
    (here : Step) : Form → Conversion Lowered
  | .identifier text => return .plain (.identifier text)
  | .literal value => return .plain (convertLiteral value)
  | .selfReference .myBase => return .proven .base
  | .selfReference _ => return .proven .this
  | .parenthesized inner => child inner
  | .memberAccess receiver name kind => do
      let receiver ← child receiver
      let name ← Conversion.nameOf name
      match kind with
      | .simple => return .plain (.member receiver.expr name)
      | .dictionary => return .plain (.element receiver.expr (.string name))
  | .conditionalAccess receiver name => do
      let receiver ← child receiver
      let name ← Conversion.nameOf name
      return .plain (.conditionalMember receiver.expr name)
  | .invocation callee arguments => do
      let callee ← child callee
      let arguments ← arguments.mapM child
      return .plain (.call callee.expr (arguments.map (·.expr)))
  | .namedArgument name value => do
      let value ← child value
      let name ← Conversion.nameOf name
      return .plain (.namedArgument name value.expr)
  | .objectCreation typeName arguments => do
      let arguments ← arguments.mapM child
      return .proven (.new typeName (arguments.map (·.expr)))
  | .anonymousObject initializers => do
      let fields ← initializers.mapM (convertField grandchild)
      return .proven (.anonymousObject fields)
  | .unary operator operand => do
      let lowered ← child operand
      let operator :=
        convertUnaryOperator setting.model (← get).arena operator operand
      return ⟨.unary operator lowered.expr, lowered.notNull⟩
  | .typeTest operand typeName negated => do
      let operand ← child operand
      let pattern : Pattern :=
        if negated then .not (.type typeName) else .type typeName
      return .proven (.test operand.expr pattern)
  | .ternary condition whenTrue whenFalse => do
      let lowered ← child condition
      let test :=
        collapseCondition setting.model (← get).arena condition lowered
      let whenTrue ← child whenTrue
      let whenFalse ← child whenFalse
      return ⟨.conditional test whenTrue.expr whenFalse.expr,
        whenTrue.notNull && whenFalse.notNull⟩
  | .binary left operator right =>
      convertBinary setting child path here left operator right
  | form => Conversion.refuse here.effective form

/-- Convert the node in a slot that has `path` above it, with room for the given
number of levels. -/
def convertSlot : (levels : Nat) → Path → (qualify : Bool) → Slot →
    Conversion Lowered
  | levels, path, qualify, slot => do
      let arena := (← get).arena
      unless arena.holds slot do
        throw (.missingNode slot)
      match levels with
      | 0 => throw (.tooDeep depthLimit (arena.position slot))
      | levels + 1 =>
          let (effective, qualify) ← settle setting path slot qualify
          let form ← Conversion.formOf effective
          let here : Step := ⟨slot, effective⟩
          let child := convertSlot levels (here :: path) qualify
          let grandchild (field : Step) :=
            match levels with
            | 0 => convertSlot 0 (field :: here :: path) qualify
            | levels + 1 => convertSlot levels (field :: here :: path) qualify
          convertForm setting child grandchild path here form

/-- Convert an expression that stands by itself. -/
def convertExpression (expression : Slot) : Conversion Lowered :=
  convertSlot setting depthLimit [] true expression

/-- Convert a statement. -/
def convertStatement (statement : Slot) : Conversion Statement := do
  let child (slot : Slot) : Conversion Lowered :=
    convertSlot setting (depthLimit - 1) [.unchanged statement] true slot
  let optional (slot : Slot) : Conversion (Option Expr) :=
    match slot with
    | none => return none
    | some _ => do
        let lowered ← child slot
        return some lowered.expr
  match ← Conversion.formOf statement with
  | .conditionStatement kind condition =>
      let lowered ← child condition
      let test :=
        collapseCondition setting.model (← get).arena condition lowered
      match kind with
      | .ifBlock | .singleLineIf => return .ifHeader test
      | .elseIf => return .elseIfHeader test
      | .whileLoop => return .whileHeader test
      | .doLoop => return .doWhileTrailer test
  | .returnStatement value =>
      let value ← optional value
      return .returnValue value
  | .localDeclaration name initializer =>
      let initializer ← optional initializer
      return .localDeclaration name initializer
  | .assignment target value =>
      let target ← child target
      let value ← child value
      return .assignment target.expr value.expr
  | .expressionStatement expression =>
      let expression ← child expression
      return .expression expression.expr
  | form =>
      throw (.expectedStatement form.kindName
        ((← get).arena.position statement))

end

end BasicLowering.Lowering
