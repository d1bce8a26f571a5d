import BasicLowering.Analysis.BooleanContext
import BasicLowering.Qualification.Expander
import BasicLowering.Qualification.FullName

/-!
# Qualifying names

The rule that a conversion follows. A reference is qualified once, at the
highest node where the right qualification is known: `b.c` becomes `a.b.c`, and
neither `b` nor `c` is then looked at alone.

A bare member name of an instance takes, in this order, `Me` where the enclosing
type inherits the member, the receiver that the front end found for it, or `Me`
where the name is an extension of the enclosing type. All other names are
written out in full, save where a full name would be wrong: generic methods and
members of anonymous objects.

Eager logical operators in a condition become short-circuiting ones where no one
can notice.
-/

namespace BasicLowering.Qualification

open Source Binding Analysis

/-! ## Which nodes are expanded -/

section

variable (arena : Arena)

/-- Member access on `Me`, `MyBase`, `MyClass` or a newly made object. -/
def hasInstanceReceiver (slot : Slot) : Bool :=
  match arena.form? slot with
  | some (.memberAccess receiver _ _) =>
      match arena.form? receiver with
      | some (.selfReference _) | some (.objectCreation _ _) => true
      | _ => false
  | _ => false

/-- Whether a slot is where an access chain begins: `a` in `a.b.c` and in
`a?.b`, and everything that is in no chain. -/
def isLeftmostQualifier (path : Path) (slot : Slot) : Bool :=
  match path.head?.bind fun parent => arena.form? parent.effective with
  | some (.memberAccess receiver _ _)
  | some (.conditionalAccess receiver _) => receiver == slot
  | _ => true

/-- Whether a slot holds a bare name where a qualified one may stand. The name
of an argument or of a field cannot be qualified, and qualifying the value that
an inferred field is named after would change the field. -/
def isExpandableName (path : Path) (slot : Slot) : Bool :=
  arena.isSimpleName slot &&
    match path.head?.bind fun parent => arena.form? parent.effective with
    | some (.namedArgument name _) | some (.namedField name _) => name != slot
    | some (.inferredField _) => false
    | _ => true

/-- Whether a slot holds an eager `And` or `Or`. -/
def isEagerLogical (slot : Slot) : Bool :=
  match arena.binary? slot with
  | some (_, operator, _) => operator.isEager
  | none => false

end

variable (model : Model)

/-- The named type of whose instance a bare reference speaks implicitly. -/
def implicitInstance? (arena : Arena) (path : Path) (slot : Slot)
    (symbol : Symbol) : Option TypeId :=
  if symbol.isInstanceMember && isLeftmostQualifier arena path slot then
    model.enclosingNamedType? (arena.position slot)
  else
    none

/-- Whether the type of the receiver does not declare the member, so that the
front end has moved the access to another instance. -/
def isPromoted (arena : Arena) (slot : Slot) (symbol : Symbol) : Bool :=
  symbol.isInstanceMember &&
    match arena.form? slot with
    | some (.memberAccess none _ _) => false
    | some (.memberAccess receiver _ _) =>
        match (model.typeOf (arena.standsFor receiver)).own with
        | none => true
        | some type => !model.types.containsMember type symbol.name
    | _ => false

/-- Whether a slot holds a member access that is qualified as a whole. -/
def isExpandableAccess (arena : Arena) (slot : Slot) : Bool :=
  match arena.form? slot with
  | some (.memberAccess _ _ .simple) =>
      !hasInstanceReceiver arena slot &&
        (model.symbol? (arena.standsFor slot)).any fun symbol =>
          symbol.isStatic || isPromoted model arena slot symbol
  | _ => false

/-- Whether a member access has a receiver of an anonymous type. -/
def isAnonymousAccess (arena : Arena) (slot : Slot) : Bool :=
  match arena.form? slot with
  | some (.memberAccess receiver _ _) =>
      (model.typeOf (arena.standsFor receiver)).own.any model.types.isAnonymous
  | _ => false

/-- Whether a node is expanded. -/
def expandsNode (arena : Arena) (path : Path) (slot : Slot) : Bool :=
  isExpandableName arena path slot || isExpandableAccess model arena slot ||
    isEagerLogical arena slot

/-- Whether a node is kept, but the nodes below it are to be asked about. -/
def expandsWithin (arena : Arena) (path : Path) (slot : Slot) : Bool :=
  !expandsNode model arena path slot && !hasInstanceReceiver arena slot

/-! ## What stands in their place -/

/-- Whether an operand is converted to `Boolean`. -/
def isBooleanOperand (arena : Arena) (operand : Slot) : Bool :=
  (model.typeOf (arena.standsFor operand)).converted.any model.types.isBoolean

/-- Put the short-circuiting operator in place of an eager one, over the same
operands, if the operands are `Boolean`, the right one is pure and the
expression is part of a condition. -/
def shortCircuit? (path : Path) (slot : Slot) : Building (Option Slot) := do
  let arena ← get
  match arena.binary? slot with
  | none => return none
  | some (left, operator, right) =>
      match operator.shortCircuitForm? with
      | none => return none
      | some shortCircuit =>
          if isPure model arena right && isBooleanOperand model arena left &&
              isBooleanOperand model arena right &&
              withinCondition arena path slot then
            let changed ←
              Building.synthesize slot (.binary left shortCircuit right)
            return some (some changed)
          else
            return none

/-- The receiver that the front end has attached to a reference, and the
member. -/
def attachedReceiver? (arena : Arena) (slot : Slot) :
    Option (Slot × SymbolId) :=
  match model.operation? (arena.standsFor slot) with
  | some (.memberReference (some receiver) member) => some (receiver, member)
  | _ => none

/-- Give a bare name its implicit receiver, where `enclosing` is the type of
whose instance it speaks. -/
def throughImplicitInstance? (slot : Slot) (symbol : Symbol)
    (enclosing : TypeId) : Building (Option Slot) := do
  let arena ← get
  let inherits (type : TypeId) :=
    model.types.inheritsFromOrEquals enclosing type
  if symbol.containingType.any inherits then
    let access ← accessThroughMe slot
    return some access
  else
    match attachedReceiver? model arena slot with
    | some (receiver, _) => do
        let receiver ← Building.withPrependedTrivia receiver (arena.trivia slot)
        let access ← accessThrough receiver slot
        return some access
    | none =>
        if symbol.isReducedExtension && symbol.receiverType.any inherits then
          let access ← accessThroughMe slot
          return some access
        else
          return none

/-- Move a promoted access to the receiver that the front end has attached. -/
def throughAttachedReceiver? (slot : Slot) (symbol : Symbol) :
    Building (Option Slot) := do
  let arena ← get
  if isPromoted model arena slot symbol then
    match attachedReceiver? model arena slot with
    | none => return none
    | some (receiver, member) =>
        match model.symbols.symbol? member with
        | none => return none
        | some member => do
            let name ← Building.identifier member.name
            let access ←
              Building.synthesize slot (.memberAccess receiver name .simple)
            return some access
  else
    return none

/-- The import that a bare reference to a member of a module asks for. -/
def staticImport? (arena : Arena) (slot : Slot) (symbol : Symbol) :
    Option String :=
  if arena.isSimpleName slot && model.isModuleMember symbol then
    symbol.containingSymbol.map model.symbols.qualifiedName
  else
    none

/-- Write out a reference in full, unless a full name would be wrong. -/
def throughFullName (slot : Slot) (symbol : Option Symbol) :
    Building Expansion := do
  let arena ← get
  let node ←
    if symbol.any Symbol.isGenericMethod || isAnonymousAccess model arena slot
    then pure slot
    else fullNames model slot
  return ⟨node, symbol.bind (staticImport? model arena slot)⟩

/-- Expand a reference to a known symbol. -/
def expandReference (path : Path) (slot : Slot) (symbol : Symbol) :
    Building Expansion := do
  let arena ← get
  let implicit ←
    if arena.isSimpleName slot then
      match implicitInstance? model arena path slot symbol with
      | some enclosing => throughImplicitInstance? model slot symbol enclosing
      | none => pure none
    else
      pure none
  match implicit with
  | some access => return ⟨access, none⟩
  | none =>
      match ← throughAttachedReceiver? model slot symbol with
      | some access => return ⟨access, none⟩
      | none => throughFullName model slot (some symbol)

/-- Expand a node. -/
def expand (path : Path) (slot : Slot) : Building Expansion := do
  let arena ← get
  if isEagerLogical arena slot then
    let changed ← shortCircuit? model path slot
    return ⟨changed.getD slot, none⟩
  else
    match model.symbol? (arena.standsFor slot) with
    | some symbol => expandReference model path slot symbol
    | none => throughFullName model slot none

/-- The rule with the default decision: whatever is expanded is final. -/
def finalNames : Expander where
  expandsNode := expandsNode
  expandsWithin := expandsWithin
  expand := expand

/-- The rule that a conversion follows. The operands of an eager operator are
asked about like any other node. -/
def names : Expander where
  expandsNode := expandsNode
  expandsWithin := expandsWithin
  expand := expand
  decision := fun model path slot => do
    if isEagerLogical (← get) slot then
      match ← shortCircuit? model path slot with
      | some changed => return .replaceAndEnter ⟨changed, none⟩
      | none => return .keep
    else
      finalNames.decision model path slot

end BasicLowering.Qualification
