import BasicLowering.Binding.Model
import BasicLowering.Source.Builder

/-!
# Full names

Every name of an expression is written out so that it means the same in any
scope: shared and module members get the name of their container, types and
namespaces get the namespace around them, and instance members get `Me`. A node
below which nothing changes is returned as it is; otherwise a copy with the new
operands takes its place.
-/

namespace BasicLowering.Qualification

open Source Binding

/-- Put a member access in place of a name. The name follows the receiver
without its trivia. -/
def accessThrough (receiver slot : Slot) : Building Slot := do
  let name ← Building.withoutTrivia slot
  let access ← Building.synthesize slot (.memberAccess receiver name .simple)
  return some access

/-- Put an access on `Me` in place of a name, which leaves its trivia before
`Me`. -/
def accessThroughMe (slot : Slot) : Building Slot := do
  let trivia := (← get).trivia slot
  let self ← Building.selfReference .me
  Building.setTrivia self trivia
  accessThrough self slot

/-- A chain of member accesses that spells the given parts, with trivia before
the first. -/
def nameChain (trivia : String) (parts : List String) : Building Slot := do
  let first ← Building.identifier (parts.headD "")
  Building.setTrivia first trivia
  let last ← parts.tail.foldlM (fun chain part =>
    Building.memberAccess (some chain) part) first
  return some last

/-- Whether a reference to a symbol is written through its container. -/
def needsContainer (symbol : Symbol) : Bool :=
  symbol.isStatic || symbol.kind == .namedType || symbol.kind == .namespaceName

/-- Write out a bare name. -/
def fullNameOf (model : Model) (slot : Slot) : Building Slot := do
  let arena ← get
  match model.symbol? (arena.standsFor slot) with
  | none => return slot
  | some symbol =>
      if needsContainer symbol then
        match symbol.containingSymbol with
        | none => return slot
        | some container =>
            let qualifier := model.symbols.qualifiedName container
            if qualifier = "" then
              return slot
            else
              let receiver ←
                nameChain (arena.trivia slot) (Text.Dotted.split qualifier)
              accessThrough receiver slot
      else if symbol.isInstanceMember && symbol.containingType.isSome then
        accessThroughMe slot
      else
        return slot

/-- Apply a computation to the operands of a form, in source order. Names of
members and of arguments are not operands. -/
def mapOperands (operand : Slot → Building Slot) : Form → Building Form
  | .memberAccess receiver name kind => do
      let receiver ← operand receiver
      return .memberAccess receiver name kind
  | .conditionalAccess receiver name => do
      let receiver ← operand receiver
      return .conditionalAccess receiver name
  | .invocation callee arguments => do
      let callee ← operand callee
      let arguments ← arguments.mapM operand
      return .invocation callee arguments
  | .namedArgument name value => do
      let value ← operand value
      return .namedArgument name value
  | .binary left operator right => do
      let left ← operand left
      let right ← operand right
      return .binary left operator right
  | .unary operator inner => do
      let inner ← operand inner
      return .unary operator inner
  | .parenthesized inner => do
      let inner ← operand inner
      return .parenthesized inner
  | .ternary condition whenTrue whenFalse => do
      let condition ← operand condition
      let whenTrue ← operand whenTrue
      let whenFalse ← operand whenFalse
      return .ternary condition whenTrue whenFalse
  | form => return form

/-- Write out the names of an expression, to the given depth. -/
def fullNamesWithin (model : Model) : Nat → Slot → Building Slot
  | 0, slot => return slot
  | depth + 1, slot => do
      match (← get).form? slot with
      | none => return slot
      | some (.identifier _) => fullNameOf model slot
      | some form =>
          let expanded ← mapOperands (fullNamesWithin model depth) form
          if expanded = form then
            return slot
          else
            let copy ← Building.synthesize slot expanded
            return some copy

/-- More nodes than one expansion adds. -/
def growthLimit : Nat := 4294967296

/-- Write out every name of an expression. A nesting without a repetition is no
deeper than the arena is long, with what the expansion itself adds. -/
def fullNames (model : Model) (slot : Slot) : Building Slot := do
  fullNamesWithin model ((← get).size + growthLimit) slot

end BasicLowering.Qualification
