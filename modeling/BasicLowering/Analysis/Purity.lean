import BasicLowering.Binding.Model

/-!
# Purity

Which operands may be evaluated twice, or not at all, without anyone noticing.

The classification looks at the symbol that a node binds to. A node that binds
to a variable counts as a reference to it.
-/

namespace BasicLowering.Analysis

open Source Binding

/-- Whether reading the symbol has no effect and costs little: locals,
parameters, fields, and properties that only read a field. -/
def isVariable (symbol : Symbol) : Bool :=
  symbol.kind == .localVariable || symbol.kind == .field ||
    symbol.kind == .parameter || symbol.isAutoProperty

variable (model : Model) (arena : Arena)

/-- Whether a slot holds a literal. -/
def isLiteral (slot : Slot) : Bool :=
  match arena.form? slot with
  | some (.literal _) => true
  | _ => false

/-- Whether the operand in a slot may be evaluated more than once: literals and
references to variables, in any number of parentheses. -/
def isSafelyReusable (slot : Slot) : Bool :=
  let slot := arena.skipParens slot
  isLiteral arena slot ||
    (model.symbol? (arena.standsFor slot)).any isVariable

/-- Whether an operand is pure, where operators are entered to the given
depth. -/
def isPureWithin : Nat → Slot → Bool
  | depth, slot =>
      let slot := arena.skipParens slot
      isSafelyReusable model arena slot ||
        match depth, arena.form? slot with
        | depth + 1, some (.binary left _ right) =>
            isPureWithin depth left && isPureWithin depth right
        | depth + 1, some (.unary _ operand) => isPureWithin depth operand
        | _, _ => false

/-- Whether an operand is built from safely reusable ones by operators alone. A
nesting without a repetition is no deeper than the arena is long. -/
def isPure (slot : Slot) : Bool :=
  isPureWithin model arena arena.size slot

end BasicLowering.Analysis
