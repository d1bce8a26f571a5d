import BasicLowering.Binding.SymbolTable
import BasicLowering.Source.Arena
import Std.Data.TreeMap

/-!
# The semantic model

What a front end knows about the nodes of a tree: the symbol a node binds to,
its type before and after implicit conversions, the operation behind it, and
which declarations cover which ranges of the text.

The model answers for parsed nodes. Whoever asks about a replacement asks about
the node it stands for.
-/

namespace BasicLowering.Binding

open Source (Slot Span)

/-- The type of an expression by itself, and after implicit conversion. -/
structure ExprType where
  own : Option TypeId := none
  converted : Option TypeId := none
  deriving DecidableEq

/-- The type of an expression that is not converted. -/
def ExprType.unconverted (type : TypeId) : ExprType :=
  ⟨some type, some type⟩

/-- The operation behind a node, as far as it matters. -/
inductive Operation where
  /-- A reference to a member. The receiver, where the front end has attached
  one, may stand outside the reference, as the target of a `With` block does. -/
  | memberReference (receiver : Option Slot) (member : SymbolId)
  | other
  deriving DecidableEq

/-- The body of a declaration. -/
structure Scope where
  span : Span
  symbol : SymbolId

/-- The number of characters of a body. -/
def Scope.length (scope : Scope) : UInt32 :=
  scope.span.stop - scope.span.start

/-- The first of the shortest scopes of a list. -/
def Scope.shortest? : List Scope → Option Scope
  | [] => none
  | scope :: rest =>
      match shortest? rest with
      | none => some scope
      | some other =>
          if other.length < scope.length then some other else some scope

/-- What the front end knows. Scopes are listed latest first. -/
structure Model where
  types : TypeTable := .standard
  symbols : SymbolTable := {}
  nodeSymbols : Std.TreeMap Slot SymbolId := ∅
  nodeTypes : Std.TreeMap Slot ExprType := ∅
  operations : Std.TreeMap Slot Operation := ∅
  scopes : List Scope := []

namespace Model

variable (model : Model)

/-- Let a node bind to a symbol. -/
def bindSymbol (slot : Slot) (symbol : SymbolId) : Model :=
  { model with nodeSymbols := model.nodeSymbols.insert slot symbol }

/-- Give a node its types. -/
def setType (slot : Slot) (type : ExprType) : Model :=
  { model with nodeTypes := model.nodeTypes.insert slot type }

/-- Give a node its operation. -/
def setOperation (slot : Slot) (operation : Operation) : Model :=
  { model with operations := model.operations.insert slot operation }

/-- Register the body of a declaration. -/
def addScope (span : Span) (symbol : SymbolId) : Model :=
  { model with scopes := ⟨span, symbol⟩ :: model.scopes }

/-- The symbol that a node binds to. -/
def symbol? (slot : Slot) : Option Symbol :=
  (model.nodeSymbols[slot]?).bind model.symbols.symbol?

/-- The types of a node. -/
def typeOf (slot : Slot) : ExprType :=
  (model.nodeTypes[slot]?).getD {}

/-- The operation behind a node. -/
def operation? (slot : Slot) : Option Operation :=
  model.operations[slot]?

/-- Binding a node changes the symbol of that node alone. -/
theorem symbol?_bindSymbol (target slot : Slot) (symbol : SymbolId) :
    (model.bindSymbol target symbol).symbol? slot =
      if target = slot then model.symbols.symbol? symbol
      else model.symbol? slot := by
  simp only [symbol?, bindSymbol, Std.TreeMap.getElem?_insert]
  split <;> simp_all

/-- Giving a node its types changes the types of that node alone. -/
theorem typeOf_setType (target slot : Slot) (type : ExprType) :
    (model.setType target type).typeOf slot =
      if target = slot then type else model.typeOf slot := by
  simp only [typeOf, setType, Std.TreeMap.getElem?_insert]
  split <;> simp_all

/-- Giving a node its operation changes the operation of that node alone. -/
theorem operation?_setOperation (target slot : Slot) (operation : Operation) :
    (model.setOperation target operation).operation? slot =
      if target = slot then some operation else model.operation? slot := by
  simp only [operation?, setOperation, Std.TreeMap.getElem?_insert]
  split <;> simp_all

/-- The declaration whose body is the innermost around a position: the shortest
one, and of equally short ones the one registered last. -/
def enclosingSymbol? (position : UInt32) : Option SymbolId :=
  (Scope.shortest? (model.scopes.filter (·.span.contains position))).map
    (·.symbol)

/-- The type declared by the innermost named type around a position. -/
def enclosingNamedType? (position : UInt32) : Option TypeId := do
  let start ← model.enclosingSymbol? position
  let declaration ←
    (model.symbols.containers start).find? (·.kind == .namedType)
  declaration.declaredType

/-- Whether a symbol is declared directly in a module. -/
def isModuleMember (symbol : Symbol) : Bool :=
  symbol.containingType.any model.types.isModule

end Model

end BasicLowering.Binding
