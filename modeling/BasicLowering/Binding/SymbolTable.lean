import BasicLowering.Binding.TypeTable
import BasicLowering.Text.Dotted

/-!
# The symbol table

Declarations are entries of one growing table and are referred to by position.
Each may be contained in another. The containing declaration may be changed
later, so the links may lead in a circle or to a position without an entry: the
walk along them lists no more symbols than the table has entries and one more.
-/

namespace BasicLowering.Binding

/-- The position of a symbol in its table. -/
structure SymbolId where
  index : Nat
  deriving DecidableEq

/-- What a symbol declares. -/
inductive SymbolKind where
  | method | field | property | localVariable | parameter | namedType
  | namespaceName
  deriving DecidableEq

/-- Marks on a symbol. -/
structure SymbolFlags where
  /-- A shared member, or any member of a module. -/
  isStatic : Bool := false
  /-- An extension method seen through its receiver. -/
  isReducedExtension : Bool := false
  /-- A property with a field behind it that the compiler made. -/
  isAuto : Bool := false
  isGeneric : Bool := false
  deriving DecidableEq

/-- The marks as a bit set, the first mark lowest. -/
def SymbolFlags.bits (flags : SymbolFlags) : Nat :=
  flags.isStatic.toNat + 2 * flags.isReducedExtension.toNat +
    4 * flags.isAuto.toNat + 8 * flags.isGeneric.toNat

/-- A declaration. -/
structure Symbol where
  id : SymbolId
  name : String
  kind : SymbolKind
  flags : SymbolFlags := {}
  containingSymbol : Option SymbolId := none
  /-- The type that declares this member. -/
  containingType : Option TypeId := none
  /-- The type that a reduced extension method extends. -/
  receiverType : Option TypeId := none
  /-- The type that a named type declares. -/
  declaredType : Option TypeId := none

namespace Symbol

variable (symbol : Symbol)

def isStatic : Bool := symbol.flags.isStatic

def isReducedExtension : Bool := symbol.flags.isReducedExtension

/-- A property whose getter only reads a field. -/
def isAutoProperty : Bool :=
  symbol.kind == .property && symbol.flags.isAuto

def isGenericMethod : Bool :=
  symbol.kind == .method && symbol.flags.isGeneric

/-- Methods, fields and properties. -/
def isMember : Bool :=
  symbol.kind == .method || symbol.kind == .field || symbol.kind == .property

/-- A member that needs an instance, so that a reference to it may have an
implicit receiver. -/
def isInstanceMember : Bool :=
  !symbol.isStatic && symbol.isMember

end Symbol

/-- The declarations. -/
structure SymbolTable where
  symbols : Array Symbol := #[]

namespace SymbolTable

variable (table : SymbolTable)

/-- The number of symbols. -/
def size : Nat := table.symbols.size

/-- The symbol at a position. -/
def symbol? (id : SymbolId) : Option Symbol :=
  table.symbols[id.index]?

/-- Add a symbol. A member belongs to the type that its container declares at
this time. -/
def add (name : String) (kind : SymbolKind) (flags : SymbolFlags)
    (containingSymbol : Option SymbolId) : SymbolId × SymbolTable :=
  let id : SymbolId := ⟨table.size⟩
  let containingType :=
    (containingSymbol.bind table.symbol?).bind (·.declaredType)
  (id,
    { symbols := table.symbols.push
        { id, name, kind, flags, containingSymbol, containingType } })

/-- Change a symbol, if there is one at the position. -/
def modify (id : SymbolId) (change : Symbol → Symbol) : SymbolTable :=
  { symbols := table.symbols.modify id.index change }

@[simp] theorem size_add (name : String) (kind : SymbolKind)
    (flags : SymbolFlags) (containingSymbol : Option SymbolId) :
    (table.add name kind flags containingSymbol).2.size = table.size + 1 := by
  simp [add, size]

@[simp] theorem size_modify (id : SymbolId) (change : Symbol → Symbol) :
    (table.modify id change).size = table.size := by
  simp [modify, size]

/-- Only the symbol at the given position changes. -/
theorem symbol?_modify (target id : SymbolId) (change : Symbol → Symbol) :
    (table.modify target change).symbol? id =
      if target = id then (table.symbol? id).map change
      else table.symbol? id := by
  cases target
  cases id
  simp [symbol?, modify, Array.getElem?_modify]

/-- Add a named type that declares the given type. -/
def addType (name : String) (declared : TypeId)
    (containingSymbol : Option SymbolId) : SymbolId × SymbolTable :=
  let (id, table) := table.add name .namedType {} containingSymbol
  (id, table.modify id fun symbol =>
    { symbol with declaredType := some declared })

/-- The first symbols met from `id` outward, at most as many as given. -/
def containersWithin : Nat → SymbolId → List Symbol
  | 0, _ => []
  | count + 1, id =>
      match table.symbol? id with
      | none => []
      | some symbol =>
          symbol ::
            match symbol.containingSymbol with
            | some container => containersWithin count container
            | none => []

/-- The symbol at `id`, the one that contains it, and so on outward. -/
def containers (id : SymbolId) : List Symbol :=
  table.containersWithin (table.size + 1) id

/-- The names from the outermost container down to `id`, with dots between.
Containers without a name, such as the global namespace, are left out. -/
def qualifiedName (id : SymbolId) : String :=
  let names := (table.containers id).map (·.name)
  Text.Dotted.join (names.filter (· ≠ "")).reverse

end SymbolTable

end BasicLowering.Binding
