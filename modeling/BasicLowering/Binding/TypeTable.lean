import BasicLowering.Text.CaseFolding

/-!
# The type table

Types are entries of one growing table and are referred to by position. A base
type may be unknown, may be added later, and may lead back to the type itself:
the walks along base types look at no more types than the table has entries and
one more, so they end on every table.
-/

namespace BasicLowering.Binding

/-- The position of a type in its table. -/
structure TypeId where
  index : Nat
  deriving DecidableEq

namespace TypeId

def boolean : TypeId := ⟨0⟩
def integer : TypeId := ⟨1⟩
def string : TypeId := ⟨2⟩
def object : TypeId := ⟨3⟩
/-- `Boolean?` -/
def nullableBoolean : TypeId := ⟨4⟩
/-- `Integer?` -/
def nullableInteger : TypeId := ⟨5⟩

end TypeId

/-- What a type is. Every member of a module is shared; anonymous types belong
to anonymous objects. -/
inductive TypeKind where
  | boolean | numeric | string | object
  | classType | structureType | interfaceType | moduleType | anonymous
  | delegate
  | nullable (underlying : TypeId)
  deriving DecidableEq

/-- An entry of the table. Only the members that the type itself declares are
listed. -/
structure TypeEntry where
  name : String
  kind : TypeKind
  base : Option TypeId := none
  members : List String := []

/-- Whether the type itself declares a member, whatever the case of its
name. -/
def TypeEntry.declares (entry : TypeEntry) (member : String) : Bool :=
  entry.members.any fun declared => Text.sameName declared member

/-- The types, and the nullable type that has been made for each type. -/
structure TypeTable where
  entries : Array TypeEntry
  nullables : List (TypeId × TypeId)

namespace TypeTable

/-- The table that holds the primitive types. -/
def standard : TypeTable where
  entries := #[
    { name := "Boolean", kind := .boolean },
    { name := "Integer", kind := .numeric },
    { name := "String", kind := .string },
    { name := "Object", kind := .object },
    { name := "Boolean?", kind := .nullable .boolean },
    { name := "Integer?", kind := .nullable .integer }]
  nullables :=
    [(.integer, .nullableInteger), (.boolean, .nullableBoolean)]

variable (table : TypeTable)

/-- The number of types. -/
def size : Nat := table.entries.size

/-- The entry of a type. -/
def find? (type : TypeId) : Option TypeEntry :=
  table.entries[type.index]?

/-- Add a type as given. -/
def addEntry (entry : TypeEntry) : TypeId × TypeTable :=
  (⟨table.size⟩, { table with entries := table.entries.push entry })

@[simp] theorem size_addEntry (entry : TypeEntry) :
    (table.addEntry entry).2.size = table.size + 1 := by
  simp [addEntry, size]

/-- The added type is found at the next position, and every other type is what
it was before. -/
theorem find?_addEntry (entry : TypeEntry) (type : TypeId) :
    (table.addEntry entry).2.find? type =
      if type = (table.addEntry entry).1 then some entry
      else table.find? type := by
  cases type
  simp [find?, addEntry, size, Array.getElem?_push]

/-- Add a type without a base type and without members. -/
def add (name : String) (kind : TypeKind) : TypeId × TypeTable :=
  table.addEntry { name, kind }

/-- Add a class with a base type and members. -/
def addClass (name : String) (base : Option TypeId) (members : List String) :
    TypeId × TypeTable :=
  table.addEntry { name, kind := .classType, base, members }

/-- Add a member to a type. -/
def addMember (type : TypeId) (member : String) : TypeTable :=
  { table with
    entries := table.entries.modify type.index fun entry =>
      { entry with members := entry.members ++ [member] } }

/-- The name of a type. -/
def name (type : TypeId) : String :=
  match table.find? type with
  | some entry => entry.name
  | none => "<unknown>"

/-- What a type is. -/
def kind? (type : TypeId) : Option TypeKind :=
  (table.find? type).map (·.kind)

/-- The nullable type over a type. Each type has one, made when it is first
asked for. -/
def nullable (underlying : TypeId) : TypeId × TypeTable :=
  match table.nullables.lookup underlying with
  | some type => (type, table)
  | none =>
      let (type, table) :=
        table.add (table.name underlying ++ "?") (.nullable underlying)
      (type, { table with nullables := (underlying, type) :: table.nullables })

/-- The type below a nullable type, or the type itself. -/
def underlying (type : TypeId) : TypeId :=
  match table.kind? type with
  | some (.nullable inner) => inner
  | _ => type

def isNullable (type : TypeId) : Bool :=
  match table.kind? type with
  | some (.nullable _) => true
  | _ => false

/-- Exactly `Boolean`; the nullable type over it is not a Boolean type. -/
def isBoolean (type : TypeId) : Bool :=
  table.kind? type == some .boolean

/-- `Boolean` or a nullable type over it. -/
def isBooleanOrNullable (type : TypeId) : Bool :=
  table.isBoolean (table.underlying type)

def isModule (type : TypeId) : Bool :=
  table.kind? type == some .moduleType

def isAnonymous (type : TypeId) : Bool :=
  table.kind? type == some .anonymous

/-- The base type of a type. -/
def base? (type : TypeId) : Option TypeId :=
  (table.find? type).bind (·.base)

/-- Whether `base` is found from `type` by at most the given number of steps to
a base type. -/
def inheritsWithin (base : TypeId) : Nat → TypeId → Bool
  | 0, type => type == base
  | steps + 1, type =>
      type == base ||
        match table.base? type with
        | some next => inheritsWithin base steps next
        | none => false

/-- Whether `derived` is `base` or has it somewhere up its base types. -/
def inheritsFromOrEquals (derived base : TypeId) : Bool :=
  table.inheritsWithin base table.size derived

/-- Whether a member is found from `type` by at most the given number of steps
to a base type. -/
def containsWithin (member : String) : Nat → TypeId → Bool
  | steps, type =>
      match table.find? type with
      | none => false
      | some entry =>
          entry.declares member ||
            match steps, entry.base with
            | steps + 1, some next => containsWithin member steps next
            | _, _ => false

/-- Whether a type or one of its base types declares a member, whatever the
case of its name. -/
def containsMember (type : TypeId) (member : String) : Bool :=
  table.containsWithin member table.size type

end TypeTable

end BasicLowering.Binding
