import BasicLowering.Target.Expr

/-!
# Captures

An operand that must not be evaluated twice is bound to a name by a pattern, and
the name is used from then on. Names are a stem and a number. The numbers of one
session count upward, so no two captures of a session have the same name until
the 32-bit count starts over.
-/

namespace BasicLowering.Lowering

open Target (Expr)

/-- The names of a session: what they begin with, and how many there are. -/
structure CaptureNames where
  stem : String := "arg"
  issued : UInt32 := 0

/-- The name with the given number. -/
def CaptureNames.name (names : CaptureNames) (number : UInt32) : String :=
  names.stem ++ toString number.toNat

/-- A computation that may issue names. -/
abbrev Naming := StateM CaptureNames

/-- Issue the next name. -/
def freshName : Naming String :=
  fun names =>
    let number := names.issued + 1
    (names.name number, { names with issued := number })

/-- Issue several names. -/
def freshNames : Nat → Naming (List String)
  | 0 => return []
  | count + 1 => do
      let name ← freshName
      let rest ← freshNames count
      return name :: rest

/-- A test that binds the value of an expression, and the expression to use for
the value once the test has run. -/
structure Capture where
  test : Expr
  value : Expr

/-- `operand is var name`, which always holds. -/
def captureAny (operand : Expr) : Naming Capture := do
  let name ← freshName
  return ⟨.test operand (.anything name), .identifier name⟩

/-- `operand is { } name`, which holds unless the operand is null. -/
def captureValue (operand : Expr) : Naming Capture := do
  let name ← freshName
  return ⟨.test operand (.notNull name), .identifier name⟩

/-- `operand is not { } name`, which holds when the operand is null and binds
its value otherwise. -/
def captureUnlessNull (operand : Expr) : Naming Capture := do
  let name ← freshName
  return ⟨.test operand (.not (.notNull name)), .identifier name⟩

/-- `operand is { } name ? (castType)conversion(name) : null`, which calls a
conversion only when there is a value to convert. -/
def convertUnlessNull (operand conversion : Expr) (castType : String) :
    Naming Expr := do
  let captured ← captureValue operand
  return .conditional captured.test
    (.cast castType (.call conversion [captured.value])) .null

end BasicLowering.Lowering
