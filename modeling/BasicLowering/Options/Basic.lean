/-!
# Options

What a host may choose about the conversion. Every option has a default.
-/

namespace BasicLowering

/-- The options of a conversion. -/
structure Options where
  /-- What the names of captures begin with. -/
  capturePrefix : String := "arg"
  /-- Write `(bool?)null`, `(bool?)true` and `(bool?)false` in the arms of a
  conditional, and not the bare literals. -/
  explicitNullableCasts : Bool := true
  /-- Qualify names. -/
  qualifyNames : Bool := true
  /-- Restate operators on nullable operands. -/
  lowerNullableLogic : Bool := true
  /-- Leave out a check of an operand that an enclosing condition has already
  made. -/
  simplifyCheckedComparisons : Bool := true
  deriving DecidableEq

/-- Why an options document cannot be used. -/
inductive OptionsError where
  /-- The text is not JSON, or not an options document. -/
  | malformed
  /-- The capture prefix is not an identifier. -/
  | invalidPrefix (text : String)
  deriving DecidableEq

/-- The report of an error. -/
def OptionsError.message : OptionsError → String
  | malformed => "invalid lowering options"
  | invalidPrefix text =>
      "tempNamePrefix must be a non-empty identifier, got '" ++ text ++ "'"

/-- Identifiers of ASCII letters, digits and underscores that do not begin with
a digit. -/
def isIdentifier (text : String) : Bool :=
  match text.toList with
  | [] => false
  | first :: rest =>
      (first.isAlpha || first == '_') &&
        rest.all fun character => character.isAlphanum || character == '_'

/-- Options whose capture prefix is an identifier. -/
def Options.validate (options : Options) : Except OptionsError Options :=
  if isIdentifier options.capturePrefix then
    .ok options
  else
    .error (.invalidPrefix options.capturePrefix)

end BasicLowering
