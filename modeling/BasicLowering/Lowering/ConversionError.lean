import BasicLowering.Source.Arena

/-!
# Conversion errors

Why a tree cannot be converted. All but one describe a malformed tree. Nesting
beyond the limit is a well-formed tree that is left as written, so it is
reported as a warning.
-/

namespace BasicLowering.Lowering

open Source

/-- The reason for which a conversion is given up. -/
inductive ConversionError where
  | missingNode (slot : Slot)
  | expectedExpression (kind : String) (position : UInt32)
  | expectedStatement (kind : String) (position : UInt32)
  | tooDeep (limit : Nat) (position : UInt32)

/-- How serious a report is. -/
inductive Severity where
  | warning | error
  deriving DecidableEq

/-- A report that is attached to a range of the text. -/
structure Diagnostic where
  severity : Severity
  start : UInt32
  length : UInt32
  message : String

namespace ConversionError

/-- The wording of an error. -/
def message : ConversionError → String
  | missingNode slot =>
      "node " ++ toString slot.number ++ " does not exist in the arena"
  | expectedExpression kind position =>
      "expected an expression but found " ++ kind ++ " at " ++
        toString position.toNat
  | expectedStatement kind position =>
      "expected a statement but found " ++ kind ++ " at " ++
        toString position.toNat
  | tooDeep limit position =>
      "expression nesting exceeds " ++ toString limit ++ " levels at " ++
        toString position.toNat

/-- The place of an error, if it has one. -/
def position? : ConversionError → Option UInt32
  | missingNode _ => none
  | expectedExpression _ position | expectedStatement _ position
  | tooDeep _ position => some position

/-- How serious an error is. -/
def severity : ConversionError → Severity
  | tooDeep _ _ => .warning
  | _ => .error

/-- The report of an error, an empty range at its place. -/
def diagnostic (error : ConversionError) : Diagnostic where
  severity := error.severity
  start := error.position?.getD 0
  length := 0
  message := error.message

end ConversionError

end BasicLowering.Lowering
