import BasicLowering.Json.Escape
import BasicLowering.Json.Value
import BasicLowering.Options.Basic

/-!
# Options documents

Options are kept as JSON. An object binds options by their keys: each at most
once, in any order, and unknown keys are passed over. An array lists the options
in their fixed order and may stop early. What is not given keeps its default.

A document that cannot be read is malformed whatever its prefix. The prefix is
examined last.
-/

namespace BasicLowering.Options

/-- One option. -/
inductive Field where
  | capturePrefix
  | explicitNullableCasts
  | qualifyNames
  | lowerNullableLogic
  | simplifyCheckedComparisons
  deriving DecidableEq

namespace Field

/-- The options in the order of an array. -/
def all : List Field :=
  [capturePrefix, explicitNullableCasts, qualifyNames, lowerNullableLogic,
    simplifyCheckedComparisons]

/-- The key of an option. -/
def key : Field → String
  | capturePrefix => "tempNamePrefix"
  | explicitNullableCasts => "explicitNullableCasts"
  | qualifyNames => "qualifyNames"
  | lowerNullableLogic => "lowerNullableLogic"
  | simplifyCheckedComparisons => "simplifyCheckedComparisons"

/-- The option with the given key. -/
def ofKey? (key : List Char) : Option Field :=
  all.find? fun field => field.key.toList == key

/-- Give an option the value of a document, if it is of the right kind. -/
def assign? (field : Field) (value : Json.Value) (options : Options) :
    Option Options :=
  match field, value with
  | capturePrefix, .string written =>
      (Json.unescape? written).map fun text =>
        { options with capturePrefix := String.ofList text }
  | explicitNullableCasts, .boolean flag =>
      some { options with explicitNullableCasts := flag }
  | qualifyNames, .boolean flag => some { options with qualifyNames := flag }
  | lowerNullableLogic, .boolean flag =>
      some { options with lowerNullableLogic := flag }
  | simplifyCheckedComparisons, .boolean flag =>
      some { options with simplifyCheckedComparisons := flag }
  | _, _ => none

end Field

/-- Read the members of an object, where `seen` lists the options that earlier
members have given. -/
def ofMembers? (seen : List Field) (options : Options) :
    List (List Char × Json.Value) → Option Options
  | [] => some options
  | (written, value) :: rest => do
      let key ← Json.unescape? written
      match Field.ofKey? key with
      | none => ofMembers? seen options rest
      | some field =>
          if field ∈ seen then
            none
          else
            let options ← field.assign? value options
            ofMembers? (field :: seen) options rest

/-- Read the items of an array, where `fields` lists the options that have not
been given yet. -/
def ofItems? (options : Options) :
    (fields : List Field) → List Json.Value → Option Options
  | _, [] => some options
  | [], _ :: _ => none
  | field :: fields, value :: rest => do
      let options ← field.assign? value options
      ofItems? options fields rest

/-- The options that a value gives, whatever their prefix. -/
def ofValue? : Json.Value → Option Options
  | .object members => ofMembers? [] {} members
  | .array items => ofItems? {} Field.all items
  | _ => none

/-- Read an options document. -/
def ofText (text : String) : Except OptionsError Options :=
  match (Json.parse? text.toList).bind ofValue? with
  | some options => options.validate
  | none => .error .malformed

end BasicLowering.Options
