import BasicLowering.Json.Token

/-!
# JSON values

A document is one value and nothing after it. Values are put together from the
tokens with the containers that are still open held in a list, so neither the
depth nor the length of a document is limited.
-/

namespace BasicLowering.Json

/-- A value. Numbers, strings and keys are held as written; members keep their
order, and a key may occur more than once. -/
inductive Value where
  | null
  | boolean (value : Bool)
  | number (written : List Char)
  | string (written : List Char)
  | array (items : List Value)
  | object (members : List (List Char × Value))

/-- A container that is still open, with what it holds so far, the last item
first. -/
inductive Frame where
  | array (before : List Value)
  | object (before : List (List Char × Value)) (key : List Char)

/-- What has been put together so far. Each state lists the open containers,
the innermost first. -/
inductive Assembly where
  /-- A value comes next. -/
  | awaitValue (outer : List Frame)
  /-- An array has just been opened. -/
  | inArray (outer : List Frame)
  /-- An object has just been opened. -/
  | inObject (outer : List Frame)
  /-- A key comes next. -/
  | awaitKey (before : List (List Char × Value)) (outer : List Frame)
  /-- A colon comes next. -/
  | awaitColon (before : List (List Char × Value)) (key : List Char)
      (outer : List Frame)
  /-- A value is complete. -/
  | complete (value : Value) (outer : List Frame)

namespace Assembly

/-- Read the first token of a value. -/
def start? (outer : List Frame) : Token → Option Assembly
  | .null => some (.complete .null outer)
  | .boolean value => some (.complete (.boolean value) outer)
  | .number written => some (.complete (.number written) outer)
  | .string written => some (.complete (.string written) outer)
  | .leftBracket => some (.inArray outer)
  | .leftBrace => some (.inObject outer)
  | _ => none

/-- Read one token. -/
def step : Assembly → Token → Option Assembly
  | .awaitValue outer, token => start? outer token
  | .inArray outer, .rightBracket => some (.complete (.array []) outer)
  | .inArray outer, token => start? (.array [] :: outer) token
  | .inObject outer, .rightBrace => some (.complete (.object []) outer)
  | .inObject outer, .string key => some (.awaitColon [] key outer)
  | .awaitKey before outer, .string key => some (.awaitColon before key outer)
  | .awaitColon before key outer, .colon =>
      some (.awaitValue (.object before key :: outer))
  | .complete value (.array before :: outer), .comma =>
      some (.awaitValue (.array (value :: before) :: outer))
  | .complete value (.array before :: outer), .rightBracket =>
      some (.complete (.array (value :: before).reverse) outer)
  | .complete value (.object before key :: outer), .comma =>
      some (.awaitKey ((key, value) :: before) outer)
  | .complete value (.object before key :: outer), .rightBrace =>
      some (.complete (.object ((key, value) :: before).reverse) outer)
  | _, _ => none

end Assembly

/-- The value that a text denotes, or nothing when the text is not JSON. -/
def parse? (text : List Char) : Option Value := do
  let tokens ← tokens? text
  match ← tokens.foldlM Assembly.step (.awaitValue []) with
  | .complete value [] => some value
  | _ => none

end BasicLowering.Json
