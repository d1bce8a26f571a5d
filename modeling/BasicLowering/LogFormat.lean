/-!
# Log formats

The name of a log format is read without regard to case. Folding the letters A
to Z is enough: no other character has a letter of these names as its lower-case
form.
-/

namespace BasicLowering

/-- How a log is laid out. -/
inductive LogFormat where
  | text | tree | json
  deriving DecidableEq

/-- The format with the given name. An unknown name means plain text. -/
def LogFormat.ofName (name : String) : LogFormat :=
  let folded := name.toList.map Char.toLower
  if folded = "tree".toList then tree
  else if folded = "json".toList then json
  else text

end BasicLowering
