/-!
# Names up to case

Names of the source language are compared without regard to the case of the
letters A to Z. All other characters are compared as they are.
-/

namespace BasicLowering.Text

/-- Whether two names differ at most in the case of ASCII letters. -/
def sameName (left right : String) : Bool :=
  left.toList.map Char.toLower == right.toList.map Char.toLower

end BasicLowering.Text
