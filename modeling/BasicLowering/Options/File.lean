import BasicLowering.Options.Document

/-!
# Options files

An options file is UTF-8 text. A file that is missing and a file that is not
UTF-8 are both unreadable.
-/

namespace BasicLowering.Options

/-- Why an options file cannot be used. -/
inductive FileError where
  | unreadable (path : String)
  | unusable (path : String) (cause : OptionsError)

namespace FileError

/-- The report of an error, without its cause. -/
def message : FileError → String
  | unreadable path => "failed to read lowering options " ++ path
  | unusable path _ => "failed to parse lowering options " ++ path

/-- The error of the document, where the file could be read. -/
def cause? : FileError → Option OptionsError
  | unreadable _ => none
  | unusable _ cause => some cause

end FileError

/-- Read the options file at `path`, given its content if it exists. -/
def ofFile (path : String) (content : Option ByteArray) :
    Except FileError Options :=
  match content.bind String.fromUTF8? with
  | none => .error (.unreadable path)
  | some text => (ofText text).mapError (.unusable path)

end BasicLowering.Options
