/-!
What the tool finds around it: files that it can read and write, and the library that reads
configurations. Nothing is said here of how they work.
-/

namespace TwoPass

inductive FileError where
  | notFound
  | permissionDenied
  | notDirectory
  | isDirectory
  | noSpace
  | nameTooLong
  | invalidText
  | other (reason : String)
deriving DecidableEq

def FileError.message : FileError → String
  | notFound => "No such file or directory (os error 2)"
  | permissionDenied => "Permission denied (os error 13)"
  | notDirectory => "Not a directory (os error 20)"
  | isDirectory => "Is a directory (os error 21)"
  | noSpace => "No space left on device (os error 28)"
  | nameTooLong => "File name too long (os error 36)"
  | invalidText => "stream did not contain valid UTF-8"
  | other reason => reason

abbrev Reader := String → Except FileError String

structure Echo where
  output : String := ""
  errors : String := ""

structure Host (State : Type) where
  read : State → Reader
  /-- Writes a text to a path, and tells which files there are then. -/
  write : State → String → String → Except FileError Echo × State
  /-- Why a text is no configuration. -/
  explain : String → String

end TwoPass
