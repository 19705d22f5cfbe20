import TwoPass.Tool

/-!
The tool on the file system.
-/

namespace TwoPass.Main

/-- The cause that a code of the operating system stands for. Some calls give the code negated. -/
def fileErrorOfCode? (code : UInt32) : Option FileError :=
  match if code < 0x80000000 then code else 0 - code with
  | 2 => some .notFound
  | 13 => some .permissionDenied
  | 20 => some .notDirectory
  | 21 => some .isDirectory
  | 28 => some .noSpace
  | 36 => some .nameTooLong
  | _ => none

def fileError (error : IO.Error) : FileError :=
  let code :=
    match error with
    | .noFileOrDirectory _ code _ | .inappropriateType _ code _ | .resourceExhausted _ code _
    | .invalidArgument _ code _ | .permissionDenied _ code _ => code
    | _ => 0
  (fileErrorOfCode? code).getD (.other (toString error))

def readFile (path : String) : IO (Except FileError String) := do
  try
    let bytes ← IO.FS.readBinFile path
    match String.fromUTF8? bytes with
    | some text => return .ok text
    | none => return .error .invalidText
  catch error => return .error (fileError error)

def writeFile (path text : String) : IO (Except FileError Unit) := do
  try
    IO.FS.withFile path .write fun handle => do
      handle.putStr text
      handle.flush
    return .ok ()
  catch error => return .error (fileError error)

def reader (options : Options) : IO Reader := do
  let paths := options.config.toList ++ [options.input]
  let contents ← paths.mapM fun path => return (path, ← readFile path)
  return fun path => (contents.lookup path).getD (.error .notFound)

def explain (_ : String) : String := "invalid configuration"

def perform : Action → IO Outcome
  | .print text => return .success text
  | .save path image note => do
      match ← writeFile path image with
      | .error cause => return .failure (ToolError.message explain (.writing path cause))
      | .ok _ => return .success note

def run (arguments : List String) : IO Outcome := do
  match CommandLine.parse arguments with
  | .error error => return .misuse error
  | .ok .showVersion => return .success Tool.version
  | .ok .showHelp => return .success Tool.help
  | .ok (.assemble options) =>
      match options.plan (← reader options) with
      | .error error => return .failure (error.message explain)
      | .ok action => perform action

end TwoPass.Main

def main (arguments : List String) : IO UInt32 := do
  let outcome ← TwoPass.Main.run arguments
  IO.print outcome.output
  IO.eprint outcome.errors
  return outcome.exitCode.toUInt32
