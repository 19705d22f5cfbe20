import TwoPass.Assembler
import TwoPass.CommandLine
import TwoPass.Host
import TwoPass.Listing
import TwoPass.MemoryImage

/-!
The assembler as a tool: it reads a source file, and prints a listing or writes a memory image. What
it will do is decided before anything is printed or written, so a run that fails leaves all files
as they were.
-/

namespace TwoPass

inductive ToolError where
  | readingConfig (path : String) (cause : FileError)
  | parsingConfig (path text : String)
  | readingSource (path : String) (cause : FileError)
  | assembly (error : AssemblyError)
  | writing (path : String) (cause : FileError)
deriving DecidableEq

namespace ToolError

def context : ToolError → String
  | readingConfig path _ => "reading config " ++ path
  | parsingConfig path _ => "parsing config " ++ path
  | readingSource path _ => "reading " ++ path
  | assembly error => error.message
  | writing path _ => "writing " ++ path

def cause? (explain : String → String) : ToolError → Option String
  | readingConfig _ cause | readingSource _ cause | writing _ cause => some cause.message
  | parsingConfig _ text => some (explain text)
  | assembly _ => none

def message (explain : String → String) (error : ToolError) : String :=
  match error.cause? explain with
  | some cause => error.context ++ ": " ++ cause
  | none => error.context

end ToolError

def Config.load (read : Reader) (path : String) : Except ToolError Config :=
  match read path with
  | .error cause => .error (.readingConfig path cause)
  | .ok text =>
      match ofText? text with
      | none => .error (.parsingConfig path text)
      | some config => .ok config

structure Outcome where
  exitCode : Nat
  output : String
  errors : String
deriving DecidableEq

namespace Outcome

def success (output : String) : Outcome :=
  ⟨0, output, ""⟩

def failure (report : String) : Outcome :=
  ⟨1, "", "Error: " ++ report ++ "\n"⟩

def misuse (error : UsageError) : Outcome :=
  ⟨2, "", "error: " ++ error.message ++ "\n\nFor more information, try '--help'.\n"⟩

end Outcome

inductive Action where
  | print (text : String)
  /-- Writes an image to a file, and prints the note if that succeeds. -/
  | save (path image note : String)
deriving DecidableEq

namespace Options

/-- The configuration file gives the configuration, and the command line the memory size over it. -/
def loadConfig (options : Options) (read : Reader) : Except ToolError Config := do
  let config ←
    match options.config with
    | none => .ok {}
    | some path => Config.load read path
  return { config with memoryWords := options.memoryWords.getD config.memoryWords }

def loadSource (options : Options) (read : Reader) : Except ToolError String :=
  (read options.input).mapError (.readingSource options.input)

def assemble (config : Config) (source : String) : Except ToolError Program :=
  ((⟨config, .ok⟩ : Assembler).assemble source).mapError .assembly

def saveNote (program : Program) (path : String) : String :=
  "Assembled " ++ Text.decimal program.instructions.length ++ " instructions to " ++ path ++ "\n"

def report (options : Options) (config : Config) (program : Program) :
    Except ToolError Action :=
  match options.output, options.format with
  | some path, _ => do
      let image ← (MemoryImage.render config program.instructions).mapError .assembly
      return .save path image (saveNote program path)
  | none, .text => .ok (.print (Program.listing program.instructions))
  | none, .json => .ok (.print (program.jsonListing ++ "\n"))

def plan (options : Options) (read : Reader) : Except ToolError Action := do
  let config ← options.loadConfig read
  let source ← options.loadSource read
  let program ← assemble config source
  options.report config program

end Options

variable {State : Type}

def Action.perform (host : Host State) (files : State) : Action → Outcome × State
  | print text => (.success text, files)
  | save path image note =>
      match host.write files path image with
      | (.error cause, after) =>
          (.failure (ToolError.message host.explain (.writing path cause)), after)
      | (.ok echo, after) => (⟨0, echo.output ++ note, echo.errors⟩, after)

def Options.run (host : Host State) (options : Options) (files : State) : Outcome × State :=
  match options.plan (host.read files) with
  | .error error => (.failure (error.message host.explain), files)
  | .ok action => action.perform host files

namespace Tool

def version : String := "toy16-asm 0.1.0\n"

def helpLines : List String :=
  ["Assemble a toy16 program into 16-bit words",
   "",
   "Usage: assemble [OPTIONS] <INPUT> [OUTPUT]",
   "",
   "Arguments:",
   "  <INPUT>   Assembly source",
   "  [OUTPUT]  Write a memory image here instead of printing a listing",
   "",
   "Options:",
   "      --format <FORMAT>              Listing format, text or json [default: text]",
   "      --config <FILE>                Configuration file",
   "      --memory-words <MEMORY_WORDS>  Memory size, over that of the configuration file",
   "  -h, --help                         Print help",
   "  -V, --version                      Print version",
   ""]

def help : String :=
  "\n".intercalate helpLines

def run (host : Host State) (files : State) (arguments : List String) : Outcome × State :=
  match CommandLine.parse arguments with
  | .error error => (.misuse error, files)
  | .ok .showVersion => (.success version, files)
  | .ok .showHelp => (.success help, files)
  | .ok (.assemble options) => options.run host files

end Tool

end TwoPass
