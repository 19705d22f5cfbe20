import TwoPass.Text.Digits

/-!
The command line: options in any order among the input path and the output path. Arguments are read
from left to right; the first one at fault decides, unless the version or the help text is asked
for before it.
-/

namespace TwoPass

inductive ListingFormat where
  | text
  | json
deriving DecidableEq

structure Options where
  input : String
  output : Option String
  format : ListingFormat
  config : Option String
  memoryWords : Option Nat
deriving DecidableEq

inductive Invocation where
  | assemble (options : Options)
  | showVersion
  | showHelp
deriving DecidableEq

inductive UsageError where
  | unknownOption (argument : String)
  | missingValue (option : String)
  | invalidValue (option value : String)
  | repeatedOption (option : String)
  | unexpectedArgument (argument : String)
  | missingInput
deriving DecidableEq

def UsageError.message : UsageError → String
  | unknownOption argument => "unexpected argument '" ++ argument ++ "' found"
  | missingValue option => "a value is required for '" ++ option ++ "' but none was supplied"
  | invalidValue option value => "invalid value '" ++ value ++ "' for '" ++ option ++ "'"
  | repeatedOption option =>
      "the argument '" ++ option ++ "' cannot be used multiple times"
  | unexpectedArgument argument => "unexpected argument '" ++ argument ++ "' found"
  | missingInput => "the following required arguments were not provided: <INPUT>"

namespace CommandLine

inductive ValueOption where
  | format
  | config
  | memoryWords
deriving DecidableEq

def ValueOption.name : ValueOption → String
  | format => "--format"
  | config => "--config"
  | memoryWords => "--memory-words"

def ValueOption.ofName? (name : String) : Option ValueOption :=
  [format, config, memoryWords].find? fun option => option.name == name

structure Given where
  paths : List String := []
  format : Option ListingFormat := none
  config : Option String := none
  memoryWords : Option Nat := none

def count? (text : String) : Option Nat :=
  let digits :=
    match text.toList with
    | '+' :: rest => rest
    | rest => rest
  (Text.number? 10 digits).filter fun value => decide (value < UInt64.size)

def format? (text : String) : Option ListingFormat :=
  if text = "text" then some .text
  else if text = "json" then some .json
  else none

namespace Given

def addPath (given : Given) (path : String) : Except UsageError Given :=
  if 2 ≤ given.paths.length then .error (.unexpectedArgument path)
  else if path = "" then .error (.invalidValue "<PATH>" path)
  else .ok { given with paths := given.paths ++ [path] }

def setFormat (given : Given) (value : String) : Except UsageError Given :=
  if given.format.isSome then .error (.repeatedOption ValueOption.format.name)
  else match format? value with
    | some format => .ok { given with format := some format }
    | none => .error (.invalidValue ValueOption.format.name value)

def setConfig (given : Given) (value : String) : Except UsageError Given :=
  if given.config.isSome then .error (.repeatedOption ValueOption.config.name)
  else if value = "" then .error (.invalidValue ValueOption.config.name value)
  else .ok { given with config := some value }

def setMemoryWords (given : Given) (value : String) : Except UsageError Given :=
  if given.memoryWords.isSome then .error (.repeatedOption ValueOption.memoryWords.name)
  else match count? value with
    | some count => .ok { given with memoryWords := some count }
    | none => .error (.invalidValue ValueOption.memoryWords.name value)

def set (given : Given) : ValueOption → String → Except UsageError Given
  | .format, value => given.setFormat value
  | .config, value => given.setConfig value
  | .memoryWords, value => given.setMemoryWords value

def finish (given : Given) : Except UsageError Invocation :=
  match given.paths with
  | [] => .error .missingInput
  | input :: rest =>
      .ok (.assemble ⟨input, rest.head?, given.format.getD .text, given.config, given.memoryWords⟩)

end Given

inductive Argument where
  | path (text : String)
  | endOfOptions
  | option (option : ValueOption) (value : Option String)
  | showVersion
  | showHelp
  | unknown (text : String)
deriving DecidableEq

def classifyLong (text : String) : Argument :=
  let name := String.ofList (text.toList.takeWhile (· != '='))
  let value := (text.toList.dropWhile (· != '=')).tail?.map String.ofList
  match ValueOption.ofName? name with
  | some option => .option option value
  | none =>
      if text = "--version" then .showVersion
      else if text = "--help" then .showHelp
      else .unknown text

/-- A single hyphen is a path. Of letters after one hyphen, the first decides. -/
def classify (text : String) : Argument :=
  match text.toList with
  | ['-', '-'] => .endOfOptions
  | '-' :: '-' :: _ => classifyLong text
  | '-' :: 'V' :: _ => .showVersion
  | '-' :: 'h' :: _ => .showHelp
  | '-' :: _ :: _ => .unknown text
  | _ => .path text

def addPaths (given : Given) : List String → Except UsageError Given
  | [] => .ok given
  | path :: rest =>
      match given.addPath path with
      | .error error => .error error
      | .ok extended => addPaths extended rest

/-- Reads arguments after those that gave `given`. An option without an equals sign has the next
argument as its value, which must not look like an option. -/
def parseAfter (given : Given) : List String → Except UsageError Invocation
  | [] => given.finish
  | argument :: rest =>
      match classify argument with
      | .showVersion => .ok .showVersion
      | .showHelp => .ok .showHelp
      | .unknown text => .error (.unknownOption text)
      | .endOfOptions =>
          match addPaths given rest with
          | .error error => .error error
          | .ok extended => extended.finish
      | .path text =>
          match given.addPath text with
          | .error error => .error error
          | .ok extended => parseAfter extended rest
      | .option option (some value) =>
          match given.set option value with
          | .error error => .error error
          | .ok extended => parseAfter extended rest
      | .option option none =>
          match rest with
          | [] => .error (.missingValue option.name)
          | next :: later =>
              match classify next with
              | .path value =>
                  match given.set option value with
                  | .error error => .error error
                  | .ok extended => parseAfter extended later
              | _ => .error (.missingValue option.name)

def parse (arguments : List String) : Except UsageError Invocation :=
  parseAfter {} arguments

end CommandLine

end TwoPass
