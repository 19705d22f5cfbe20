import TwoPass.Config
import TwoPass.Json.Reader
import TwoPass.Json.Writer
import TwoPass.Program

/-!
The parts of a program and the configuration as JSON records.
-/

namespace TwoPass

/-- Any byte is read as a register, also one that the machine does not have. -/
def Register.ofJson? (value : Json) : Option Register :=
  (value.natBelow? UInt8.size).map fun index => ⟨index.toUInt8⟩

def Mnemonic.ofTitle? (title : String) : Option Mnemonic :=
  all.find? fun mnemonic => mnemonic.title == title

/-- A mnemonic is read from its title, or from an object with the title as its only key and `null`
as the value. -/
def Mnemonic.ofJson? : Json → Option Mnemonic
  | .string text => text.bind ofTitle?
  | .object [(key, .null)] => key.bind ofTitle?
  | _ => none

namespace Statement

def ofJson? (value : Json) : Option Statement :=
  match value.record? ["line", "mnemonic", "operands", "label"] 4 with
  | some [some line, mnemonic, some operands, label] => do
      let line ← line.natBelow? UInt64.size
      let mnemonic ← (mnemonic.getD .null).optional? Json.text?
      let operands ← operands.list? Json.text?
      let label ← (label.getD .null).optional? Json.text?
      return ⟨line, mnemonic, operands, label⟩
  | _ => none

end Statement

namespace EncodedInstruction

def toJson (instruction : EncodedInstruction) : Json :=
  .object
    [(some "address", .ofNat instruction.address.toNat),
     (some "word", .ofNat instruction.word.toNat),
     (some "line", .ofNat instruction.line)]

def ofJson? (value : Json) : Option EncodedInstruction :=
  match value.record? ["address", "word", "line"] 3 with
  | some [some address, some word, some line] => do
      let address ← address.natBelow? UInt32.size
      let word ← word.natBelow? UInt16.size
      let line ← line.natBelow? UInt64.size
      return ⟨address.toUInt32, word.toUInt16, line⟩
  | _ => none

end EncodedInstruction

namespace Program

def toJson (program : Program) : Json :=
  .object
    [(some "symbols", .object (program.symbols.toSortedList.map fun (label, address) =>
        (some label, .ofNat address.toNat))),
     (some "instructions", .array (program.instructions.map EncodedInstruction.toJson))]

end Program

namespace Config

def toJson (config : Config) : Json :=
  .object
    [(some "memory_words", .ofNat config.memoryWords),
     (some "memory_name", .ofText config.memoryName)]

def ofJson? (value : Json) : Option Config :=
  let base : Config := {}
  match value.record? ["memory_words", "memory_name"] 0 with
  | some [words, name] => do
      let words ← (words.getD (.ofNat base.memoryWords)).natBelow? UInt64.size
      let name ← (name.getD (.ofText base.memoryName)).text?
      return ⟨words, name⟩
  | _ => none

def ofText? (text : String) : Option Config :=
  (Json.ofText? text).bind ofJson?

def toText (config : Config) : String :=
  config.toJson.compact

end Config

end TwoPass
