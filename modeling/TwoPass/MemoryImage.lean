import TwoPass.Config
import TwoPass.Program

/-!
Memory images: a block of statements that fills a memory of the configured size with zeros and then
stores each word at its address. A program with more words than the memory has none.
-/

namespace TwoPass.MemoryImage

def clearLines (config : Config) : List String :=
  ["    // Initialize all memory to 0",
   "    for (i = 0; i < " ++ Text.decimal config.memoryWords ++ "; i = i + 1) begin",
   "        " ++ config.memoryName ++ "[i] = 16'b" ++ Text.binaryWord 0 ++ ";",
   "    end",
   "",
   "    // Program instructions"]

def storeLine (config : Config) (instruction : EncodedInstruction) : String :=
  "    " ++ config.memoryName ++ "[" ++ Text.decimal instruction.address.toNat ++ "] = 16'h"
    ++ Text.hexWord instruction.word ++ ";"

def render (config : Config) (instructions : List EncodedInstruction) :
    Except AssemblyError String :=
  if config.memoryWords < instructions.length then
    .error (.programTooLarge instructions.length config.memoryWords)
  else
    .ok ("\n".intercalate (clearLines config ++ instructions.map (storeLine config)))

end TwoPass.MemoryImage
