import TwoPass.Record

/-!
Listings of a program: one line of text for each word, or the whole program as JSON.
-/

namespace TwoPass

namespace EncodedInstruction

def listingLine (instruction : EncodedInstruction) : String :=
  "  " ++ Text.paddedDecimal 3 instruction.address.toNat ++ ": 0x" ++ Text.hexWord instruction.word
    ++ " (" ++ Text.binaryWord instruction.word ++ ")\n"

end EncodedInstruction

namespace Program

def listing (instructions : List EncodedInstruction) : String :=
  String.join ("Assembled instructions:\n" :: instructions.map EncodedInstruction.listingLine)

def jsonListing (program : Program) : String :=
  program.toJson.pretty

end Program

end TwoPass
