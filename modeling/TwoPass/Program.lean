import TwoPass.Encoding
import TwoPass.Event
import TwoPass.Layout

/-!
The second pass, and the programs that it makes: the symbol table and the words with their
addresses and lines. The first statement that has no word ends the pass.
-/

namespace TwoPass

structure EncodedInstruction where
  address : UInt32
  word : UInt16
  line : Nat
deriving DecidableEq

structure Program where
  symbols : SymbolTable
  instructions : List EncodedInstruction
deriving DecidableEq

namespace PlacedStatement

def encode (table : SymbolTable) (placed : PlacedStatement) :
    Except AssemblyError EncodedInstruction :=
  match Instruction.ofTokens table placed.statement.name placed.statement.operands with
  | .error cause => .error (.encode placed.address placed.statement.line cause)
  | .ok instruction => .ok ⟨placed.address, instruction.word, placed.statement.line⟩

end PlacedStatement

namespace Program

def words (program : Program) : List UInt16 :=
  program.instructions.map EncodedInstruction.word

def encodeBefore (table : SymbolTable) (placed : PlacedStatement)
    (rest : Run (List EncodedInstruction)) : Run (List EncodedInstruction) :=
  match placed.encode table with
  | .error error => ⟨[], .error error⟩
  | .ok instruction =>
      ⟨.encoded instruction.address instruction.word placed.statement.name :: rest.events,
       rest.result.map (instruction :: ·)⟩

def encodeAll (table : SymbolTable) (placed : List PlacedStatement) :
    Run (List EncodedInstruction) :=
  placed.foldr (encodeBefore table) ⟨[], .ok []⟩

def ofLayout (layout : Layout) : Run Program := do
  let instructions ← encodeAll layout.symbols layout.placed
  Run.report (.secondPassDone instructions.length)
  return ⟨layout.symbols, instructions⟩

end Program

end TwoPass
