import TwoPass.Statement
import TwoPass.SymbolTable

/-!
The first pass. Statements with a mnemonic take the addresses 0, 1, 2, … in their order; a label
stands for the address that the next such statement takes, its own statement included.
-/

namespace TwoPass

structure PlacedStatement where
  address : UInt32
  statement : Statement
deriving DecidableEq

structure Layout where
  symbols : SymbolTable
  placed : List PlacedStatement
deriving DecidableEq

/-- The first pass under way: what it has made of the statements so far, and the address that comes
next. -/
structure FirstPass where
  symbols : SymbolTable := .empty
  placed : Array PlacedStatement := #[]
  next : UInt32 := 0

namespace FirstPass

def bindLabel (pass : FirstPass) (statement : Statement) : Except AssemblyError SymbolTable :=
  match statement.label with
  | none => .ok pass.symbols
  | some label => pass.symbols.bind label pass.next statement.line

def step (pass : FirstPass) (statement : Statement) : Except AssemblyError FirstPass := do
  let symbols ← pass.bindLabel statement
  if statement.isPlaced then
    return ⟨symbols, pass.placed.push ⟨pass.next, statement⟩, pass.next + 1⟩
  else
    return { pass with symbols }

def ofStatements (statements : List Statement) : Except AssemblyError FirstPass :=
  statements.foldlM step {}

def layout (pass : FirstPass) : Layout :=
  ⟨pass.symbols, pass.placed.toList⟩

end FirstPass

def Layout.ofStatements (statements : List Statement) : Except AssemblyError Layout :=
  (FirstPass.ofStatements statements).map FirstPass.layout

end TwoPass
