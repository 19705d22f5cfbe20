import TwoPass.Config
import TwoPass.Program
import TwoPass.Statement.Parser

/-!
The assembler: source text to statements, a front end over the statements, then the two passes. A
stage that fails ends the run and reports nothing.
-/

namespace TwoPass

abbrev FrontEnd := List Statement → Except AssemblyError (List Statement)

structure Assembler where
  config : Config := {}
  frontEnd : FrontEnd := .ok

namespace Assembler

def runStatements (assembler : Assembler) (statements : List Statement) : Run Program := do
  let lowered ← Run.ofExcept (assembler.frontEnd statements)
  Run.report (.frontEndDone (addressCount statements) (addressCount lowered))
  let pass ← Run.ofExcept (FirstPass.ofStatements lowered)
  Run.report (.firstPassDone pass.symbols.size pass.next)
  Program.ofLayout pass.layout

def runSource (assembler : Assembler) (source : String) : Run Program := do
  let statements ← Run.ofExcept (Statement.ofSource source)
  Run.report (.sourceParsed statements.length)
  assembler.runStatements statements

def assembleStatements (assembler : Assembler) (statements : List Statement) :
    Except AssemblyError Program :=
  (assembler.runStatements statements).result

def assemble (assembler : Assembler) (source : String) : Except AssemblyError Program :=
  (assembler.runSource source).result

end Assembler

end TwoPass
