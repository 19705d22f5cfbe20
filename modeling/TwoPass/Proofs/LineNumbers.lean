import TwoPass.Proofs.SecondPass
import TwoPass.Proofs.Source

/-!
Line numbers. A run carries them from the source to its instructions, symbols and errors, and
decides nothing by them: other numbers on the same statements give the same run with those other
numbers.
-/

namespace TwoPass

def Statement.renumber (change : Nat → Nat) (statement : Statement) : Statement :=
  { statement with line := change statement.line }

def Symbol.renumber (change : Nat → Nat) (symbol : Symbol) : Symbol :=
  { symbol with line := change symbol.line }

def SymbolTable.renumber (change : Nat → Nat) (table : SymbolTable) : SymbolTable where
  symbols := table.symbols.map (Symbol.renumber change)
  distinct := by
    rw [List.map_map]
    exact table.distinct

def EncodedInstruction.renumber (change : Nat → Nat) (encoded : EncodedInstruction) :
    EncodedInstruction :=
  { encoded with line := change encoded.line }

def Program.renumber (change : Nat → Nat) (program : Program) : Program where
  symbols := program.symbols.renumber change
  instructions := program.instructions.map (EncodedInstruction.renumber change)

def AssemblyError.renumber (change : Nat → Nat) : AssemblyError → AssemblyError
  | malformed line reason => malformed (change line) reason
  | duplicateLabel label line firstLine => duplicateLabel label (change line) (change firstLine)
  | encode address line cause => encode address (change line) cause
  | programTooLarge count capacity => programTooLarge count capacity

variable (change : Nat → Nat)

namespace SymbolTable

theorem find?_renumber (table : SymbolTable) (label : String) :
    (table.renumber change).find? label = (table.find? label).map (Symbol.renumber change) := by
  have named (symbol : Symbol) : (symbol.renumber change).label = symbol.label := rfl
  simp only [find?, renumber, List.find?_map, Function.comp_def, named]

theorem resolve?_renumber (table : SymbolTable) (label : String) :
    (table.renumber change).resolve? label = table.resolve? label := by
  rw [resolve?, find?_renumber, Option.map_map, resolve?]
  rfl

theorem bind_renumber (table : SymbolTable) (label : String) (address : UInt32) (line : Nat) :
    (table.renumber change).bind label address (change line) =
      ((table.bind label address line).map (renumber change)).mapError
        (AssemblyError.renumber change) := by
  have found := table.find?_renumber change label
  cases ended : table.find? label with
  | some first =>
      rw [ended] at found
      rw [bind_of_find?_eq_some ended, bind_of_find?_eq_some found]
      rfl
  | none =>
      rw [ended] at found
      obtain ⟨extended, success, symbols⟩ := bind_of_find?_eq_none ended address line
      obtain ⟨other, otherSuccess, otherSymbols⟩ :=
        bind_of_find?_eq_none found address (change line)
      rw [success, otherSuccess]
      change Except.ok other = Except.ok (extended.renumber change)
      rw [Except.ok.injEq]
      apply eq_of_symbols_eq
      simp [otherSymbols, renumber, symbols, Symbol.renumber]

end SymbolTable

theorem Layout.bindLabels_renumber (table : SymbolTable) (address : UInt32)
    (statements : List Statement) :
    bindLabels (table.renumber change) address (statements.map (Statement.renumber change)) =
      ((bindLabels table address statements).map (SymbolTable.renumber change)).mapError
        (AssemblyError.renumber change) := by
  induction statements generalizing table address with
  | nil => rfl
  | cons statement rest ih =>
      have placed : (statement.renumber change).isPlaced = statement.isPlaced := rfl
      rw [List.map_cons, bindLabels, bindLabels, placed]
      cases named : statement.label with
      | none =>
          simp only [Statement.renumber, named]
          exact ih table _
      | some label =>
          simp only [Statement.renumber, named, table.bind_renumber change]
          cases table.bind label address statement.line with
          | error error => rfl
          | ok extended => exact ih extended _

theorem PlacedStatement.encode_renumber (table : SymbolTable) (placed : PlacedStatement) :
    PlacedStatement.encode (table.renumber change)
        ⟨placed.address, placed.statement.renumber change⟩ =
      ((placed.encode table).map (EncodedInstruction.renumber change)).mapError
        (AssemblyError.renumber change) := by
  have encoded : (placed.statement.renumber change).encode (table.renumber change) =
      placed.statement.encode table := by
    -- The word of a statement is made of its tokens alone.
    change placed.statement.encode (table.renumber change) = _
    exact Statement.encode_congr fun token _ _ => table.resolve?_renumber change token
  rw [encode_eq, encode_eq]
  simp only [encoded]
  cases placed.statement.encode table <;> rfl

theorem Assembler.assembleStatements_renumber (config : Config) (statements : List Statement) :
    ({ config } : Assembler).assembleStatements (statements.map (Statement.renumber change)) =
      ((({ config } : Assembler).assembleStatements statements).map
        (Program.renumber change)).mapError (AssemblyError.renumber change) := by
  have bound := Layout.bindLabels_renumber change .empty 0 statements
  change Layout.bindLabels .empty 0 _ = _ at bound
  rw [assembleStatements_default, assembleStatements_default, bound]
  cases Layout.bindLabels .empty 0 statements with
  | error error => rfl
  | ok table =>
      have encoded := Result.mapM_map_eq_map_mapError (PlacedStatement.encode table)
        (PlacedStatement.encode (table.renumber change))
        (fun placed => ⟨placed.address, placed.statement.renumber change⟩)
        (EncodedInstruction.renumber change) (AssemblyError.renumber change)
        (Layout.place statements) (fun placed _ => placed.encode_renumber change table)
      simp only [Except.map, Result.mapError_ok]
      rw [Layout.place_map (Statement.renumber change) rfl, encoded]
      cases (Layout.place statements).mapM (PlacedStatement.encode table) <;> rfl

namespace Statement

theorem checkLabel_renumber (line : Nat) (name : List Char) :
    checkLabel (change line) name =
      (checkLabel line name).mapError (AssemblyError.renumber change) := by
  unfold checkLabel
  split
  · rfl
  · split <;> rfl

theorem ofWords?_renumber (line : Nat) (label : Option String) (words : List (List Char)) :
    ofWords? (change line) label words = (ofWords? line label words).map (renumber change) := by
  cases words with
  | nil => cases label <;> rfl
  | cons mnemonic operands => rfl

theorem ofChars?_renumber (line : Nat) (text : List Char) :
    ofChars? (change line) text =
      ((ofChars? line text).map (Option.map (renumber change))).mapError
        (AssemblyError.renumber change) := by
  unfold ofChars?
  split
  · rw [ofWords?_renumber]
    rfl
  · rename_i name rest _
    rw [checkLabel_renumber]
    cases checkLabel line (Text.trim name) with
    | error error => rfl
    | ok label => simp only [Result.mapError_ok, ofWords?_renumber, Except.map]

end Statement

end TwoPass
