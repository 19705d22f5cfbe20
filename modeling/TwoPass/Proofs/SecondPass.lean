import TwoPass.Assembler
import TwoPass.Proofs.FirstPass
import TwoPass.Proofs.Reading

/-!
The result of a run without its events. The second pass encodes the statements one after the other
and ends at the first that has no word, so a run succeeds exactly if the labels can be bound and
every statement has a word under the table that they make.
-/

namespace TwoPass

theorem Run.result_bind {α β : Type} (run : Run α) (next : α → Run β) :
    (run >>= next).result = run.result >>= fun value => (next value).result := by
  cases ended : run.result with
  | error error =>
      rw [Run.bind_of_error ended]
      rfl
  | ok value =>
      rw [Run.bind_of_ok ended]
      rfl

theorem PlacedStatement.encode_eq (table : SymbolTable) (placed : PlacedStatement) :
    placed.encode table =
      ((placed.statement.encode table).map fun word =>
        (⟨placed.address, word, placed.statement.line⟩ : EncodedInstruction)).mapError
          (.encode placed.address placed.statement.line) := by
  have same : placed.statement.encode table =
      (Instruction.ofTokens table placed.statement.name placed.statement.operands).map
        Instruction.word :=
    rfl
  rw [same, PlacedStatement.encode]
  cases Instruction.ofTokens table placed.statement.name placed.statement.operands <;> rfl

theorem PlacedStatement.encode_eq_ok_iff (table : SymbolTable) (placed : PlacedStatement)
    (encoded : EncodedInstruction) :
    placed.encode table = .ok encoded ↔
      encoded.address = placed.address ∧ encoded.line = placed.statement.line ∧
        placed.statement.encode table = .ok encoded.word := by
  rw [PlacedStatement.encode_eq]
  cases encoded with
  | mk address word line =>
      cases ended : placed.statement.encode table with
      | error cause => simp [Except.map]
      | ok other =>
          simp only [Except.map, Result.mapError_ok, Except.ok.injEq, EncodedInstruction.mk.injEq]
          constructor
          · rintro ⟨rfl, rfl, rfl⟩
            exact ⟨rfl, rfl, rfl⟩
          · rintro ⟨rfl, rfl, rfl⟩
            exact ⟨rfl, rfl, rfl⟩

theorem PlacedStatement.encode_eq_error_iff (table : SymbolTable) (placed : PlacedStatement)
    (error : AssemblyError) :
    placed.encode table = .error error ↔
      ∃ cause, placed.statement.encode table = .error cause ∧
        error = .encode placed.address placed.statement.line cause := by
  rw [PlacedStatement.encode_eq]
  cases placed.statement.encode table with
  | error cause => simp [Except.map, eq_comm]
  | ok word => simp [Except.map]

theorem Program.result_encodeAll (table : SymbolTable) (placed : List PlacedStatement) :
    (encodeAll table placed).result = placed.mapM (PlacedStatement.encode table) := by
  induction placed with
  | nil => rfl
  | cons first rest ih =>
      rw [Result.mapM_cons_eq, ← ih]
      change (encodeBefore table first (encodeAll table rest)).result = _
      unfold encodeBefore
      cases first.encode table <;> rfl

/-- The program is what the two passes make of the statements: its table holds their definitions,
and its instructions are their words under that table. -/
structure Assembled (statements : List Statement) (program : Program) : Prop where
  symbols : program.symbols.symbols = definitions 0 statements
  encodes : (Layout.place statements).map (PlacedStatement.encode program.symbols) =
    program.instructions.map .ok

namespace Assembled

variable {statements : List Statement} {program : Program}

theorem labels_nodup (assembled : Assembled statements program) : (labels statements).Nodup :=
  labels_nodup_of_symbols assembled.symbols

theorem length_instructions (assembled : Assembled statements program) :
    program.instructions.length = addressCount statements := by
  simpa [Layout.length_place] using (congrArg List.length assembled.encodes).symm

theorem getElem?_instructions (assembled : Assembled statements program) {index : Nat}
    {encoded : EncodedInstruction} (found : program.instructions[index]? = some encoded) :
    ∃ statement, (code statements)[index]? = some statement ∧
      encoded.address = index.toUInt32 ∧ encoded.line = statement.line ∧
      statement.encode program.symbols = .ok encoded.word := by
  have entry := congrArg (fun results => results[index]?) assembled.encodes
  simp only [List.getElem?_map, Layout.getElem?_place, found, Option.map_map, Option.map_some,
    Option.map_eq_some_iff, Function.comp_apply] at entry
  obtain ⟨statement, there, success⟩ := entry
  exact ⟨statement, there, (PlacedStatement.encode_eq_ok_iff _ _ _).mp success⟩

theorem exists_instruction (assembled : Assembled statements program) {index : Nat}
    {statement : Statement} (found : (code statements)[index]? = some statement) :
    ∃ encoded, program.instructions[index]? = some encoded ∧
      encoded.address = index.toUInt32 ∧ encoded.line = statement.line ∧
      statement.encode program.symbols = .ok encoded.word := by
  have bound := (List.getElem?_eq_some_iff.mp found).1
  rw [length_code, ← assembled.length_instructions] at bound
  have there := List.getElem?_eq_getElem bound
  obtain ⟨same, sameFound, facts⟩ := assembled.getElem?_instructions there
  rw [found, Option.some.injEq] at sameFound
  exact ⟨_, there, sameFound ▸ facts⟩

end Assembled

namespace Assembler

theorem assembleStatements_eq (assembler : Assembler) (statements : List Statement) :
    assembler.assembleStatements statements = (do
      let lowered ← assembler.frontEnd statements
      let pass ← FirstPass.ofStatements lowered
      let instructions ← pass.layout.placed.mapM (PlacedStatement.encode pass.symbols)
      return ⟨pass.symbols, instructions⟩) := by
  simp only [assembleStatements, runStatements, Program.ofLayout, Run.result_bind,
    Program.result_encodeAll]
  rfl

theorem assemble_eq (assembler : Assembler) (source : String) :
    assembler.assemble source = Statement.ofSource source >>= assembler.assembleStatements := by
  simp only [assemble, runSource, Run.result_bind]
  rfl

theorem assemble_of_ofSource (assembler : Assembler) {source : String}
    {statements : List Statement} (read : Statement.ofSource source = .ok statements) :
    assembler.assemble source = assembler.assembleStatements statements := by
  rw [assemble_eq, read]
  rfl

theorem assembleStatements_of_frontEnd {assembler : Assembler} {statements lowered : List Statement}
    (lowers : assembler.frontEnd statements = .ok lowered) :
    assembler.assembleStatements statements =
      match Layout.bindLabels .empty 0 lowered with
      | .error error => .error error
      | .ok table =>
          ((Layout.place lowered).mapM (PlacedStatement.encode table)).map (⟨table, ·⟩) := by
  rw [assembleStatements_eq, lowers]
  change (FirstPass.ofStatements lowered).bind _ = _
  rw [FirstPass.ofStatements_eq]
  cases Layout.bindLabels .empty 0 lowered with
  | error error => rfl
  | ok table =>
      change ((Layout.place lowered).mapM (PlacedStatement.encode table)).bind _ =
        ((Layout.place lowered).mapM (PlacedStatement.encode table)).map _
      cases (Layout.place lowered).mapM (PlacedStatement.encode table) <;> rfl

theorem assembleStatements_default (config : Config) (statements : List Statement) :
    ({ config } : Assembler).assembleStatements statements =
      match Layout.bindLabels .empty 0 statements with
      | .error error => .error error
      | .ok table =>
          ((Layout.place statements).mapM (PlacedStatement.encode table)).map (⟨table, ·⟩) :=
  assembleStatements_of_frontEnd rfl

theorem assembleStatements_of_symbols (config : Config) {statements : List Statement}
    {table : SymbolTable} (symbols : table.symbols = definitions 0 statements) :
    ({ config } : Assembler).assembleStatements statements =
      ((Layout.place statements).mapM (PlacedStatement.encode table)).map (⟨table, ·⟩) := by
  have bound := (Layout.bindLabels_eq_ok_iff statements table).mpr symbols
  rw [assembleStatements_default, bound]

theorem assembleStatements_eq_ok_iff {assembler : Assembler} {statements lowered : List Statement}
    (lowers : assembler.frontEnd statements = .ok lowered) (program : Program) :
    assembler.assembleStatements statements = .ok program ↔ Assembled lowered program := by
  rw [assembleStatements_of_frontEnd lowers]
  cases program with
  | mk table instructions =>
      cases ended : Layout.bindLabels .empty 0 lowered with
      | error error =>
          simp only [reduceCtorEq, false_iff]
          intro assembled
          rw [(Layout.bindLabels_eq_ok_iff lowered table).mpr assembled.symbols] at ended
          simp at ended
      | ok other =>
          have symbols := (Layout.bindLabels_eq_ok_iff lowered other).mp ended
          simp only [Result.map_eq_ok_iff, Result.mapM_eq_ok_iff, Program.mk.injEq]
          constructor
          · rintro ⟨words, encoded, rfl, rfl⟩
            exact ⟨symbols, encoded⟩
          · intro assembled
            have same := SymbolTable.eq_of_symbols_eq (symbols.trans assembled.symbols.symm)
            exact ⟨instructions, same ▸ assembled.encodes, same, rfl⟩

end Assembler

end TwoPass
