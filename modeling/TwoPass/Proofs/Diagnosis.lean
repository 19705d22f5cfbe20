import TwoPass.Proofs.SecondPass
import TwoPass.Proofs.Source

/-!
Which error a run reports. The stages come first and positions within a stage second: a line that
cannot be read decides over every repeated label, and a repeated label over every statement without
a word, wherever they stand in the source.
-/

namespace TwoPass

theorem firstFailure_place_iff (table : SymbolTable) (statements : List Statement) (index : Nat)
    (error : AssemblyError) :
    (∃ placed, Result.FirstFailure (PlacedStatement.encode table) (Layout.place statements) index
      placed error) ↔
      ∃ statement cause, Result.FirstFailure (Statement.encode table) (code statements) index
        statement cause ∧ error = .encode index.toUInt32 statement.line cause := by
  simp only [Result.FirstFailure, Layout.getElem?_place, Option.map_eq_some_iff]
  constructor
  · rintro ⟨_, ⟨statement, found, rfl⟩, failed, before⟩
    obtain ⟨cause, rejected, rfl⟩ := (PlacedStatement.encode_eq_error_iff _ _ _).mp failed
    refine ⟨statement, cause, ⟨found, rejected, ?_⟩, rfl⟩
    intro earlier below other otherFound
    obtain ⟨encoded, passed⟩ := before earlier below _ ⟨other, otherFound, rfl⟩
    exact ⟨encoded.word, ((PlacedStatement.encode_eq_ok_iff _ _ _).mp passed).2.2⟩
  · rintro ⟨statement, cause, ⟨found, rejected, before⟩, rfl⟩
    refine ⟨_, ⟨statement, found, rfl⟩,
      (PlacedStatement.encode_eq_error_iff _ _ _).mpr ⟨cause, rejected, rfl⟩, ?_⟩
    rintro earlier below _ ⟨other, otherFound, rfl⟩
    obtain ⟨word, passed⟩ := before earlier below other otherFound
    exact ⟨⟨earlier.toUInt32, word, other.line⟩,
      (PlacedStatement.encode_eq_ok_iff _ _ _).mpr ⟨rfl, rfl, passed⟩⟩

inductive Ending (source : String) : Except AssemblyError Program → Prop where
  | malformed {line : Nat} {reason : String}
      (refused : LineError source line (.malformed line reason))
      (first : ∀ earlier < line, ¬LineRejected source earlier) :
      Ending source (.error (.malformed line reason))
  | repeated {statements : List Statement} {label : String} {line firstLine : Nat}
      (read : Statement.ofSource source = .ok statements)
      (repeats : FirstRepeat statements label line firstLine) :
      Ending source (.error (.duplicateLabel label line firstLine))
  | unencodable {statements : List Statement} {table : SymbolTable} {index : Nat}
      {statement : Statement} {cause : EncodeError}
      (read : Statement.ofSource source = .ok statements)
      (symbols : table.symbols = definitions 0 statements)
      (failure : Result.FirstFailure (Statement.encode table) (code statements) index statement
        cause) :
      Ending source (.error (.encode index.toUInt32 statement.line cause))
  | complete {statements : List Statement} {table : SymbolTable} {program : Program}
      (read : Statement.ofSource source = .ok statements)
      (symbols : table.symbols = definitions 0 statements)
      (words : ∀ statement ∈ code statements, ∃ word, statement.encode table = .ok word) :
      Ending source (.ok program)

/-- The result of a run is the one that its source calls for. -/
structure Diagnosed (source : String) (result : Except AssemblyError Program) : Prop where
  malformed : ∀ line, (∃ reason, result = .error (.malformed line reason)) ↔
    LineRejected source line ∧ ∀ earlier < line, ¬LineRejected source earlier
  reason : ∀ line reason, result = .error (.malformed line reason) →
    LineError source line (.malformed line reason)
  readable : (∃ statements, Statement.ofSource source = .ok statements) ↔
    ∀ line, ¬LineRejected source line
  repeated : ∀ label line firstLine, result = .error (.duplicateLabel label line firstLine) ↔
    ∃ statements, Statement.ofSource source = .ok statements ∧
      FirstRepeat statements label line firstLine
  ordered : ∀ label line firstLine, result = .error (.duplicateLabel label line firstLine) →
    firstLine < line
  unencodable : ∀ address line cause, result = .error (.encode address line cause) ↔
    ∃ statements table statement, Statement.ofSource source = .ok statements ∧
      SymbolTable.symbols table = definitions 0 statements ∧
      Result.FirstFailure (Statement.encode table) (code statements) address.toNat statement
        cause ∧ statement.line = line
  complete : (∃ program, result = .ok program) ↔
    ∃ statements table, Statement.ofSource source = .ok statements ∧
      SymbolTable.symbols table = definitions 0 statements ∧
      ∀ statement ∈ code statements, ∃ word, statement.encode table = .ok word
  fits : ∀ count capacity, result ≠ .error (.programTooLarge count capacity)
  malformedFirst : ∀ line, LineRejected source line →
    ∃ first reason, first ≤ line ∧ result = .error (.malformed first reason)
  repeatedFirst : ∀ statements, Statement.ofSource source = .ok statements →
    ¬(labels statements).Nodup →
    ∃ label line firstLine, result = .error (.duplicateLabel label line firstLine)

namespace Assembler

variable (config : Config) {source : String} {statements : List Statement} {table : SymbolTable}

theorem assemble_of_lineRejected {line : Nat} (rejected : LineRejected source line)
    (first : ∀ earlier < line, ¬LineRejected source earlier) :
    ∃ reason, LineError source line (.malformed line reason) ∧
      ({ config } : Assembler).assemble source = .error (.malformed line reason) := by
  obtain ⟨error, refused⟩ := rejected
  obtain ⟨reason, rfl⟩ := refused.malformed
  have read := (Statement.ofSource_eq_error_iff source _).mpr ⟨line, refused, first⟩
  rw [assemble_eq, read]
  exact ⟨reason, refused, rfl⟩

theorem assemble_of_firstRepeat {label : String} {line firstLine : Nat}
    (read : Statement.ofSource source = .ok statements)
    (repeats : FirstRepeat statements label line firstLine) :
    ({ config } : Assembler).assemble source = .error (.duplicateLabel label line firstLine) := by
  have failed := (Layout.bindLabels_eq_error_iff statements _).mpr
    ⟨label, line, firstLine, repeats, rfl⟩
  rw [assemble_of_ofSource _ read, assembleStatements_default, failed]

theorem assemble_of_firstFailure {index : Nat} {statement : Statement} {cause : EncodeError}
    (read : Statement.ofSource source = .ok statements)
    (symbols : table.symbols = definitions 0 statements)
    (failure : Result.FirstFailure (Statement.encode table) (code statements) index statement
      cause) :
    ({ config } : Assembler).assemble source =
      .error (.encode index.toUInt32 statement.line cause) := by
  obtain ⟨placed, placedFailure⟩ :=
    (firstFailure_place_iff table statements index _).mpr ⟨statement, cause, failure, rfl⟩
  rw [assemble_of_ofSource _ read, assembleStatements_of_symbols config symbols,
    Result.map_eq_error_iff, Result.mapM_eq_error_iff]
  exact ⟨index, placed, placedFailure⟩

theorem assemble_of_words (read : Statement.ofSource source = .ok statements)
    (symbols : table.symbols = definitions 0 statements)
    (words : ∀ statement ∈ code statements, ∃ word, statement.encode table = .ok word) :
    ∃ program, ({ config } : Assembler).assemble source = .ok program := by
  rw [assemble_of_ofSource _ read, assembleStatements_of_symbols config symbols]
  cases ended : (Layout.place statements).mapM (PlacedStatement.encode table) with
  | ok instructions => exact ⟨⟨table, instructions⟩, rfl⟩
  | error error =>
      obtain ⟨index, placed, failure⟩ := (Result.mapM_eq_error_iff _ _ _).mp ended
      obtain ⟨statement, cause, ⟨found, rejected, _⟩, _⟩ :=
        (firstFailure_place_iff table statements index error).mp ⟨placed, failure⟩
      obtain ⟨word, passed⟩ := words statement (List.mem_of_getElem? found)
      rw [rejected] at passed
      simp at passed

theorem ending_of_assemble {result : Except AssemblyError Program}
    (ended : ({ config } : Assembler).assemble source = result) : Ending source result := by
  rw [← ended]
  cases read : Statement.ofSource source with
  | error error =>
      obtain ⟨line, refused, first⟩ := (Statement.ofSource_eq_error_iff source error).mp read
      obtain ⟨reason, malformed, failed⟩ := assemble_of_lineRejected config ⟨error, refused⟩ first
      rw [failed]
      exact .malformed malformed first
  | ok statements =>
      cases bound : Layout.bindLabels .empty 0 statements with
      | error error =>
          obtain ⟨label, line, firstLine, repeats, _⟩ := Layout.firstRepeat_of_bindLabels bound
          rw [assemble_of_firstRepeat config read repeats]
          exact .repeated read repeats
      | ok table =>
          have symbols := (Layout.bindLabels_eq_ok_iff statements table).mp bound
          cases words : (code statements).mapM (Statement.encode table) with
          | error cause =>
              obtain ⟨index, statement, failure⟩ := (Result.mapM_eq_error_iff _ _ _).mp words
              rw [assemble_of_firstFailure config read symbols failure]
              exact .unencodable read symbols failure
          | ok values =>
              have encodes : ∀ statement ∈ code statements,
                  ∃ word, statement.encode table = .ok word :=
                fun statement member => Result.exists_of_mapM_eq_ok words member
              obtain ⟨program, success⟩ := assemble_of_words config read symbols encodes
              rw [success]
              exact .complete read symbols encodes

/-- A run reports the first unreadable line; without one, the first repeated label; without that
too, the first statement without a word; and otherwise it gives a program. -/
theorem assemble_diagnosed (config : Config) (source : String)
    (small : ∀ statements, Statement.ofSource source = .ok statements →
      addressCount statements < UInt32.size) :
    Diagnosed source (({ config } : Assembler).assemble source) where
  malformed line := by
    constructor
    · rintro ⟨reason, failed⟩
      cases ending_of_assemble config failed with
      | malformed refused first => exact ⟨⟨_, refused⟩, first⟩
    · rintro ⟨rejected, first⟩
      obtain ⟨reason, _, failed⟩ := assemble_of_lineRejected config rejected first
      exact ⟨reason, failed⟩
  reason line reason failed := by
    cases ending_of_assemble config failed with
    | malformed refused first => exact refused
  readable := Statement.exists_ofSource_eq_ok_iff source
  repeated label line firstLine := by
    constructor
    · intro failed
      cases ending_of_assemble config failed with
      | repeated read repeats => exact ⟨_, read, repeats⟩
    · rintro ⟨statements, read, repeats⟩
      exact assemble_of_firstRepeat config read repeats
  ordered label line firstLine failed := by
    cases ending_of_assemble config failed with
    | repeated read repeats => exact repeats.line_lt (Statement.lines_increasing read)
  unencodable address line cause := by
    constructor
    · intro failed
      cases ending_of_assemble config failed with
      | @unencodable statements table index statement _ read symbols failure =>
          have inside := (List.getElem?_eq_some_iff.mp failure.1).1
          rw [length_code] at inside
          have same : index.toUInt32.toNat = index :=
            UInt32.toNat_ofNat_of_lt' (Nat.lt_trans inside (small statements read))
          exact ⟨statements, table, statement, read, symbols, same.symm ▸ failure, rfl⟩
    · rintro ⟨statements, table, statement, read, symbols, failure, rfl⟩
      have failed := assemble_of_firstFailure config read symbols failure
      rw [failed]
      simp
  complete := by
    constructor
    · rintro ⟨program, success⟩
      cases ending_of_assemble config success with
      | complete read symbols words => exact ⟨_, _, read, symbols, words⟩
    · rintro ⟨statements, table, read, symbols, words⟩
      exact assemble_of_words config read symbols words
  fits count capacity failed := by
    cases ending_of_assemble config failed
  malformedFirst line rejected := by
    obtain ⟨first, atMost, firstRejected, least⟩ := rejected.exists_first
    obtain ⟨reason, _, failed⟩ := assemble_of_lineRejected config firstRejected least
    exact ⟨first, reason, atMost, failed⟩
  repeatedFirst statements read twice := by
    obtain ⟨label, line, firstLine, repeats⟩ := exists_firstRepeat twice
    exact ⟨label, line, firstLine, assemble_of_firstRepeat config read repeats⟩

theorem assemble_diagnosed_repeated :
    ({} : Assembler).assemble "ADD R9\nloop: HALT\nloop: HALT\n" =
        .error (.duplicateLabel "loop" 3 2) ∧
      Diagnosed "ADD R9\nloop: HALT\nloop: HALT\n"
        (({} : Assembler).assemble "ADD R9\nloop: HALT\nloop: HALT\n") := by
  refine ⟨rfl, assemble_diagnosed {} "ADD R9\nloop: HALT\nloop: HALT\n" ?_⟩
  intro statements read
  have evaluated : Statement.ofSource "ADD R9\nloop: HALT\nloop: HALT\n" =
      .ok [⟨1, some "ADD", ["R9"], none⟩, ⟨2, some "HALT", [], some "loop"⟩,
        ⟨3, some "HALT", [], some "loop"⟩] := rfl
  rw [evaluated, Except.ok.injEq] at read
  rw [← read]
  decide

example : ({} : Assembler).assemble "ADD R9\nloop: HALT\nloop: HALT\n: HALT\n" =
    .error (.malformed 4 "missing label name before ':'") := rfl

end Assembler

end TwoPass
