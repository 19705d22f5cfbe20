import TwoPass.Proofs.SecondPass

/-!
What the events of a run tell. A stage reports once it has ended well, and the second pass after
every statement besides; so the log says how far the run got. The stages count the instructions in
different ways, the first pass by addresses of 32 bits, and their counts agree as long as every
instruction has an address of its own.
-/

namespace TwoPass

def encodedEvents (first : Nat) (statements : List Statement) (words : List UInt16) : List Event :=
  ((statements.zip words).zipIdx first).map fun ((statement, word), index) =>
    .encoded index.toUInt32 word statement.name

def encodedFrom (first : Nat) (statements : List Statement) (words : List UInt16) :
    List EncodedInstruction :=
  ((statements.zip words).zipIdx first).map fun ((statement, word), index) =>
    ⟨index.toUInt32, word, statement.line⟩

/-- The log of a run over statements, by the stage that ended it. -/
inductive StatementLog (assembler : Assembler) (statements : List Statement) :
    List Event → Except AssemblyError Program → Prop where
  | refused {error : AssemblyError} (failed : assembler.frontEnd statements = .error error) :
      StatementLog assembler statements [] (.error error)
  | repeated {lowered : List Statement} {label : String} {line firstLine : Nat}
      (lowers : assembler.frontEnd statements = .ok lowered)
      (repeats : FirstRepeat lowered label line firstLine) :
      StatementLog assembler statements
        [.frontEndDone (addressCount statements) (addressCount lowered)]
        (.error (.duplicateLabel label line firstLine))
  | unencodable {lowered earlier later : List Statement} {table : SymbolTable}
      {words : List UInt16} {fault : Statement} {cause : EncodeError}
      (lowers : assembler.frontEnd statements = .ok lowered)
      (symbols : table.symbols = definitions 0 lowered)
      (split : code lowered = earlier ++ fault :: later)
      (encodes : earlier.map (Statement.encode table) = words.map .ok)
      (failed : fault.encode table = .error cause) :
      StatementLog assembler statements
        (.frontEndDone (addressCount statements) (addressCount lowered) ::
          .firstPassDone (labels lowered).length (addressCount lowered).toUInt32 ::
          encodedEvents 0 earlier words)
        (.error (.encode earlier.length.toUInt32 fault.line cause))
  | complete {lowered : List Statement} {table : SymbolTable} {words : List UInt16}
      (lowers : assembler.frontEnd statements = .ok lowered)
      (symbols : table.symbols = definitions 0 lowered)
      (encodes : (code lowered).map (Statement.encode table) = words.map .ok) :
      StatementLog assembler statements
        (.frontEndDone (addressCount statements) (addressCount lowered) ::
          .firstPassDone (labels lowered).length (addressCount lowered).toUInt32 ::
          (encodedEvents 0 (code lowered) words ++ [.secondPassDone words.length]))
        (.ok ⟨table, encodedFrom 0 (code lowered) words⟩)

theorem length_encodedFrom {table : SymbolTable} {statements : List Statement}
    {words : List UInt16} (encodes : statements.map (Statement.encode table) = words.map .ok)
    (first : Nat) :
    (encodedFrom first statements words).length = words.length ∧
      words.length = statements.length := by
  have sameLength : statements.length = words.length := by
    simpa using congrArg List.length encodes
  simp [encodedFrom, sameLength]

namespace Program

theorem encodeAll_placedFrom {table : SymbolTable} {statements : List Statement}
    {words : List UInt16} (encodes : statements.map (Statement.encode table) = words.map .ok)
    (first : Nat) (later : List PlacedStatement) :
    encodeAll table (placedFrom first statements ++ later) =
      ⟨encodedEvents first statements words ++ (encodeAll table later).events,
       (encodeAll table later).result.map (encodedFrom first statements words ++ ·)⟩ := by
  induction statements generalizing words first with
  | nil =>
      change encodeAll table later = ⟨_, (encodeAll table later).result.map id⟩
      rw [Except.map_id]
      rfl
  | cons statement rest ih =>
      cases words with
      | nil => simp at encodes
      | cons word others =>
          rw [List.map_cons, List.map_cons, List.cons.injEq] at encodes
          have success : PlacedStatement.encode table ⟨first.toUInt32, statement⟩ =
              .ok ⟨first.toUInt32, word, statement.line⟩ :=
            (PlacedStatement.encode_eq_ok_iff _ _ _).mpr ⟨rfl, rfl, encodes.1⟩
          change encodeBefore table ⟨first.toUInt32, statement⟩
            (encodeAll table (placedFrom (first + 1) rest ++ later)) = _
          rw [ih encodes.2 (first + 1), encodeBefore, success]
          cases (encodeAll table later).result <;> rfl

theorem encodeAll_of_words {table : SymbolTable} {statements : List Statement}
    {words : List UInt16}
    (encodes : (code statements).map (Statement.encode table) = words.map .ok) :
    encodeAll table (Layout.place statements) =
      ⟨encodedEvents 0 (code statements) words, .ok (encodedFrom 0 (code statements) words)⟩ := by
  have run := encodeAll_placedFrom encodes 0 []
  rw [List.append_nil] at run
  change encodeAll table (placedFrom 0 (code statements)) = _
  rw [run]
  simp [encodeAll, Except.map]

theorem encodeAll_of_fault {table : SymbolTable} {statements earlier later : List Statement}
    {fault : Statement} {words : List UInt16} {cause : EncodeError}
    (split : code statements = earlier ++ fault :: later)
    (encodes : earlier.map (Statement.encode table) = words.map .ok)
    (failed : fault.encode table = .error cause) :
    encodeAll table (Layout.place statements) =
      ⟨encodedEvents 0 earlier words,
       .error (.encode earlier.length.toUInt32 fault.line cause)⟩ := by
  have stops : PlacedStatement.encode table ⟨earlier.length.toUInt32, fault⟩ =
      .error (.encode earlier.length.toUInt32 fault.line cause) :=
    (PlacedStatement.encode_eq_error_iff _ _ _).mpr ⟨cause, failed, rfl⟩
  have ended : encodeAll table (placedFrom (0 + earlier.length) (fault :: later)) =
      ⟨[], .error (.encode earlier.length.toUInt32 fault.line cause)⟩ := by
    rw [Nat.zero_add]
    change encodeBefore table ⟨earlier.length.toUInt32, fault⟩ _ = _
    rw [encodeBefore, stops]
  change encodeAll table (placedFrom 0 (code statements)) = _
  rw [split, placedFrom_append, encodeAll_placedFrom encodes, ended, List.append_nil]
  rfl

theorem ofLayout_of_ok {table : SymbolTable} {placed : List PlacedStatement} {events : List Event}
    {instructions : List EncodedInstruction}
    (run : encodeAll table placed = ⟨events, .ok instructions⟩) :
    ofLayout ⟨table, placed⟩ =
      ⟨events ++ [.secondPassDone instructions.length], .ok ⟨table, instructions⟩⟩ := by
  rw [ofLayout, run]
  rfl

theorem ofLayout_of_error {table : SymbolTable} {placed : List PlacedStatement}
    {events : List Event} {error : AssemblyError}
    (run : encodeAll table placed = ⟨events, .error error⟩) :
    ofLayout ⟨table, placed⟩ = ⟨events, .error error⟩ := by
  rw [ofLayout, run]
  rfl

end Program

namespace Event

def placement? : Event → Option (UInt32 × UInt16)
  | encoded address word _ => some (address, word)
  | _ => none

def instructions? : Event → Option Nat
  | frontEndDone _ after => some after
  | firstPassDone _ instructions => some instructions.toNat
  | secondPassDone instructions => some instructions
  | _ => none

end Event

theorem placements_encodedEvents (first : Nat) (statements : List Statement)
    (words : List UInt16) :
    (encodedEvents first statements words).filterMap Event.placement? =
      (encodedFrom first statements words).map fun encoded => (encoded.address, encoded.word) := by
  rw [encodedEvents, encodedFrom, List.filterMap_map, List.map_map, ← List.filterMap_eq_map]
  rfl

theorem instructions_encodedEvents (first : Nat) (statements : List Statement)
    (words : List UInt16) :
    (encodedEvents first statements words).filterMap Event.instructions? = [] := by
  rw [encodedEvents, List.filterMap_map, List.filterMap_eq_nil_iff]
  intro entry _
  rfl

namespace Assembler

variable {assembler : Assembler} {statements lowered : List Statement}

theorem runStatements_of_refused {error : AssemblyError}
    (failed : assembler.frontEnd statements = .error error) :
    assembler.runStatements statements = ⟨[], .error error⟩ := by
  rw [runStatements, failed]
  rfl

theorem runStatements_of_frontEnd (lowers : assembler.frontEnd statements = .ok lowered) :
    assembler.runStatements statements = (do
      Run.report (.frontEndDone (addressCount statements) (addressCount lowered))
      let pass ← Run.ofExcept (FirstPass.ofStatements lowered)
      Run.report (.firstPassDone pass.symbols.size pass.next)
      Program.ofLayout pass.layout) := by
  rw [runStatements, lowers]
  rfl

theorem runStatements_of_repeated {error : AssemblyError}
    (lowers : assembler.frontEnd statements = .ok lowered)
    (failed : Layout.bindLabels .empty 0 lowered = .error error) :
    assembler.runStatements statements =
      ⟨[.frontEndDone (addressCount statements) (addressCount lowered)], .error error⟩ := by
  rw [runStatements_of_frontEnd lowers, FirstPass.ofStatements_eq, failed]
  rfl

theorem length_symbols {table : SymbolTable} (symbols : table.symbols = definitions 0 lowered) :
    table.symbols.length = (labels lowered).length := by
  rw [← map_label_definitions 0, ← symbols, List.length_map]

theorem runStatements_of_symbols {table : SymbolTable}
    (lowers : assembler.frontEnd statements = .ok lowered)
    (symbols : table.symbols = definitions 0 lowered) :
    assembler.runStatements statements =
      ⟨.frontEndDone (addressCount statements) (addressCount lowered) ::
        .firstPassDone (labels lowered).length (addressCount lowered).toUInt32 ::
        (Program.ofLayout ⟨table, Layout.place lowered⟩).events,
       (Program.ofLayout ⟨table, Layout.place lowered⟩).result⟩ := by
  rw [runStatements_of_frontEnd lowers, FirstPass.ofStatements_eq,
    (Layout.bindLabels_eq_ok_iff lowered table).mpr symbols, ← length_symbols symbols]
  rfl

theorem runStatements_of_words {table : SymbolTable} {words : List UInt16}
    (lowers : assembler.frontEnd statements = .ok lowered)
    (symbols : table.symbols = definitions 0 lowered)
    (encodes : (code lowered).map (Statement.encode table) = words.map .ok) :
    assembler.runStatements statements =
      ⟨.frontEndDone (addressCount statements) (addressCount lowered) ::
        .firstPassDone (labels lowered).length (addressCount lowered).toUInt32 ::
        (encodedEvents 0 (code lowered) words ++ [.secondPassDone words.length]),
       .ok ⟨table, encodedFrom 0 (code lowered) words⟩⟩ := by
  rw [runStatements_of_symbols lowers symbols,
    Program.ofLayout_of_ok (Program.encodeAll_of_words encodes), (length_encodedFrom encodes 0).1]

theorem runStatements_of_fault {table : SymbolTable} {earlier later : List Statement}
    {fault : Statement} {words : List UInt16} {cause : EncodeError}
    (lowers : assembler.frontEnd statements = .ok lowered)
    (symbols : table.symbols = definitions 0 lowered)
    (split : code lowered = earlier ++ fault :: later)
    (encodes : earlier.map (Statement.encode table) = words.map .ok)
    (failed : fault.encode table = .error cause) :
    assembler.runStatements statements =
      ⟨.frontEndDone (addressCount statements) (addressCount lowered) ::
        .firstPassDone (labels lowered).length (addressCount lowered).toUInt32 ::
        encodedEvents 0 earlier words,
       .error (.encode earlier.length.toUInt32 fault.line cause)⟩ := by
  rw [runStatements_of_symbols lowers symbols,
    Program.ofLayout_of_error (Program.encodeAll_of_fault split encodes failed)]

theorem statementLog_of_runStatements (assembler : Assembler) (statements : List Statement) :
    StatementLog assembler statements (assembler.runStatements statements).events
      (assembler.runStatements statements).result := by
  -- one case for each stage that can fail: what it would have reported is not in the log
  cases lowers : assembler.frontEnd statements with
  | error error =>
      rw [runStatements_of_refused lowers]
      exact .refused lowers
  | ok lowered =>
      cases bound : Layout.bindLabels .empty 0 lowered with
      | error error =>
          rw [runStatements_of_repeated lowers bound]
          obtain ⟨label, line, firstLine, repeats, rfl⟩ := Layout.firstRepeat_of_bindLabels bound
          exact .repeated lowers repeats
      | ok table =>
          have symbols := (Layout.bindLabels_eq_ok_iff lowered table).mp bound
          rcases Result.all_ok_or_first_error (Statement.encode table) (code lowered) with
            ⟨words, encodes⟩ | ⟨earlier, later, fault, words, cause, split, encodes, failed⟩
          · rw [runStatements_of_words lowers symbols encodes]
            exact .complete lowers symbols encodes
          · rw [runStatements_of_fault lowers symbols split encodes failed]
            exact .unencodable lowers symbols split encodes failed

end Assembler

theorem secondPassDone_not_mem_encodedEvents (first : Nat) (statements : List Statement)
    (words : List UInt16) (instructions : Nat) :
    .secondPassDone instructions ∉ encodedEvents first statements words := by
  intro member
  obtain ⟨entry, _, same⟩ := List.mem_map.mp member
  simp at same

namespace StatementLog

variable {assembler : Assembler} {statements : List Statement} {events : List Event}
  {result : Except AssemblyError Program}

theorem exists_secondPassDone_iff (log : StatementLog assembler statements events result) :
    (∃ instructions, .secondPassDone instructions ∈ events) ↔ ∃ program, result = .ok program := by
  cases log with
  | refused failed => simp
  | repeated lowers repeats => simp
  | unencodable lowers symbols split encodes failed =>
      simp [secondPassDone_not_mem_encodedEvents]
  | complete lowers symbols encodes => simp

theorem of_ok {program : Program} (log : StatementLog assembler statements events (.ok program)) :
    events.filterMap Event.placement? =
      program.instructions.map (fun encoded => (encoded.address, encoded.word)) ∧
    events.filterMap Event.instructions? =
      [program.instructions.length, program.instructions.length.toUInt32.toNat,
        program.instructions.length] := by
  cases log with
  | @complete lowered table words lowers symbols encodes =>
      obtain ⟨count, wordCount⟩ := length_encodedFrom encodes 0
      rw [length_code] at wordCount
      constructor
      · -- the two events before them place nothing
        change (encodedEvents 0 (code lowered) words ++ [_]).filterMap Event.placement? = _
        rw [List.filterMap_append, placements_encodedEvents]
        exact List.append_nil _
      · simp [Event.instructions?, instructions_encodedEvents, count, wordCount]

theorem of_encode_error {lowered : List Statement} {address : UInt32} {line : Nat}
    {cause : EncodeError} (lowers : assembler.frontEnd statements = .ok lowered)
    (log : StatementLog assembler statements events (.error (.encode address line cause))) :
    address = (events.filterMap Event.placement?).length.toUInt32 ∧
    (events.filterMap Event.placement?).length < addressCount lowered := by
  cases log with
  | refused failed =>
      rw [lowers] at failed
      simp at failed
  | @unencodable other earlier later table words fault _ otherLowers symbols split encodes
      failed =>
      rw [lowers, Except.ok.injEq] at otherLowers
      subst other
      obtain ⟨count, wordCount⟩ := length_encodedFrom encodes 0
      have reported : ((encodedEvents 0 earlier words).filterMap Event.placement?).length =
          earlier.length := by
        rw [placements_encodedEvents, List.length_map, count, wordCount]
      have inside : earlier.length < addressCount lowered := by
        rw [← length_code, split, List.length_append, List.length_cons]
        omega
      change _ = ((encodedEvents 0 earlier words).filterMap Event.placement?).length.toUInt32 ∧
        ((encodedEvents 0 earlier words).filterMap Event.placement?).length < _
      rw [reported]
      exact ⟨rfl, inside⟩

end StatementLog

/-- What the log of a run over statements tells. Addresses and the count of the first pass have 32
bits: the counts agree, and the address at fault is the number of statements encoded before it, as
long as that many can be counted. -/
structure Logged (assembler : Assembler) (statements : List Statement) (events : List Event)
    (result : Except AssemblyError Program) : Prop where
  log : StatementLog assembler statements events result
  finished : (∃ instructions, .secondPassDone instructions ∈ events) ↔
    ∃ program, result = .ok program
  success : ∀ program, result = .ok program →
    events.filterMap Event.placement? =
      program.instructions.map (fun encoded => (encoded.address, encoded.word)) ∧
    events.filterMap Event.instructions? =
      [program.instructions.length, program.instructions.length.toUInt32.toNat,
        program.instructions.length] ∧
    (program.instructions.length < UInt32.size →
      events.filterMap Event.instructions? = List.replicate 3 program.instructions.length)
  failure : ∀ lowered address line cause, assembler.frontEnd statements = .ok lowered →
    result = .error (.encode address line cause) →
    (events.filterMap Event.placement?).length < addressCount lowered ∧
    address = (events.filterMap Event.placement?).length.toUInt32 ∧
    ((events.filterMap Event.placement?).length < UInt32.size →
      (events.filterMap Event.placement?).length = address.toNat) ∧
    ∀ instructions, .secondPassDone instructions ∉ events

theorem StatementLog.logged {assembler : Assembler} {statements : List Statement}
    {events : List Event} {result : Except AssemblyError Program}
    (log : StatementLog assembler statements events result) :
    Logged assembler statements events result where
  log := log
  finished := log.exists_secondPassDone_iff
  success program ended := by
    obtain ⟨placements, counts⟩ := of_ok (ended ▸ log)
    refine ⟨placements, counts, fun small => ?_⟩
    rw [UInt32.toNat_ofNat_of_lt' small] at counts
    exact counts
  failure lowered address line cause lowers ended := by
    subst result
    obtain ⟨same, inside⟩ := of_encode_error lowers log
    refine ⟨inside, same, fun small => ?_, fun instructions member => ?_⟩
    · rw [same]
      exact (UInt32.toNat_ofNat_of_lt' small).symm
    · obtain ⟨program, success⟩ := log.exists_secondPassDone_iff.mp ⟨instructions, member⟩
      simp at success

inductive SourceLog (assembler : Assembler) (source : String) :
    List Event → Except AssemblyError Program → Prop where
  | unreadable {error : AssemblyError} (failed : Statement.ofSource source = .error error) :
      SourceLog assembler source [] (.error error)
  | parsed {statements : List Statement} {events : List Event}
      {result : Except AssemblyError Program} (read : Statement.ofSource source = .ok statements)
      (logged : Logged assembler statements events result) :
      SourceLog assembler source (.sourceParsed statements.length :: events) result

namespace Assembler

/-- The events of every run are those of the stages that it completed, in their order. -/
theorem run_logged (assembler : Assembler) :
    (∀ statements, Logged assembler statements (assembler.runStatements statements).events
      (assembler.assembleStatements statements)) ∧
    ∀ source, SourceLog assembler source (assembler.runSource source).events
      (assembler.assemble source) := by
  have overStatements (statements : List Statement) :
      Logged assembler statements (assembler.runStatements statements).events
        (assembler.runStatements statements).result :=
    (statementLog_of_runStatements assembler statements).logged
  refine ⟨overStatements, fun source => ?_⟩
  unfold assemble
  cases read : Statement.ofSource source with
  | error error =>
      have run : assembler.runSource source = ⟨[], .error error⟩ := by
        rw [runSource, read]
        rfl
      rw [run]
      exact .unreadable read
  | ok statements =>
      have run : assembler.runSource source =
          ⟨.sourceParsed statements.length :: (assembler.runStatements statements).events,
           (assembler.runStatements statements).result⟩ := by
        rw [runSource, read]
        rfl
      rw [run]
      exact .parsed read (overStatements statements)

example : (({} : Assembler).runSource "a: JUMP a\nADD R9\nHALT").events =
    [.sourceParsed 3, .frontEndDone 3 3, .firstPassDone 1 3, .encoded 0 0xC000 "JUMP"] := rfl

def halts (count : Nat) : List Statement :=
  List.replicate count ⟨1, some "HALT", [], none⟩

def bareAdd : Statement :=
  ⟨1, some "ADD", [], none⟩

theorem code_halts (count : Nat) : code (halts count) = halts count := by
  simp [code, halts, Statement.isPlaced]

theorem encode_halts (table : SymbolTable) (count : Nat) :
    (halts count).map (Statement.encode table) =
      (List.replicate count (0xF000 : UInt16)).map .ok := by
  rw [halts, List.map_replicate, List.map_replicate]
  rfl

theorem definitions_of_labels {statements : List Statement} (none : labels statements = []) :
    SymbolTable.empty.symbols = definitions 0 statements := by
  rw [← map_label_definitions 0, List.map_eq_nil_iff] at none
  exact none.symm

theorem counts_of_halts (count : Nat) :
    ∃ program, ({} : Assembler).assembleStatements (halts count) = .ok program ∧
      program.instructions.length = count ∧
      (({} : Assembler).runStatements (halts count)).events.filterMap Event.instructions? =
        [count, count.toUInt32.toNat, count] := by
  have symbols : SymbolTable.empty.symbols = definitions 0 (halts count) :=
    definitions_of_labels (by simp [labels, halts])
  have encodes : (code (halts count)).map (Statement.encode .empty) =
      (List.replicate count (0xF000 : UInt16)).map .ok := by
    rw [code_halts, encode_halts]
  have run := @runStatements_of_words {} (halts count) _ _ _ rfl symbols encodes
  have log := statementLog_of_runStatements {} (halts count)
  obtain ⟨length, _⟩ := length_encodedFrom encodes 0
  rw [List.length_replicate] at length
  refine ⟨_, congrArg Run.result run, length, ?_⟩
  rw [run] at log ⊢
  have counted := log.of_ok.2
  rwa [length] at counted

theorem fault_after_halts (count : Nat) :
    ({} : Assembler).assembleStatements (halts count ++ [bareAdd]) =
        .error (.encode count.toUInt32 1 (.missingOperand .add 3 1)) ∧
      ((({} : Assembler).runStatements (halts count ++ [bareAdd])).events.filterMap
        Event.placement?).length = count := by
  have symbols : SymbolTable.empty.symbols = definitions 0 (halts count ++ [bareAdd]) :=
    definitions_of_labels (by simp [labels, halts, bareAdd])
  have split : code (halts count ++ [bareAdd]) = halts count ++ bareAdd :: [] := by
    rw [code_append, code_halts]
    rfl
  have run := @runStatements_of_fault {} _ _ _ _ _ _ _ _ rfl symbols split
    (encode_halts .empty count) rfl
  rw [assembleStatements, run]
  have length : (halts count).length = count := List.length_replicate
  obtain ⟨encoded, words⟩ := length_encodedFrom (encode_halts .empty count) 0
  constructor
  · rw [length]
    rfl
  · change ((encodedEvents 0 _ _).filterMap Event.placement?).length = count
    rw [placements_encodedEvents, List.length_map, encoded, words, length]

/-- Past the last address the first pass counts from 0 again: it reports no instructions where as
many as there are addresses are encoded, and so many are encoded before a fault at the address 0. -/
theorem counts_past_last_address :
    (∃ program, ({} : Assembler).assembleStatements (halts UInt32.size) = .ok program ∧
      program.instructions.length = UInt32.size ∧
      (({} : Assembler).runStatements (halts UInt32.size)).events.filterMap Event.instructions? =
        [UInt32.size, 0, UInt32.size]) ∧
    ({} : Assembler).assembleStatements (halts UInt32.size ++ [bareAdd]) =
        .error (.encode 0 1 (.missingOperand .add 3 1)) ∧
    ((({} : Assembler).runStatements (halts UInt32.size ++ [bareAdd])).events.filterMap
      Event.placement?).length = UInt32.size := by
  have wrapped : UInt32.size.toUInt32 = 0 := by decide
  have counted := counts_of_halts UInt32.size
  have fault := fault_after_halts UInt32.size
  rw [wrapped] at counted fault
  exact ⟨counted, fault⟩

end Assembler

end TwoPass
