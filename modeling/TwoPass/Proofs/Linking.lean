import TwoPass.Proofs.SecondPass

/-!
Linking: statements after other statements, when neither part uses a label of the other. The first
part assembles as it does alone. The second part moves up by the size of the first, and each of its
references to a label moves along, as long as the low field has room for it.
-/

namespace TwoPass

def Symbol.shift (offset : Nat) (symbol : Symbol) : Symbol :=
  { symbol with address := symbol.address + offset.toUInt32 }

def Statement.target? (table : SymbolTable) (statement : Statement) : Option UInt32 :=
  statement.valueToken?.bind table.resolve?

/-- Moves an instruction up, and the value in its low field along if it `refers` to a label. -/
def EncodedInstruction.relocate (offset : Nat) (encoded : EncodedInstruction) (refers : Bool) :
    EncodedInstruction :=
  ⟨encoded.address + offset.toUInt32,
    if refers then encoded.word + offset.toUInt16 else encoded.word, encoded.line⟩

def Program.relocate (program : Program) (statements : List Statement) (offset : Nat) :
    List EncodedInstruction :=
  List.zipWith (fun encoded statement =>
    encoded.relocate offset (statement.target? program.symbols).isSome)
    program.instructions (code statements)

/-- If the statement refers to a label, the low field has room for its address after the move. -/
def Program.Reaches (program : Program) (offset : Nat) (statement : Statement) : Prop :=
  ∀ address, statement.target? program.symbols = some address →
    address.toNat + offset ≤ Word.lowMax

theorem definitions_shift (before offset : Nat) (statements : List Statement) :
    definitions (before + offset) statements =
      (definitions before statements).map (Symbol.shift offset) := by
  induction statements generalizing before with
  | nil => rfl
  | cons statement rest ih =>
      have next : before + offset + addressCount [statement] =
          before + addressCount [statement] + offset := by omega
      rw [definitions, definitions, next, ih, List.map_append]
      cases statement.label with
      | none => rfl
      | some label => simp [Symbol.shift]

theorem SymbolTable.resolve?_of_append_left {table left : SymbolTable} {others : List Symbol}
    (symbols : table.symbols = left.symbols ++ others) {label : String}
    (absent : label ∉ others.map Symbol.label) : table.resolve? label = left.resolve? label := by
  have missing : (others.find? fun symbol => symbol.label == label) = none := by
    simpa using absent
  simp [SymbolTable.resolve?, SymbolTable.find?, symbols, List.find?_append, missing]

theorem SymbolTable.resolve?_of_append_shift {table left right : SymbolTable} {offset : Nat}
    (symbols : table.symbols = left.symbols ++ right.symbols.map (Symbol.shift offset))
    {label : String} (absent : label ∉ left.symbols.map Symbol.label) :
    table.resolve? label = (right.resolve? label).map (· + offset.toUInt32) := by
  have missing : (left.symbols.find? fun symbol => symbol.label == label) = none := by
    simpa using absent
  have named (symbol : Symbol) : (symbol.shift offset).label = symbol.label := rfl
  simp only [SymbolTable.resolve?, SymbolTable.find?, symbols, List.find?_append, missing,
    Option.none_or, List.find?_map, Function.comp_def, named, Option.map_map]
  rfl

theorem toNat_add_offset {address : UInt32} {offset : Nat}
    (small : address.toNat + offset < UInt32.size) :
    (address + offset.toUInt32).toNat = address.toNat + offset := by
  have offsetNat : offset.toUInt32.toNat = offset :=
    UInt32.toNat_ofNat_of_lt' (Nat.lt_of_le_of_lt (Nat.le_add_left _ _) small)
  rw [UInt32.toNat_add, offsetNat, Nat.mod_eq_of_lt small]

theorem Statement.encode_relocated {statement : Statement} {table moved : SymbolTable}
    {word : UInt16} {offset : Nat} (encoded : statement.encode table = .ok word)
    (moves : ∀ token, statement.valueToken? = some token → Register.ofToken? token = none →
      moved.resolve? token = (table.resolve? token).map (· + offset.toUInt32))
    (small : ∀ address, statement.target? table = some address →
      address.toNat + offset < UInt32.size) :
    statement.encode moved =
      match statement.target? table with
      | none => .ok word
      | some address =>
          if address.toNat + offset ≤ Word.lowMax then .ok (word + offset.toUInt16)
          else .error (.outOfRange (address.toNat + offset : Nat) Word.lowMax) := by
  cases target : statement.target? table with
  | none =>
      rw [← encoded]
      apply encode_congr
      intro token operand notRegister
      have unbound : table.resolve? token = none := by
        simpa [target?, operand] using target
      rw [moves token operand notRegister, unbound]
      rfl
  | some address =>
      obtain ⟨token, operand, bound⟩ := Option.bind_eq_some_iff.mp target
      have notRegister := notRegister_of_encode_eq_ok encoded operand
      have movedBound : moved.resolve? token = some (address + offset.toUInt32) := by
        rw [moves token operand notRegister, bound]
        rfl
      obtain ⟨reading, read⟩ := exists_read_of_encode_eq_ok encoded
      obtain ⟨make, rfl⟩ := exists_pending read operand
      obtain ⟨high, packed⟩ := word_of_pending read
      have sum := toNat_add_offset (small address target)
      rw [encode_of_label read notRegister bound] at encoded
      rw [encode_of_label read notRegister movedBound, sum]
      simp only
      by_cases fits : address.toNat + offset ≤ Word.lowMax
      · have fitsBefore : address.toNat ≤ Word.lowMax := by omega
        rw [if_pos fitsBefore, Except.ok.injEq] at encoded
        rw [if_pos fits, if_pos fits, Except.ok.injEq]
        apply UInt16.toNat_inj.mp
        have lowBefore := toNat_toUInt8_of_le fitsBefore
        have lowAfter := toNat_toUInt8_of_le fits
        have before := packed address.toNat.toUInt8 (by omega)
        have after := packed (address.toNat + offset).toUInt8 (by omega)
        rw [lowBefore, encoded] at before
        rw [lowAfter] at after
        have limit := (make (address.toNat + offset).toUInt8).word.toNat_lt
        have offsetBound : offset < UInt16.size := by
          have room : Word.lowMax < UInt16.size := by decide
          omega
        have offsetNat : offset.toUInt16.toNat = offset := UInt16.toNat_ofNat_of_lt' offsetBound
        rw [after, UInt16.toNat_add, before, offsetNat]
        omega
      · rw [if_neg fits, if_neg fits]

/-- Neither part defines a label of the other, or names one as an operand. -/
structure Linkable (first second : List Statement) : Prop where
  disjoint : ∀ label ∈ labels first, label ∉ labels second
  firstClosed : ∀ statement ∈ first, ∀ token ∈ statement.operands,
    Register.ofToken? token = none → token ∉ labels second
  secondClosed : ∀ statement ∈ second, ∀ token ∈ statement.operands,
    Register.ofToken? token = none → token ∉ labels first
  small : addressCount first + addressCount second < UInt32.size

theorem mem_of_getElem?_code {statements : List Statement} {index : Nat} {statement : Statement}
    (found : (code statements)[index]? = some statement) : statement ∈ statements :=
  (List.mem_filter.mp (List.mem_of_getElem? found)).1

namespace Linkable

variable {first second : List Statement} {firstProgram secondProgram : Program}
  {table : SymbolTable} (linkable : Linkable first second)
  (left : Assembled first firstProgram) (right : Assembled second secondProgram)

include left right

theorem symbols_append (symbols : table.symbols = definitions 0 (first ++ second)) :
    table.symbols = firstProgram.symbols.symbols ++
      secondProgram.symbols.symbols.map (Symbol.shift (addressCount first)) := by
  have moved := definitions_shift 0 (addressCount first) second
  rw [symbols, definitions_append, moved, left.symbols, right.symbols]

include linkable

theorem exists_table : ∃ table : SymbolTable, table.symbols = definitions 0 (first ++ second) := by
  have distinct : (labels (first ++ second)).Nodup := by
    rw [labels, List.filterMap_append, List.nodup_append]
    refine ⟨left.labels_nodup, right.labels_nodup, ?_⟩
    intro label inFirst other inSecond same
    exact linkable.disjoint label inFirst (same ▸ inSecond)
  rw [← map_label_definitions 0] at distinct
  exact ⟨⟨_, distinct⟩, rfl⟩

variable (symbols : table.symbols = definitions 0 (first ++ second))

include symbols

theorem encode_first {statement : Statement} (member : statement ∈ first) :
    statement.encode table = statement.encode firstProgram.symbols := by
  apply Statement.encode_congr
  intro token operand notRegister
  apply SymbolTable.resolve?_of_append_left (symbols_append left right symbols)
  have absent := linkable.firstClosed statement member token
    (Statement.mem_operands_of_valueToken? operand) notRegister
  rw [List.map_map, show Symbol.label ∘ Symbol.shift _ = Symbol.label from rfl, right.symbols,
    map_label_definitions]
  exact absent

theorem encode_second {statement : Statement} {word : UInt16} (member : statement ∈ second)
    (encoded : statement.encode secondProgram.symbols = .ok word) :
    statement.encode table =
      match statement.target? secondProgram.symbols with
      | none => .ok word
      | some address =>
          if address.toNat + addressCount first ≤ Word.lowMax then
            .ok (word + (addressCount first).toUInt16)
          else .error (.outOfRange (address.toNat + addressCount first : Nat) Word.lowMax) := by
  apply Statement.encode_relocated encoded
  · intro token operand notRegister
    apply SymbolTable.resolve?_of_append_shift (symbols_append left right symbols)
    have absent := linkable.secondClosed statement member token
      (Statement.mem_operands_of_valueToken? operand) notRegister
    rw [left.symbols, map_label_definitions]
    exact absent
  · intro address target
    obtain ⟨token, _, bound⟩ := Option.bind_eq_some_iff.mp target
    have below := address_le_of_resolve? right.symbols bound
    have small := linkable.small
    omega

theorem reaches_of_encode {index : Nat} {statement : Statement} {word : UInt16}
    (found : (code second)[index]? = some statement) (passed : statement.encode table = .ok word) :
    secondProgram.Reaches (addressCount first) statement := by
  intro address target
  obtain ⟨_, _, _, _, alone⟩ := right.exists_instruction found
  have moved := linkable.encode_second left right symbols (mem_of_getElem?_code found) alone
  simp only [target] at moved
  rw [moved] at passed
  split at passed
  · assumption
  · simp at passed

theorem encode_of_getElem?_code {position : Nat} {statement : Statement}
    (found : (code (first ++ second))[position]? = some statement) :
    (∃ encoded, firstProgram.instructions[position]? = some encoded ∧
      PlacedStatement.encode table ⟨position.toUInt32, statement⟩ = .ok encoded) ∨
    ∃ index encoded, position = addressCount first + index ∧
      (code second)[index]? = some statement ∧ statement ∈ second ∧
      secondProgram.instructions[index]? = some encoded ∧
      encoded.address = index.toUInt32 ∧ encoded.line = statement.line ∧
      statement.encode secondProgram.symbols = .ok encoded.word := by
  rw [code_append, List.getElem?_append, length_code] at found
  split at found
  · left
    obtain ⟨encoded, there, address, line, word⟩ := left.exists_instruction found
    refine ⟨encoded, there, (PlacedStatement.encode_eq_ok_iff _ _ _).mpr ⟨address, line, ?_⟩⟩
    rw [linkable.encode_first left right symbols (mem_of_getElem?_code found)]
    exact word
  · right
    obtain ⟨encoded, there, facts⟩ := right.exists_instruction found
    exact ⟨position - addressCount first, encoded, by omega, found, mem_of_getElem?_code found,
      there, facts⟩

theorem encodes_append
    (reaches : ∀ statement ∈ second, secondProgram.Reaches (addressCount first) statement) :
    (Layout.place (first ++ second)).map (PlacedStatement.encode table) =
      (firstProgram.instructions ++
        secondProgram.relocate second (addressCount first)).map .ok := by
  have leftLength := left.length_instructions
  have rightLength := right.length_instructions
  apply List.ext_getElem?
  intro position
  rw [List.getElem?_map, List.getElem?_map, Layout.getElem?_place, List.getElem?_append, leftLength]
  cases found : (code (first ++ second))[position]? with
  | none =>
      have beyond := List.getElem?_eq_none_iff.mp found
      rw [code_append, List.length_append, length_code, length_code] at beyond
      have before : ¬position < addressCount first := by omega
      have missing : secondProgram.instructions[position - addressCount first]? = none :=
        List.getElem?_eq_none_iff.mpr (by omega)
      simp [before, Program.relocate, List.getElem?_zipWith, missing]
  | some statement =>
      rcases linkable.encode_of_getElem?_code left right symbols found with
        ⟨encoded, there, success⟩ |
          ⟨index, encoded, rfl, inCode, member, there, address, line, word⟩
      · have bound := (List.getElem?_eq_some_iff.mp there).1
        rw [leftLength] at bound
        simp [bound, there, success]
      · have after : ¬addressCount first + index < addressCount first := by omega
        have moved := linkable.encode_second left right symbols member word
        have within := reaches statement member
        simp only [Option.map_some, after, if_false, Nat.add_sub_cancel_left, Program.relocate,
          List.getElem?_zipWith, there, inCode, Option.some.injEq]
        rw [PlacedStatement.encode_eq_ok_iff]
        refine ⟨?_, line, ?_⟩
        · simp [EncodedInstruction.relocate, address, UInt32.add_comm]
        · rw [moved]
          cases target : statement.target? secondProgram.symbols with
          | none => rfl
          | some near =>
              simp only
              rw [if_pos (within near target)]
              rfl

theorem exists_of_firstFailure {position : Nat} {placed : PlacedStatement} {error : AssemblyError}
    (failure : Result.FirstFailure (PlacedStatement.encode table) (Layout.place (first ++ second))
      position placed error) :
    ∃ index statement address, (code second)[index]? = some statement ∧
      statement.target? secondProgram.symbols = some address ∧
      Word.lowMax < address.toNat + addressCount first ∧
      (∀ earlier < index, ∀ other, (code second)[earlier]? = some other →
        secondProgram.Reaches (addressCount first) other) ∧
      error = .encode (addressCount first + index).toUInt32 statement.line
        (.outOfRange (address.toNat + addressCount first : Nat) Word.lowMax) := by
  obtain ⟨found, failed, before⟩ := failure
  rw [Layout.getElem?_place, Option.map_eq_some_iff] at found
  obtain ⟨statement, inCode, rfl⟩ := found
  rcases linkable.encode_of_getElem?_code left right symbols inCode with
    ⟨encoded, _, success⟩ | ⟨index, encoded, rfl, there, member, _, _, _, word⟩
  · rw [success] at failed
    simp at failed
  · have moved := linkable.encode_second left right symbols member word
    obtain ⟨cause, rejected, rfl⟩ := (PlacedStatement.encode_eq_error_iff _ _ _).mp failed
    rw [moved] at rejected
    cases target : statement.target? secondProgram.symbols with
    | none => simp [target] at rejected
    | some address =>
        simp only [target] at rejected
        split at rejected
        · simp at rejected
        · rename_i far
          rw [Except.error.injEq] at rejected
          refine ⟨index, statement, address, there, target, by omega, ?_, by rw [rejected]⟩
          -- Every statement before the failing one has a word, so its own reference fits.
          intro earlier below other otherFound
          obtain ⟨value, passed⟩ := before (addressCount first + earlier) (by omega)
            ⟨(addressCount first + earlier).toUInt32, other⟩
            (by rw [Layout.getElem?_place, getElem?_code_append_right, otherFound]; rfl)
          exact linkable.reaches_of_encode left right symbols otherFound
            ((PlacedStatement.encode_eq_ok_iff _ _ _).mp passed).2.2

omit symbols

theorem reaches_of_assembled {linked : Program} (assembled : Assembled (first ++ second) linked) :
    ∀ statement ∈ second, secondProgram.Reaches (addressCount first) statement := by
  intro statement member address target
  obtain ⟨token, operand, _⟩ := Option.bind_eq_some_iff.mp target
  have inCode : statement ∈ code second :=
    List.mem_filter.mpr ⟨member, Statement.isPlaced_of_valueToken? operand⟩
  obtain ⟨index, found⟩ := List.mem_iff_getElem?.mp inCode
  have linkedFound : (code (first ++ second))[addressCount first + index]? = some statement := by
    rw [getElem?_code_append_right]
    exact found
  obtain ⟨_, _, _, _, passed⟩ := assembled.exists_instruction linkedFound
  exact linkable.reaches_of_encode left right assembled.symbols found passed address target

end Linkable

namespace Assembler

/-- Two parts that assemble alone assemble together exactly if every reference of the second still
fits its low field. Then the second part has moved up with its labels and references; otherwise the
first reference that does not fit is at fault. -/
theorem assembleStatements_append (config : Config) (first second : List Statement)
    (firstProgram secondProgram : Program)
    (firstRun : ({ config } : Assembler).assembleStatements first = .ok firstProgram)
    (secondRun : ({ config } : Assembler).assembleStatements second = .ok secondProgram)
    (linkable : Linkable first second) :
    let offset := firstProgram.instructions.length
    ((∃ linked, ({ config } : Assembler).assembleStatements (first ++ second) = .ok linked) ↔
      ∀ statement ∈ second, secondProgram.Reaches offset statement) ∧
    (∀ linked, ({ config } : Assembler).assembleStatements (first ++ second) = .ok linked →
      linked.instructions =
        firstProgram.instructions ++ secondProgram.relocate second offset ∧
      linked.symbols.symbols =
        firstProgram.symbols.symbols ++ secondProgram.symbols.symbols.map (Symbol.shift offset)) ∧
    ∀ error, ({ config } : Assembler).assembleStatements (first ++ second) = .error error →
      ∃ index statement address, (code second)[index]? = some statement ∧
        statement.target? secondProgram.symbols = some address ∧
        Word.lowMax < address.toNat + offset ∧
        (∀ earlier < index, ∀ other, (code second)[earlier]? = some other →
          secondProgram.Reaches offset other) ∧
        error = .encode (offset + index).toUInt32 statement.line
          (.outOfRange (address.toNat + offset : Nat) Word.lowMax) := by
  have left := (assembleStatements_eq_ok_iff rfl firstProgram).mp firstRun
  have right := (assembleStatements_eq_ok_iff rfl secondProgram).mp secondRun
  obtain ⟨table, symbols⟩ := linkable.exists_table left right
  have offset := left.length_instructions
  simp only [offset]
  have linked_of_reaches
      (reaches : ∀ statement ∈ second, secondProgram.Reaches (addressCount first) statement) :
      ({ config } : Assembler).assembleStatements (first ++ second) =
        .ok ⟨table, firstProgram.instructions ++
          secondProgram.relocate second (addressCount first)⟩ :=
    (assembleStatements_eq_ok_iff rfl _).mpr
      ⟨symbols, linkable.encodes_append left right symbols reaches⟩
  have reaches_of_linked {linked : Program}
      (success : ({ config } : Assembler).assembleStatements (first ++ second) = .ok linked) :
      ∀ statement ∈ second, secondProgram.Reaches (addressCount first) statement :=
    linkable.reaches_of_assembled left right ((assembleStatements_eq_ok_iff rfl linked).mp success)
  refine ⟨⟨?_, ?_⟩, ?_, ?_⟩
  · rintro ⟨linked, success⟩
    exact reaches_of_linked success
  · intro reaches
    exact ⟨_, linked_of_reaches reaches⟩
  · intro linked success
    have same := linked_of_reaches (reaches_of_linked success)
    rw [success, Except.ok.injEq] at same
    rw [same]
    exact ⟨rfl, Linkable.symbols_append left right symbols⟩
  · intro error failed
    rw [assembleStatements_of_symbols config symbols, Result.map_eq_error_iff,
      Result.mapM_eq_error_iff] at failed
    obtain ⟨position, placed, failure⟩ := failed
    exact linkable.exists_of_firstFailure left right symbols failure

theorem assembleStatements_append_numeral_label :
    ∃ linked,
      ({} : Assembler).assembleStatements
        ([⟨1, some "LOADI", ["R1", "5"], some "R1"⟩] ++
          [⟨1, some "JUMP", ["7"], none⟩, ⟨2, some "LOADI", ["R1", "5"], none⟩,
            ⟨3, some "JZ", ["R2", "7"], some "7"⟩]) = .ok linked ∧
      linked.instructions =
        [⟨0, 0x0205, 1⟩, ⟨1, 0xC003, 1⟩, ⟨2, 0x0205, 2⟩, ⟨3, 0xD403, 3⟩] ∧
      linked.symbols.symbols = [⟨"R1", 0, 1⟩, ⟨"7", 3, 3⟩] := by
  obtain ⟨succeeds, result, _⟩ := assembleStatements_append {}
    [⟨1, some "LOADI", ["R1", "5"], some "R1"⟩]
    [⟨1, some "JUMP", ["7"], none⟩, ⟨2, some "LOADI", ["R1", "5"], none⟩,
      ⟨3, some "JZ", ["R2", "7"], some "7"⟩]
    ⟨⟨[⟨"R1", 0, 1⟩], by decide⟩, [⟨0, 0x0205, 1⟩]⟩
    ⟨⟨[⟨"7", 2, 3⟩], by decide⟩, [⟨0, 0xC002, 1⟩, ⟨1, 0x0205, 2⟩, ⟨2, 0xD402, 3⟩]⟩
    rfl rfl ⟨by decide, by decide, by decide, by decide⟩
  have reaches :
      ([⟨1, some "JUMP", ["7"], none⟩, ⟨2, some "LOADI", ["R1", "5"], none⟩,
        ⟨3, some "JZ", ["R2", "7"], some "7"⟩] : List Statement).all fun statement =>
          (statement.target? ⟨[⟨"7", 2, 3⟩], by decide⟩).all fun address =>
            address.toNat + 1 ≤ Word.lowMax := by decide
  obtain ⟨linked, success⟩ := succeeds.mpr fun statement member address target =>
    of_decide_eq_true
      ((Option.all_eq_true _ _).mp (List.all_eq_true.mp reaches statement member) address target)
  exact ⟨linked, success, result linked success⟩

end Assembler

end TwoPass
