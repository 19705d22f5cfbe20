import TwoPass.Proofs.Aliasing
import TwoPass.Proofs.Operands

/-!
The encoding table: which statements have a word, and what its four fields are. The table is written
out by names and numbers; a statement is accepted exactly if the table has it.
-/

namespace TwoPass

namespace Word

structure Fields where
  opcode : Nat
  first : Nat
  second : Nat
  low : Nat

/-- The fields in bits 15 to 12, 11 to 9, 8 to 6 and 5 to 0. -/
def unpack (word : UInt16) : Fields where
  opcode := (word >>> 12).toNat
  first := (word >>> 9 &&& 7).toNat
  second := (word >>> 6 &&& 7).toNat
  low := (word &&& 63).toNat

theorem unpack_eq (word : UInt16) :
    unpack word =
      ⟨word.toNat / 4096, word.toNat / 512 % 8, word.toNat / 64 % 8, word.toNat % 64⟩ := by
  have mask (number : Nat) : number &&& 7 = number % 8 := Nat.and_two_pow_sub_one_eq_mod number 3
  have lowMask (number : Nat) : number &&& 63 = number % 64 :=
    Nat.and_two_pow_sub_one_eq_mod number 6
  simp [unpack, Nat.shiftRight_eq_div_pow, mask, lowMask]

theorem unpack_injective {left right : UInt16} (same : unpack left = unpack right) :
    left = right := by
  simp only [unpack_eq, Fields.mk.injEq] at same
  apply UInt16.toNat_inj.mp
  omega

end Word

def Instruction.wordFields (instruction : Instruction) : Word.Fields where
  opcode := instruction.mnemonic.opcode.toNat
  first := instruction.fields.1.toNat
  second := instruction.fields.2.1.toNat
  low := instruction.fields.2.2.toNat

theorem Instruction.unpack_word {instruction : Instruction} (fits : instruction.Fits) :
    Word.unpack instruction.word = instruction.wordFields := by
  have sum := toNat_word fits
  have opcode := instruction.mnemonic.opcode_lt
  obtain ⟨first, second, low⟩ := fits
  have room : Word.lowMax = 63 := rfl
  rw [Word.unpack_eq, wordFields, Word.Fields.mk.injEq]
  refine ⟨?_, ?_, ?_, ?_⟩ <;> omega

def registerValueCodes : List (String × Nat) :=
  [("LOADI", 0x0), ("STORE", 0x6), ("LOAD", 0x7), ("JZ", 0xD), ("JNZ", 0xE)]

def registersCodes : List (String × Nat) :=
  [("ADD", 0x1), ("SUB", 0x2), ("MUL", 0xD)]

/-- The statements that have a word, by name and operands, with the fields of the word. -/
inductive Encodes (table : SymbolTable) : String → List String → Word.Fields → Prop where
  | registerValue {name register value : String} {opcode first low : Nat}
      (listed : (name, opcode) ∈ registerValueCodes) (named : NamesRegister register first)
      (valued : HasLowValue table value low) :
      Encodes table name [register, value] ⟨opcode, first, 0, low⟩
  /-- The right operand has to be a register, and is not in the word. -/
  | registers {name target left right : String} {opcode first second other : Nat}
      (listed : (name, opcode) ∈ registersCodes) (targetNamed : NamesRegister target second)
      (leftNamed : NamesRegister left first) (rightNamed : NamesRegister right other) :
      Encodes table name [target, left, right] ⟨opcode, first, second, 0⟩
  | jump {value : String} {low : Nat} (valued : HasLowValue table value low) :
      Encodes table "JUMP" [value] ⟨0xC, 0, 0, low⟩
  | push {register : String} {first : Nat} (named : NamesRegister register first) :
      Encodes table "PUSH" [register] ⟨0xE, first, 0, 0⟩
  | pop {register : String} {second : Nat} (named : NamesRegister register second) :
      Encodes table "POP" [register] ⟨0xE, 0, second, 0⟩
  | halt : Encodes table "HALT" [] ⟨0xF, 0, 0, 0⟩
  | reti : Encodes table "RETI" [] ⟨0xF, 0, 0, 1⟩

namespace OperandTokens

variable {operands : OperandTokens} {index : Nat}

theorem token_eq_ok_iff (token : String) :
    operands.token index = .ok token ↔ operands.tokens[index]? = some token := by
  unfold OperandTokens.token
  cases operands.tokens[index]? <;> simp

theorem register_eq_ok_iff (table : SymbolTable) (register : Register) :
    operands.register table index = .ok register ↔
      ∃ token, operands.tokens[index]? = some token ∧
        NamesRegister token register.index.toNat := by
  rw [register_eq_namedRegister, namedRegister]
  constructor
  · intro read
    obtain ⟨token, found, named⟩ := Result.exists_of_bind_eq_ok read
    refine ⟨token, (token_eq_ok_iff token).mp found, ?_⟩
    rw [← Register.ofToken?_eq_some_iff]
    cases other : Register.ofToken? token with
    | none => simp [other] at named
    | some same => simpa [other] using named
  · rintro ⟨token, found, named⟩
    rw [← Register.ofToken?_eq_some_iff] at named
    rw [(token_eq_ok_iff token).mpr found]
    simp only [bind, Except.bind, named, Option.elim_some]

theorem value_eq_ok_iff (table : SymbolTable) (low : UInt8) :
    operands.value table index = .ok low ↔
      ∃ token, operands.tokens[index]? = some token ∧ HasLowValue table token low.toNat := by
  rw [Reading.value_eq_lowValue]
  constructor
  · intro read
    obtain ⟨token, found, valued⟩ := Result.exists_of_bind_eq_ok read
    exact ⟨token, (token_eq_ok_iff token).mp found, (Operand.lowValue_eq_ok_iff low).mp valued⟩
  · rintro ⟨token, found, valued⟩
    rw [(token_eq_ok_iff token).mpr found]
    exact (Operand.lowValue_eq_ok_iff low).mpr valued

end OperandTokens

inductive EncodingRule.Reads (table : SymbolTable) :
    EncodingRule → List String → Instruction → Prop where
  | bare (instruction : Instruction) : Reads table (.bare instruction) [] instruction
  | value (make : UInt8 → Instruction) {token : String} {low : UInt8}
      (valued : HasLowValue table token low.toNat) : Reads table (.value make) [token] (make low)
  | register (make : Register → Instruction) {token : String} {only : Register}
      (named : NamesRegister token only.index.toNat) :
      Reads table (.register make) [token] (make only)
  | registerValue (make : Register → UInt8 → Instruction) {token other : String} {only : Register}
      {low : UInt8} (named : NamesRegister token only.index.toNat)
      (valued : HasLowValue table other low.toNat) :
      Reads table (.registerValue make) [token, other] (make only low)
  | registers (make : Register → Register → Register → Instruction) {first second third : String}
      {target left right : Register} (targetNamed : NamesRegister first target.index.toNat)
      (leftNamed : NamesRegister second left.index.toNat)
      (rightNamed : NamesRegister third right.index.toNat) :
      Reads table (.registers make) [first, second, third] (make target left right)

theorem eq_of_getElem?_eq {tokens parts : List String} (few : tokens.length ≤ parts.length)
    (found : ∀ index < parts.length, tokens[index]? = parts[index]?) : tokens = parts := by
  apply List.ext_getElem?
  intro index
  by_cases inside : index < parts.length
  · exact found index inside
  · rw [List.getElem?_eq_none (by omega), List.getElem?_eq_none (by omega)]

namespace Instruction

variable {table : SymbolTable} {mnemonic : Mnemonic} {tokens : List String}
  {instruction : Instruction}

theorem reads_of_build_eq_ok (built : build table mnemonic tokens = .ok instruction) :
    ∃ rule, mnemonic.rule? = some rule ∧ rule.Reads table tokens instruction := by
  unfold build at built
  cases ruled : mnemonic.rule? with
  | none => simp [ruled] at built
  | some rule =>
      refine ⟨rule, rfl, ?_⟩
      simp only [ruled] at built
      split at built
      · simp at built
      rename_i notMore
      have few := Nat.le_of_not_lt notMore
      cases rule with
      | bare only =>
          obtain rfl := Except.ok.inj built
          obtain rfl : tokens = [] := eq_of_getElem?_eq few (by simp)
          exact .bare only
      | value make =>
          obtain ⟨low, read, made⟩ := Result.exists_of_bind_eq_ok built
          obtain rfl := Except.ok.inj made
          obtain ⟨token, found, valued⟩ := (OperandTokens.value_eq_ok_iff table low).mp read
          obtain rfl : tokens = [token] := eq_of_getElem?_eq few (by simpa using found)
          exact .value make valued
      | register make =>
          obtain ⟨only, read, made⟩ := Result.exists_of_bind_eq_ok built
          obtain rfl := Except.ok.inj made
          obtain ⟨token, found, named⟩ := (OperandTokens.register_eq_ok_iff table only).mp read
          obtain rfl : tokens = [token] := eq_of_getElem?_eq few (by simpa using found)
          exact .register make named
      | registerValue make =>
          obtain ⟨only, read, built⟩ := Result.exists_of_bind_eq_ok built
          obtain ⟨low, readLow, made⟩ := Result.exists_of_bind_eq_ok built
          obtain rfl := Except.ok.inj made
          obtain ⟨token, found, named⟩ := (OperandTokens.register_eq_ok_iff table only).mp read
          obtain ⟨other, foundLow, valued⟩ := (OperandTokens.value_eq_ok_iff table low).mp readLow
          obtain rfl : tokens = [token, other] := by
            apply eq_of_getElem?_eq few
            rintro (_ | _ | index) inside
            · exact found
            · exact foundLow
            · exact absurd inside (by simp)
          exact .registerValue make named valued
      | registers make =>
          obtain ⟨target, readTarget, built⟩ := Result.exists_of_bind_eq_ok built
          obtain ⟨left, readLeft, built⟩ := Result.exists_of_bind_eq_ok built
          obtain ⟨right, readRight, made⟩ := Result.exists_of_bind_eq_ok built
          obtain rfl := Except.ok.inj made
          rw [OperandTokens.register_eq_ok_iff] at readTarget readLeft readRight
          obtain ⟨first, foundFirst, targetNamed⟩ := readTarget
          obtain ⟨second, foundSecond, leftNamed⟩ := readLeft
          obtain ⟨third, foundThird, rightNamed⟩ := readRight
          obtain rfl : tokens = [first, second, third] := by
            apply eq_of_getElem?_eq few
            rintro (_ | _ | _ | index) inside
            · exact foundFirst
            · exact foundSecond
            · exact foundThird
            · exact absurd inside (by simp)
          exact .registers make targetNamed leftNamed rightNamed

theorem build_of_reads {rule : EncodingRule} (ruled : mnemonic.rule? = some rule)
    (reads : rule.Reads table tokens instruction) :
    build table mnemonic tokens = .ok instruction := by
  have register {operands : OperandTokens} (index : Nat) {token : String} {register : Register}
      (found : operands.tokens[index]? = some token)
      (named : NamesRegister token register.index.toNat) :
      operands.register table index = .ok register :=
    (OperandTokens.register_eq_ok_iff table register).mpr ⟨token, found, named⟩
  have value {operands : OperandTokens} (index : Nat) {token : String} {low : UInt8}
      (found : operands.tokens[index]? = some token)
      (valued : HasLowValue table token low.toNat) : operands.value table index = .ok low :=
    (OperandTokens.value_eq_ok_iff table low).mpr ⟨token, found, valued⟩
  unfold build
  simp only [ruled]
  cases reads with
  | bare => rfl
  | value make valued =>
      rw [value 0 rfl valued]
      rfl
  | register make named =>
      rw [register 0 rfl named]
      rfl
  | registerValue make named valued =>
      rw [register 0 rfl named, value 1 rfl valued]
      rfl
  | registers make targetNamed leftNamed rightNamed =>
      rw [register 0 rfl targetNamed, register 1 rfl leftNamed, register 2 rfl rightNamed]
      rfl

theorem ofTokens_eq_ok_iff (name : String) :
    ofTokens table name tokens = .ok instruction ↔
      ∃ (mnemonic : Mnemonic) (rule : EncodingRule), mnemonic.name = name ∧
        mnemonic.rule? = some rule ∧ rule.Reads table tokens instruction := by
  constructor
  · intro read
    unfold ofTokens at read
    cases named : Mnemonic.ofName? name with
    | none => simp [named] at read
    | some mnemonic =>
        simp only [named] at read
        obtain ⟨rule, ruled, reads⟩ := reads_of_build_eq_ok read
        have same := List.find?_some named
        exact ⟨mnemonic, rule, beq_iff_eq.mp same, ruled, reads⟩
  · rintro ⟨mnemonic, rule, rfl, ruled, reads⟩
    simp only [ofTokens, Mnemonic.ofName?_name]
    exact build_of_reads ruled reads

end Instruction

theorem mem_registerValueCodes_iff (name : String) (opcode : Nat) :
    (name, opcode) ∈ registerValueCodes ↔
      ∃ (mnemonic : Mnemonic) (make : Register → UInt8 → Instruction),
        mnemonic.name = name ∧ mnemonic.opcode.toNat = opcode ∧
        mnemonic.rule? = some (.registerValue make) := by
  constructor
  · intro listed
    simp only [registerValueCodes, List.mem_cons, Prod.mk.injEq, List.not_mem_nil, or_false]
      at listed
    rcases listed with ⟨rfl, rfl⟩ | ⟨rfl, rfl⟩ | ⟨rfl, rfl⟩ | ⟨rfl, rfl⟩ | ⟨rfl, rfl⟩
    · exact ⟨.loadi, _, rfl, rfl, rfl⟩
    · exact ⟨.store, _, rfl, rfl, rfl⟩
    · exact ⟨.load, _, rfl, rfl, rfl⟩
    · exact ⟨.jz, _, rfl, rfl, rfl⟩
    · exact ⟨.jnz, _, rfl, rfl, rfl⟩
  · rintro ⟨mnemonic, make, rfl, rfl, ruled⟩
    cases mnemonic <;> simp [Mnemonic.rule?] at ruled <;> decide

theorem mem_registersCodes_iff (name : String) (opcode : Nat) :
    (name, opcode) ∈ registersCodes ↔
      ∃ (mnemonic : Mnemonic) (make : Register → Register → Register → Instruction),
        mnemonic.name = name ∧ mnemonic.opcode.toNat = opcode ∧
        mnemonic.rule? = some (.registers make) := by
  constructor
  · intro listed
    simp only [registersCodes, List.mem_cons, Prod.mk.injEq, List.not_mem_nil, or_false] at listed
    rcases listed with ⟨rfl, rfl⟩ | ⟨rfl, rfl⟩ | ⟨rfl, rfl⟩
    · exact ⟨.add, _, rfl, rfl, rfl⟩
    · exact ⟨.sub, _, rfl, rfl, rfl⟩
    · exact ⟨.mul, _, rfl, rfl, rfl⟩
  · rintro ⟨mnemonic, make, rfl, rfl, ruled⟩
    cases mnemonic <;> simp [Mnemonic.rule?] at ruled <;> decide

theorem Mnemonic.fields_of_registers {mnemonic : Mnemonic}
    {make : Register → Register → Register → Instruction}
    (rule : mnemonic.rule? = some (.registers make)) (target left right : Register) :
    (make target left right).mnemonic = mnemonic ∧
      (make target left right).fields = (left.index, target.index, 0) := by
  cases mnemonic <;> simp [rule?] at rule <;> subst rule <;> exact ⟨rfl, rfl⟩

theorem HasLowValue.exists_byte {table : SymbolTable} {token : String} {low : Nat}
    (valued : HasLowValue table token low) : ∃ byte : UInt8, byte.toNat = low :=
  ⟨low.toUInt8, Statement.toNat_toUInt8_of_le valued.fits⟩

theorem exists_reads_of_encodes {table : SymbolTable} {name : String} {tokens : List String}
    {fields : Word.Fields} (encodes : Encodes table name tokens fields) :
    ∃ (mnemonic : Mnemonic) (rule : EncodingRule) (instruction : Instruction),
      mnemonic.name = name ∧ mnemonic.rule? = some rule ∧
      rule.Reads table tokens instruction ∧ instruction.wordFields = fields := by
  cases encodes with
  | registerValue listed named valued =>
      obtain ⟨mnemonic, make, rfl, rfl, ruled⟩ := (mem_registerValueCodes_iff _ _).mp listed
      obtain ⟨only, _, rfl⟩ := Register.exists_ofToken?_of_namesRegister named
      obtain ⟨byte, rfl⟩ := valued.exists_byte
      refine ⟨mnemonic, _, make only byte, rfl, ruled, .registerValue make named valued, ?_⟩
      obtain ⟨same, fields⟩ := Mnemonic.fields_of_registerValue ruled only byte
      rw [Instruction.wordFields, same, fields]
      rfl
  | registers listed targetNamed leftNamed rightNamed =>
      obtain ⟨mnemonic, make, rfl, rfl, ruled⟩ := (mem_registersCodes_iff _ _).mp listed
      obtain ⟨target, _, rfl⟩ := Register.exists_ofToken?_of_namesRegister targetNamed
      obtain ⟨left, _, rfl⟩ := Register.exists_ofToken?_of_namesRegister leftNamed
      obtain ⟨right, _, rfl⟩ := Register.exists_ofToken?_of_namesRegister rightNamed
      refine ⟨mnemonic, _, make target left right, rfl, ruled,
        .registers make targetNamed leftNamed rightNamed, ?_⟩
      obtain ⟨same, fields⟩ := Mnemonic.fields_of_registers ruled target left right
      rw [Instruction.wordFields, same, fields]
      rfl
  | jump valued =>
      obtain ⟨byte, rfl⟩ := valued.exists_byte
      exact ⟨.jump, _, .jump byte, rfl, rfl, .value _ valued, rfl⟩
  | push named =>
      obtain ⟨only, _, rfl⟩ := Register.exists_ofToken?_of_namesRegister named
      exact ⟨.push, _, .push only, rfl, rfl, .register _ named, rfl⟩
  | pop named =>
      obtain ⟨only, _, rfl⟩ := Register.exists_ofToken?_of_namesRegister named
      exact ⟨.pop, _, .pop only, rfl, rfl, .register _ named, rfl⟩
  | halt => exact ⟨.halt, _, .halt, rfl, rfl, .bare _, rfl⟩
  | reti => exact ⟨.reti, _, .reti, rfl, rfl, .bare _, rfl⟩

theorem encodes_of_reads {table : SymbolTable} {mnemonic : Mnemonic} {rule : EncodingRule}
    {tokens : List String} {instruction : Instruction} (ruled : mnemonic.rule? = some rule)
    (reads : rule.Reads table tokens instruction) :
    Encodes table mnemonic.name tokens instruction.wordFields := by
  cases reads with
  | bare only =>
      cases mnemonic <;> simp [Mnemonic.rule?] at ruled <;> subst ruled
      · exact .halt
      · exact .reti
  | value make valued =>
      cases mnemonic <;> simp [Mnemonic.rule?] at ruled
      subst ruled
      exact .jump valued
  | register make named =>
      cases mnemonic <;> simp [Mnemonic.rule?] at ruled <;> subst ruled
      · exact .push named
      · exact .pop named
  | @registerValue make _ _ only low named valued =>
      have listed := (mem_registerValueCodes_iff _ _).mpr ⟨mnemonic, make, rfl, rfl, ruled⟩
      obtain ⟨same, fields⟩ := Mnemonic.fields_of_registerValue ruled only low
      rw [Instruction.wordFields, same, fields]
      exact .registerValue listed named valued
  | @registers make _ _ _ target left right targetNamed leftNamed rightNamed =>
      have listed := (mem_registersCodes_iff _ _).mpr ⟨mnemonic, make, rfl, rfl, ruled⟩
      obtain ⟨same, fields⟩ := Mnemonic.fields_of_registers ruled target left right
      rw [Instruction.wordFields, same, fields]
      exact .registers listed targetNamed leftNamed rightNamed

namespace Instruction

/-- A statement is accepted exactly if the encoding table has it, and the fields of its word are
those of the table. -/
theorem word_ofTokens_encodes (table : SymbolTable) (name : String) (tokens : List String) :
    (∀ word, (ofTokens table name tokens).map Instruction.word = .ok word ↔
      Encodes table name tokens (Word.unpack word)) ∧
    ∀ fields, Encodes table name tokens fields →
      ∃ word, (ofTokens table name tokens).map Instruction.word = .ok word ∧
        Word.unpack word = fields := by
  have accepted : ∀ fields, Encodes table name tokens fields →
      ∃ word, (ofTokens table name tokens).map Instruction.word = .ok word ∧
        Word.unpack word = fields := by
    intro fields encodes
    obtain ⟨mnemonic, rule, instruction, named, ruled, reads, same⟩ :=
      exists_reads_of_encodes encodes
    have read := (ofTokens_eq_ok_iff name).mpr ⟨mnemonic, rule, named, ruled, reads⟩
    have fits := (fits_of_ofTokens_eq_ok read).2
    exact ⟨instruction.word, by rw [read]; rfl, (unpack_word fits).trans same⟩
  refine ⟨fun word => ⟨?_, ?_⟩, accepted⟩
  · intro encoded
    obtain ⟨instruction, read, rfl⟩ := Result.map_eq_ok_iff.mp encoded
    obtain ⟨mnemonic, rule, rfl, ruled, reads⟩ := (ofTokens_eq_ok_iff name).mp read
    rw [unpack_word (fits_of_ofTokens_eq_ok read).2]
    exact encodes_of_reads ruled reads
  · intro encodes
    obtain ⟨other, encoded, same⟩ := accepted _ encodes
    rw [encoded, Word.unpack_injective same]

theorem word_ofTokens_encodes_numeral_label :
    (ofTokens ⟨[⟨"5", 40, 1⟩], by decide⟩ "LOAD" ["r7", "5"]).map Instruction.word =
      .ok 0x7E28 := by
  refine ((word_ofTokens_encodes _ _ _).1 0x7E28).mpr ?_
  have named : NamesRegister "r7" 7 := ⟨by decide, .inr rfl⟩
  have valued : HasLowValue ⟨[⟨"5", 40, 1⟩], by decide⟩ "5" 40 := by
    have bound : SymbolTable.resolve? ⟨[⟨"5", 40, 1⟩], by decide⟩ "5" = some 40 := rfl
    refine ⟨?_, .label bound, by decide⟩
    rintro number ⟨_, spelled | spelled⟩ <;> simp at spelled
  exact .registerValue (by decide) named valued

end Instruction

end TwoPass
