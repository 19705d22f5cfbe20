import TwoPass.Encoding
import TwoPass.Proofs.Result
import TwoPass.Statement

/-!
Statements read without a symbol table. The tokens of a statement settle its instruction up to one
value, that of its immediate or address operand, which is the last operand to be read. The table is
asked for that value alone.
-/

namespace TwoPass

/-- What a statement says before a label is looked up: all of its instruction, or all but the value
of one token. -/
inductive Reading where
  | complete (instruction : Instruction)
  | pending (token : String) (make : UInt8 → Instruction)

namespace Operand

theorem lowValue_of_register {token : String} {register : Register}
    (named : Register.ofToken? token = some register) (table : SymbolTable) :
    lowValue table token = .error (.expectedValue register) := by
  simp [lowValue, resolve, named, asValue, bind, Except.bind]

theorem lowValue_of_label {table : SymbolTable} {token : String} {address : UInt32}
    (notRegister : Register.ofToken? token = none) (bound : table.resolve? token = some address) :
    lowValue table token =
      if address.toNat ≤ Word.lowMax then .ok address.toNat.toUInt8
      else .error (.outOfRange address.toNat Word.lowMax) := by
  have range : (0 ≤ (address.toNat : Int) ∧ (address.toNat : Int) ≤ Word.lowMax) ↔
      address.toNat ≤ Word.lowMax := by omega
  simp only [lowValue, resolve, notRegister, bound, asValue, bind, Except.bind, range,
    Int.toNat_natCast]

theorem lowValue_congr {left right : SymbolTable} {token : String}
    (same : Register.ofToken? token = none → left.resolve? token = right.resolve? token) :
    lowValue left token = lowValue right token := by
  cases named : Register.ofToken? token with
  | some register => rw [lowValue_of_register named, lowValue_of_register named]
  | none => simp only [lowValue, resolve, named, same named]

end Operand

namespace Word

theorem or_mod_low (left right : Nat) : (left ||| right) % 64 = left % 64 ||| right % 64 :=
  @Nat.or_mod_two_pow left right 6

theorem shiftLeft_mod_low (bits extra : Nat) : bits <<< (6 + extra) % UInt16.size % 64 = 0 := by
  rw [Nat.mod_mod_of_dvd _ (by decide), Nat.shiftLeft_eq, Nat.pow_add, Nat.mul_left_comm]
  exact Nat.mul_mod_right _ _

theorem toNat_pack_zero_mod (opcode first second : UInt8) :
    (pack opcode first second 0).toNat % 64 = 0 := by
  have high : (pack opcode first second 0).toNat =
      opcode.toNat <<< (6 + 6) % UInt16.size ||| first.toNat <<< (6 + 3) % UInt16.size
        ||| second.toNat <<< (6 + 0) % UInt16.size ||| 0 := by
    simp [pack, opcodeShift, firstShift, secondShift]
  rw [high]
  simp only [or_mod_low, shiftLeft_mod_low]
  rfl

theorem toNat_pack (opcode first second low : UInt8) (small : low.toNat ≤ lowMax) :
    (pack opcode first second low).toNat = (pack opcode first second 0).toNat + low.toNat := by
  have joined : (pack opcode first second low).toNat =
      (pack opcode first second 0).toNat ||| low.toNat := by
    simp [pack]
  have aligned := toNat_pack_zero_mod opcode first second
  have split := Nat.div_add_mod (pack opcode first second 0).toNat 64
  rw [aligned, Nat.add_zero] at split
  have below : low.toNat < 64 := Nat.lt_succ_of_le small
  rw [joined, ← split]
  exact (@Nat.two_pow_add_eq_or_of_lt 6 _ below _).symm

end Word

namespace Mnemonic

theorem fields_of_value {mnemonic : Mnemonic} {make : UInt8 → Instruction}
    (rule : mnemonic.rule? = some (.value make)) (low : UInt8) :
    (make low).mnemonic = mnemonic ∧ (make low).fields = (0, 0, low) := by
  cases mnemonic <;> simp [rule?] at rule
  subst rule
  exact ⟨rfl, rfl⟩

theorem fields_of_registerValue {mnemonic : Mnemonic} {make : Register → UInt8 → Instruction}
    (rule : mnemonic.rule? = some (.registerValue make)) (register : Register) (low : UInt8) :
    (make register low).mnemonic = mnemonic ∧
      (make register low).fields = (register.index, 0, low) := by
  cases mnemonic <;> simp [rule?] at rule <;> subst rule <;> exact ⟨rfl, rfl⟩

end Mnemonic

def EncodingRule.valuePlace? : EncodingRule → Option Nat
  | value _ => some 0
  | registerValue _ => some 1
  | bare _ | register _ | registers _ => none

/-- A register operand, for which no label needs to be looked up. -/
def OperandTokens.namedRegister (operands : OperandTokens) (index : Nat) :
    Except EncodeError Register := do
  let token ← operands.token index
  (Register.ofToken? token).elim (.error (.expectedRegister token)) .ok

theorem OperandTokens.register_eq_namedRegister (operands : OperandTokens) (table : SymbolTable)
    (index : Nat) : operands.register table index = operands.namedRegister index := by
  unfold register namedRegister
  simp only [Operand.readRegister_eq]

namespace Reading

def ofRule (operands : OperandTokens) : EncodingRule → Except EncodeError Reading
  | .bare instruction => .ok (.complete instruction)
  | .value make => do
      return .pending (← operands.token 0) make
  | .register make => do
      return .complete (make (← operands.namedRegister 0))
  | .registerValue make => do
      let register ← operands.namedRegister 0
      return .pending (← operands.token 1) (make register)
  | .registers make => do
      let target ← operands.namedRegister 0
      let left ← operands.namedRegister 1
      let right ← operands.namedRegister 2
      return .complete (make target left right)

def ofTokens (name : String) (tokens : List String) : Except EncodeError Reading :=
  match Mnemonic.ofName? name with
  | none => .error (.unknownInstruction name)
  | some mnemonic =>
  match mnemonic.rule? with
  | none => .error (.notImplemented mnemonic)
  | some rule =>
      if rule.arity < tokens.length then
        .error (.unexpectedOperand mnemonic rule.arity tokens.length)
      else ofRule ⟨mnemonic, rule.arity, tokens⟩ rule

def finish (table : SymbolTable) : Reading → Except EncodeError Instruction
  | complete instruction => .ok instruction
  | pending token make => (Operand.lowValue table token).map make

theorem value_eq_lowValue (operands : OperandTokens) (table : SymbolTable) (index : Nat) :
    operands.value table index = (operands.token index).bind (Operand.lowValue table) :=
  rfl

theorem ofTokens_eq_finish (table : SymbolTable) (name : String) (tokens : List String) :
    Instruction.ofTokens table name tokens = (ofTokens name tokens).bind (finish table) := by
  unfold Instruction.ofTokens ofTokens
  cases Mnemonic.ofName? name with
  | none => rfl
  | some mnemonic =>
      simp only [Instruction.build]
      cases mnemonic.rule? with
      | none => rfl
      | some rule =>
          simp only
          split
          · rfl
          · generalize (⟨mnemonic, rule.arity, tokens⟩ : OperandTokens) = operands
            cases rule with
            | bare instruction => rfl
            | value make =>
                simp only [ofRule, value_eq_lowValue]
                cases operands.token 0 <;> rfl
            | register make =>
                simp only [ofRule, OperandTokens.register_eq_namedRegister]
                cases operands.namedRegister 0 <;> rfl
            | registerValue make =>
                simp only [ofRule, OperandTokens.register_eq_namedRegister, value_eq_lowValue]
                cases operands.namedRegister 0 with
                | error error => rfl
                | ok register => cases operands.token 1 <;> rfl
            | registers make =>
                simp only [ofRule, OperandTokens.register_eq_namedRegister]
                cases operands.namedRegister 0 with
                | error error => rfl
                | ok target =>
                    cases operands.namedRegister 1 with
                    | error error => rfl
                    | ok left => cases operands.namedRegister 2 <;> rfl

theorem exists_of_ofTokens_eq_ok {name : String} {tokens : List String} {reading : Reading}
    (read : ofTokens name tokens = .ok reading) :
    ∃ mnemonic rule, Mnemonic.ofName? name = some mnemonic ∧ mnemonic.rule? = some rule ∧
      ofRule ⟨mnemonic, rule.arity, tokens⟩ rule = .ok reading := by
  unfold ofTokens at read
  cases named : Mnemonic.ofName? name with
  | none => simp [named] at read
  | some mnemonic =>
      simp only [named] at read
      cases ruled : mnemonic.rule? with
      | none => simp [ruled] at read
      | some rule =>
          simp only [ruled] at read
          split at read
          · simp at read
          · exact ⟨mnemonic, rule, rfl, ruled, read⟩

theorem getElem?_of_token_eq_ok {operands : OperandTokens} {index : Nat} {token : String}
    (found : operands.token index = .ok token) : operands.tokens[index]? = some token := by
  unfold OperandTokens.token at found
  cases there : operands.tokens[index]? with
  | none => simp [there] at found
  | some other => simpa [there] using found

theorem tokens_of_ofRule_eq_pending {operands : OperandTokens} {rule : EncodingRule}
    {token : String} {make : UInt8 → Instruction}
    (read : ofRule operands rule = .ok (.pending token make)) :
    (rule.valuePlace?.bind fun place => operands.tokens[place]?) = some token ∧
      (rule = .value make ∨
        ∃ general register, rule = .registerValue general ∧ make = general register) := by
  cases rule with
  | bare instruction => simp [ofRule] at read
  | value general =>
      simp only [ofRule] at read
      obtain ⟨first, found, same⟩ := Result.exists_of_bind_eq_ok read
      simp only [pure, Except.pure, Except.ok.injEq, pending.injEq] at same
      obtain ⟨rfl, rfl⟩ := same
      exact ⟨getElem?_of_token_eq_ok found, Or.inl rfl⟩
  | register general =>
      simp only [ofRule] at read
      obtain ⟨first, _, same⟩ := Result.exists_of_bind_eq_ok read
      simp [pure, Except.pure] at same
  | registerValue general =>
      simp only [ofRule] at read
      obtain ⟨register, _, rest⟩ := Result.exists_of_bind_eq_ok read
      obtain ⟨second, found, same⟩ := Result.exists_of_bind_eq_ok rest
      simp only [pure, Except.pure, Except.ok.injEq, pending.injEq] at same
      obtain ⟨rfl, rfl⟩ := same
      exact ⟨getElem?_of_token_eq_ok found, Or.inr ⟨general, register, rfl, rfl⟩⟩
  | registers general =>
      simp only [ofRule] at read
      obtain ⟨target, _, rest⟩ := Result.exists_of_bind_eq_ok read
      obtain ⟨left, _, rest⟩ := Result.exists_of_bind_eq_ok rest
      obtain ⟨right, _, same⟩ := Result.exists_of_bind_eq_ok rest
      simp [pure, Except.pure] at same

theorem valuePlace?_of_ofRule_eq_complete {operands : OperandTokens} {rule : EncodingRule}
    {instruction : Instruction} (read : ofRule operands rule = .ok (.complete instruction)) :
    rule.valuePlace? = none := by
  cases rule with
  | bare _ | register _ | registers _ => rfl
  | value general =>
      simp only [ofRule] at read
      obtain ⟨first, _, same⟩ := Result.exists_of_bind_eq_ok read
      simp [pure, Except.pure] at same
  | registerValue general =>
      simp only [ofRule] at read
      obtain ⟨register, _, rest⟩ := Result.exists_of_bind_eq_ok read
      obtain ⟨second, _, same⟩ := Result.exists_of_bind_eq_ok rest
      simp [pure, Except.pure] at same

end Reading

namespace Statement

def valueToken? (statement : Statement) : Option String := do
  let mnemonic ← Mnemonic.ofName? statement.name
  let rule ← mnemonic.rule?
  let place ← rule.valuePlace?
  statement.operands[place]?

def encode (table : SymbolTable) (statement : Statement) : Except EncodeError UInt16 :=
  (Instruction.ofTokens table statement.name statement.operands).map Instruction.word

def read (statement : Statement) : Except EncodeError Reading :=
  Reading.ofTokens statement.name statement.operands

theorem encode_eq_read (table : SymbolTable) (statement : Statement) :
    statement.encode table =
      statement.read.bind fun reading => (reading.finish table).map Instruction.word := by
  rw [encode, Reading.ofTokens_eq_finish, read]
  cases Reading.ofTokens statement.name statement.operands <;> rfl

theorem valueToken?_of_pending {statement : Statement} {token : String}
    {make : UInt8 → Instruction} (reading : statement.read = .ok (.pending token make)) :
    statement.valueToken? = some token := by
  obtain ⟨mnemonic, rule, named, ruled, read⟩ := Reading.exists_of_ofTokens_eq_ok reading
  have found := (Reading.tokens_of_ofRule_eq_pending read).1
  simpa [valueToken?, named, ruled] using found

theorem valueToken?_of_complete {statement : Statement} {instruction : Instruction}
    (reading : statement.read = .ok (.complete instruction)) : statement.valueToken? = none := by
  obtain ⟨mnemonic, rule, named, ruled, read⟩ := Reading.exists_of_ofTokens_eq_ok reading
  simp [valueToken?, named, ruled, Reading.valuePlace?_of_ofRule_eq_complete read]

theorem exists_pending {statement : Statement} {reading : Reading} {token : String}
    (read : statement.read = .ok reading) (operand : statement.valueToken? = some token) :
    ∃ make, reading = .pending token make := by
  cases reading with
  | complete instruction =>
      rw [valueToken?_of_complete read] at operand
      simp at operand
  | pending other make =>
      rw [valueToken?_of_pending read, Option.some.injEq] at operand
      exact ⟨make, by rw [operand]⟩

theorem encode_of_pending {statement : Statement} {token : String} {make : UInt8 → Instruction}
    (read : statement.read = .ok (.pending token make)) (table : SymbolTable) :
    statement.encode table =
      (Operand.lowValue table token).map fun low => (make low).word := by
  rw [encode_eq_read, read]
  change ((Operand.lowValue table token).map make).map Instruction.word = _
  cases Operand.lowValue table token <;> rfl

theorem encode_of_complete {statement : Statement} {instruction : Instruction}
    (read : statement.read = .ok (.complete instruction)) (table : SymbolTable) :
    statement.encode table = .ok instruction.word := by
  rw [encode_eq_read, read]
  rfl

theorem exists_read_of_encode_eq_ok {statement : Statement} {table : SymbolTable} {word : UInt16}
    (encoded : statement.encode table = .ok word) : ∃ reading, statement.read = .ok reading := by
  rw [encode_eq_read] at encoded
  obtain ⟨reading, read, _⟩ := Result.exists_of_bind_eq_ok encoded
  exact ⟨reading, read⟩

/-- The pending value goes to the low field, and changes nothing above it. -/
theorem word_of_pending {statement : Statement} {token : String} {make : UInt8 → Instruction}
    (reading : statement.read = .ok (.pending token make)) :
    ∃ high : Nat, ∀ low : UInt8, low.toNat ≤ Word.lowMax →
      (make low).word.toNat = 64 * high + low.toNat := by
  obtain ⟨mnemonic, rule, named, ruled, read⟩ := Reading.exists_of_ofTokens_eq_ok reading
  have packed : ∃ first : UInt8, ∀ low : UInt8,
      (make low).word = Word.pack mnemonic.opcode first 0 low := by
    rcases (Reading.tokens_of_ofRule_eq_pending read).2 with rfl | ⟨general, register, rfl, rfl⟩
    · refine ⟨0, fun low => ?_⟩
      obtain ⟨same, fields⟩ := Mnemonic.fields_of_value ruled low
      simp [Instruction.word, same, fields]
    · refine ⟨register.index, fun low => ?_⟩
      obtain ⟨same, fields⟩ := Mnemonic.fields_of_registerValue ruled register low
      simp [Instruction.word, same, fields]
  obtain ⟨first, word⟩ := packed
  have aligned := Word.toNat_pack_zero_mod mnemonic.opcode first 0
  refine ⟨(Word.pack mnemonic.opcode first 0 0).toNat / 64, fun low small => ?_⟩
  rw [word, Word.toNat_pack _ _ _ _ small]
  omega

theorem encode_congr {statement : Statement} {left right : SymbolTable}
    (agree : ∀ token, statement.valueToken? = some token → Register.ofToken? token = none →
      left.resolve? token = right.resolve? token) :
    statement.encode left = statement.encode right := by
  cases read : statement.read with
  | error error => simp [encode_eq_read, read, Except.bind]
  | ok reading =>
      cases reading with
      | complete instruction => rw [encode_of_complete read, encode_of_complete read]
      | pending token make =>
          have same := Operand.lowValue_congr (agree token (valueToken?_of_pending read))
          rw [encode_of_pending read, encode_of_pending read, same]

theorem mem_operands_of_valueToken? {statement : Statement} {token : String}
    (operand : statement.valueToken? = some token) : token ∈ statement.operands := by
  simp only [valueToken?, bind, Option.bind_eq_some_iff] at operand
  obtain ⟨_, _, _, _, place, _, found⟩ := operand
  exact List.mem_of_getElem? found

theorem isPlaced_of_valueToken? {statement : Statement} {token : String}
    (operand : statement.valueToken? = some token) : statement.isPlaced = true := by
  cases named : statement.mnemonic with
  | some mnemonic => simp [isPlaced, named]
  | none =>
      have unknown : Mnemonic.ofName? "" = none := by decide
      simp [valueToken?, name, named, unknown] at operand

theorem notRegister_of_encode_eq_ok {statement : Statement} {table : SymbolTable} {word : UInt16}
    {token : String} (encoded : statement.encode table = .ok word)
    (operand : statement.valueToken? = some token) : Register.ofToken? token = none := by
  obtain ⟨reading, read⟩ := exists_read_of_encode_eq_ok encoded
  obtain ⟨make, rfl⟩ := exists_pending read operand
  cases named : Register.ofToken? token with
  | none => rfl
  | some register =>
      rw [encode_of_pending read, Operand.lowValue_of_register named] at encoded
      simp [Except.map] at encoded

theorem encode_of_label {statement : Statement} {token : String} {make : UInt8 → Instruction}
    {table : SymbolTable} {address : UInt32}
    (read : statement.read = .ok (.pending token make))
    (notRegister : Register.ofToken? token = none) (bound : table.resolve? token = some address) :
    statement.encode table =
      if address.toNat ≤ Word.lowMax then .ok (make address.toNat.toUInt8).word
      else .error (.outOfRange address.toNat Word.lowMax) := by
  rw [encode_of_pending read, Operand.lowValue_of_label notRegister bound]
  split <;> rfl

theorem toNat_toUInt8_of_le {value : Nat} (small : value ≤ Word.lowMax) :
    value.toUInt8.toNat = value := by
  have bound : value < UInt8.size := Nat.lt_of_le_of_lt small (by decide)
  exact UInt8.toNat_ofNat_of_lt' bound

theorem low_of_label {statement : Statement} {table : SymbolTable} {token : String}
    {address : UInt32} {word : UInt16}
    (encoded : statement.encode table = .ok word) (operand : statement.valueToken? = some token)
    (notRegister : Register.ofToken? token = none) (bound : table.resolve? token = some address) :
    word.toNat % 64 = address.toNat := by
  obtain ⟨reading, read⟩ := exists_read_of_encode_eq_ok encoded
  obtain ⟨make, rfl⟩ := exists_pending read operand
  obtain ⟨high, packed⟩ := word_of_pending read
  rw [encode_of_label read notRegister bound] at encoded
  split at encoded
  · rename_i small
    have value := toNat_toUInt8_of_le small
    rw [Except.ok.injEq] at encoded
    rw [← encoded, packed _ (by omega), value]
    have below : address.toNat < 64 := Nat.lt_succ_of_le small
    omega
  · simp at encoded

end Statement

end TwoPass
