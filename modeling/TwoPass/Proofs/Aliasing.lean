import TwoPass.Proofs.Reading

/-!
Statements that share a word. Operands are read within the bounds of their fields, so a word tells
its four fields. It does not tell the mnemonic, since some mnemonics have one operation code; the
statements that share a word although their mnemonics differ are listed, and there are no others.
-/

namespace TwoPass

namespace Word

theorem toNat_pack_of_fits {opcode first second low : UInt8} (opcodeFits : opcode.toNat < 16)
    (firstFits : first.toNat < 8) (secondFits : second.toNat < 8) (lowFits : low.toNat ≤ lowMax) :
    (pack opcode first second low).toNat =
      4096 * opcode.toNat + 512 * first.toNat + 64 * second.toNat + low.toNat := by
  have shifted : (pack opcode first second 0).toNat =
      opcode.toNat <<< 12 % UInt16.size ||| first.toNat <<< 9 % UInt16.size
        ||| second.toNat <<< 6 % UInt16.size := by
    simp [pack, opcodeShift, firstShift, secondShift]
  have opcodeShifted : opcode.toNat <<< 12 = 4096 * opcode.toNat := by omega
  have firstShifted : first.toNat <<< 9 = 512 * first.toNat := by omega
  have secondShifted : second.toNat <<< 6 = 64 * second.toNat := by omega
  have firstApart : 4096 * opcode.toNat + 512 * first.toNat =
      4096 * opcode.toNat ||| 512 * first.toNat :=
    @Nat.two_pow_add_eq_or_of_lt 12 _ (by omega) _
  have secondApart : 512 * (8 * opcode.toNat + first.toNat) + 64 * second.toNat =
      512 * (8 * opcode.toNat + first.toNat) ||| 64 * second.toNat :=
    @Nat.two_pow_add_eq_or_of_lt 9 _ (by omega) _
  have high : 4096 * opcode.toNat + 512 * first.toNat =
      512 * (8 * opcode.toNat + first.toNat) := by omega
  have size : UInt16.size = 65536 := rfl
  rw [toNat_pack _ _ _ _ lowFits, shifted, opcodeShifted, firstShifted, secondShifted,
    Nat.mod_eq_of_lt (by omega), Nat.mod_eq_of_lt (by omega), Nat.mod_eq_of_lt (by omega),
    ← firstApart, high, ← secondApart]

end Word

theorem Register.eq_of_index_eq {left right : Register} (same : left.index = right.index) :
    left = right := by
  cases left
  cases right
  exact congrArg mk same

theorem Mnemonic.opcode_lt (mnemonic : Mnemonic) : mnemonic.opcode.toNat < 16 := by
  cases mnemonic <;> decide

namespace Instruction

structure Fits (instruction : Instruction) : Prop where
  first : instruction.fields.1.toNat < 8
  second : instruction.fields.2.1.toNat < 8
  low : instruction.fields.2.2.toNat ≤ Word.lowMax

theorem toNat_word {instruction : Instruction} (fits : instruction.Fits) :
    instruction.word.toNat =
      4096 * instruction.mnemonic.opcode.toNat + 512 * instruction.fields.1.toNat
        + 64 * instruction.fields.2.1.toNat + instruction.fields.2.2.toNat :=
  Word.toNat_pack_of_fits instruction.mnemonic.opcode_lt fits.first fits.second fits.low

theorem word_eq_iff_of_fits {left right : Instruction} (leftFits : left.Fits)
    (rightFits : right.Fits) :
    left.word = right.word ↔
      left.mnemonic.opcode = right.mnemonic.opcode ∧ left.fields = right.fields := by
  constructor
  · intro same
    have sum := congrArg UInt16.toNat same
    rw [toNat_word leftFits, toNat_word rightFits] at sum
    obtain ⟨leftFirst, leftSecond, leftLow⟩ := leftFits
    obtain ⟨rightFirst, rightSecond, rightLow⟩ := rightFits
    have room : Word.lowMax = 63 := rfl
    have opcode : left.mnemonic.opcode = right.mnemonic.opcode := UInt8.toNat_inj.mp (by omega)
    have first : left.fields.1 = right.fields.1 := UInt8.toNat_inj.mp (by omega)
    have second : left.fields.2.1 = right.fields.2.1 := UInt8.toNat_inj.mp (by omega)
    have low : left.fields.2.2 = right.fields.2.2 := UInt8.toNat_inj.mp (by omega)
    exact ⟨opcode, Prod.ext first (Prod.ext second low)⟩
  · rintro ⟨opcode, fields⟩
    rw [word, word, opcode, fields]

/-- The instruction without the right operand of `ADD`, `SUB` and `MUL`, for which `R0` stands. -/
def forgetRight : Instruction → Instruction
  | add target left _ => add target left ⟨0⟩
  | sub target left _ => sub target left ⟨0⟩
  | mul target left _ => mul target left ⟨0⟩
  | instruction => instruction

inductive Aliases : Instruction → Instruction → Prop where
  | jzMul (source right : Register) : Aliases (jz source 0) (mul ⟨0⟩ source right)
  | jnzPush (source : Register) : Aliases (jnz source 0) (push source)
  | jnzPop : Aliases (jnz ⟨0⟩ 0) (pop ⟨0⟩)
  | pushPop : Aliases (push ⟨0⟩) (pop ⟨0⟩)

theorem fields_of_aliases {left right : Instruction} (aliases : left.Aliases right) :
    left.mnemonic.opcode = right.mnemonic.opcode ∧ left.fields = right.fields := by
  cases aliases <;> exact ⟨rfl, rfl⟩

theorem fields_forgetRight (instruction : Instruction) :
    instruction.forgetRight.mnemonic = instruction.mnemonic ∧
      instruction.forgetRight.fields = instruction.fields := by
  cases instruction <;> exact ⟨rfl, rfl⟩

theorem forgetRight_eq_of_fields_eq {left right : Instruction}
    (sameMnemonic : left.mnemonic = right.mnemonic) (sameFields : left.fields = right.fields) :
    left.forgetRight = right.forgetRight := by
  cases left <;> cases right <;> simp only [mnemonic, reduceCtorEq] at sameMnemonic <;>
    simp only [fields, Prod.mk.injEq] at sameFields <;>
    simp only [forgetRight] <;> grind [Register.eq_of_index_eq]

theorem aliases_jz_mul {source target other right : Register} {address : UInt8}
    (same : (jz source address).fields = (mul target other right).fields) :
    (jz source address).Aliases (mul target other right) := by
  simp only [fields, Prod.mk.injEq] at same
  obtain ⟨sameSource, zero, rfl⟩ := same
  obtain rfl := Register.eq_of_index_eq sameSource
  obtain rfl : ⟨0⟩ = target := Register.eq_of_index_eq zero
  exact .jzMul source right

theorem aliases_jnz_push {source other : Register} {address : UInt8}
    (same : (jnz source address).fields = (push other).fields) :
    (jnz source address).Aliases (push other) := by
  simp only [fields, Prod.mk.injEq] at same
  obtain ⟨sameSource, _, rfl⟩ := same
  obtain rfl := Register.eq_of_index_eq sameSource
  exact .jnzPush source

theorem aliases_jnz_pop {source target : Register} {address : UInt8}
    (same : (jnz source address).fields = (pop target).fields) :
    (jnz source address).Aliases (pop target) := by
  simp only [fields, Prod.mk.injEq] at same
  obtain ⟨sourceZero, targetZero, rfl⟩ := same
  obtain rfl : source = ⟨0⟩ := Register.eq_of_index_eq sourceZero
  obtain rfl : ⟨0⟩ = target := Register.eq_of_index_eq targetZero
  exact .jnzPop

theorem aliases_push_pop {source target : Register}
    (same : (push source).fields = (pop target).fields) : (push source).Aliases (pop target) := by
  simp only [fields, Prod.mk.injEq] at same
  obtain ⟨sourceZero, targetZero, _⟩ := same
  obtain rfl : source = ⟨0⟩ := Register.eq_of_index_eq sourceZero
  obtain rfl : ⟨0⟩ = target := Register.eq_of_index_eq targetZero
  exact .pushPop

theorem aliases_of_fields_eq {left right : Instruction}
    (different : left.mnemonic ≠ right.mnemonic)
    (sameOpcode : left.mnemonic.opcode = right.mnemonic.opcode)
    (sameFields : left.fields = right.fields) : left.Aliases right ∨ right.Aliases left := by
  cases left with
  | jz =>
      cases right with
      | mul => exact .inl (aliases_jz_mul sameFields)
      | _ => simp [mnemonic, Mnemonic.opcode] at sameOpcode different
  | mul =>
      cases right with
      | jz => exact .inr (aliases_jz_mul sameFields.symm)
      | _ => simp [mnemonic, Mnemonic.opcode] at sameOpcode different
  | jnz =>
      cases right with
      | push => exact .inl (aliases_jnz_push sameFields)
      | pop => exact .inl (aliases_jnz_pop sameFields)
      | _ => simp [mnemonic, Mnemonic.opcode] at sameOpcode different
  | push =>
      cases right with
      | jnz => exact .inr (aliases_jnz_push sameFields.symm)
      | pop => exact .inl (aliases_push_pop sameFields)
      | _ => simp [mnemonic, Mnemonic.opcode] at sameOpcode different
  | pop =>
      cases right with
      | jnz => exact .inr (aliases_jnz_pop sameFields.symm)
      | push => exact .inr (aliases_push_pop sameFields.symm)
      | _ => simp [mnemonic, Mnemonic.opcode] at sameOpcode different
  -- `HALT` and `RETI` share a code, and their low fields tell them apart.
  | halt | reti =>
      cases right <;> simp [mnemonic, Mnemonic.opcode, fields] at sameOpcode different sameFields
  | _ => cases right <;> simp [mnemonic, Mnemonic.opcode] at sameOpcode different

theorem fields_eq_iff (left right : Instruction) :
    left.mnemonic.opcode = right.mnemonic.opcode ∧ left.fields = right.fields ↔
      left.forgetRight = right.forgetRight ∨ left.Aliases right ∨ right.Aliases left := by
  constructor
  · rintro ⟨sameOpcode, sameFields⟩
    by_cases sameMnemonic : left.mnemonic = right.mnemonic
    · exact .inl (forgetRight_eq_of_fields_eq sameMnemonic sameFields)
    · exact .inr (aliases_of_fields_eq sameMnemonic sameOpcode sameFields)
  · rintro (same | aliases | aliases)
    · obtain ⟨leftMnemonic, leftFields⟩ := left.fields_forgetRight
      obtain ⟨rightMnemonic, rightFields⟩ := right.fields_forgetRight
      rw [← leftMnemonic, ← leftFields, same, rightMnemonic, rightFields]
      exact ⟨rfl, rfl⟩
    · exact fields_of_aliases aliases
    · obtain ⟨sameOpcode, sameFields⟩ := fields_of_aliases aliases
      exact ⟨sameOpcode.symm, sameFields.symm⟩

end Instruction

inductive EncodingRule.Makes : EncodingRule → Instruction → Prop where
  | bare (instruction : Instruction) : Makes (.bare instruction) instruction
  | value (make : UInt8 → Instruction) {low : UInt8} (small : low.toNat ≤ Word.lowMax) :
      Makes (.value make) (make low)
  | register (make : Register → Instruction) {only : Register} (valid : only.Valid) :
      Makes (.register make) (make only)
  | registerValue (make : Register → UInt8 → Instruction) {only : Register} {low : UInt8}
      (valid : only.Valid) (small : low.toNat ≤ Word.lowMax) :
      Makes (.registerValue make) (make only low)
  | registers (make : Register → Register → Register → Instruction)
      {target left right : Register} (targetValid : target.Valid) (leftValid : left.Valid)
      (rightValid : right.Valid) : Makes (.registers make) (make target left right)

theorem Register.valid_of_ofToken?_eq_some {token : String} {register : Register}
    (named : ofToken? token = some register) : register.Valid := by
  unfold ofToken? at named
  split at named
  · split at named
    · obtain ⟨index, _, found⟩ := Option.bind_eq_some_iff.mp named
      exact ((ofIndex?_eq_some_iff _ register).mp found).2
    · simp at named
  · simp at named

namespace OperandTokens

variable {operands : OperandTokens} {index : Nat}

theorem valid_of_register_eq_ok {table : SymbolTable} {register : Register}
    (read : operands.register table index = .ok register) : register.Valid := by
  rw [register_eq_namedRegister] at read
  obtain ⟨token, _, named⟩ := Result.exists_of_bind_eq_ok read
  cases found : Register.ofToken? token with
  | none => simp [found] at named
  | some other =>
      simp only [found, Option.elim_some, Except.ok.injEq] at named
      rw [← named]
      exact Register.valid_of_ofToken?_eq_some found

theorem small_of_value_eq_ok {table : SymbolTable} {low : UInt8}
    (read : operands.value table index = .ok low) : low.toNat ≤ Word.lowMax := by
  obtain ⟨token, _, read⟩ := Result.exists_of_bind_eq_ok read
  obtain ⟨operand, _, read⟩ := Result.exists_of_bind_eq_ok read
  obtain ⟨value, _, read⟩ := Result.exists_of_bind_eq_ok read
  split at read
  · rename_i range
    have small : value.toNat ≤ Word.lowMax := by omega
    rw [Except.ok.injEq] at read
    rw [← read, Statement.toNat_toUInt8_of_le small]
    exact small
  · simp at read

end OperandTokens

namespace Instruction

theorem makes_of_build_eq_ok {table : SymbolTable} {mnemonic : Mnemonic} {tokens : List String}
    {instruction : Instruction} (built : build table mnemonic tokens = .ok instruction) :
    ∃ rule, mnemonic.rule? = some rule ∧ rule.Makes instruction := by
  unfold build at built
  cases ruled : mnemonic.rule? with
  | none => simp [ruled] at built
  | some rule =>
      refine ⟨rule, rfl, ?_⟩
      simp only [ruled] at built
      split at built
      · simp at built
      · cases rule with
        | bare only =>
            obtain rfl := Except.ok.inj built
            exact .bare only
        | value make =>
            obtain ⟨low, read, made⟩ := Result.exists_of_bind_eq_ok built
            obtain rfl := Except.ok.inj made
            exact .value make (OperandTokens.small_of_value_eq_ok read)
        | register make =>
            obtain ⟨only, read, made⟩ := Result.exists_of_bind_eq_ok built
            obtain rfl := Except.ok.inj made
            exact .register make (OperandTokens.valid_of_register_eq_ok read)
        | registerValue make =>
            obtain ⟨only, read, built⟩ := Result.exists_of_bind_eq_ok built
            obtain ⟨low, readLow, made⟩ := Result.exists_of_bind_eq_ok built
            obtain rfl := Except.ok.inj made
            exact .registerValue make (OperandTokens.valid_of_register_eq_ok read)
              (OperandTokens.small_of_value_eq_ok readLow)
        | registers make =>
            obtain ⟨target, readTarget, built⟩ := Result.exists_of_bind_eq_ok built
            obtain ⟨left, readLeft, built⟩ := Result.exists_of_bind_eq_ok built
            obtain ⟨right, readRight, made⟩ := Result.exists_of_bind_eq_ok built
            obtain rfl := Except.ok.inj made
            exact .registers make (OperandTokens.valid_of_register_eq_ok readTarget)
              (OperandTokens.valid_of_register_eq_ok readLeft)
              (OperandTokens.valid_of_register_eq_ok readRight)

theorem fits_of_makes {mnemonic : Mnemonic} {rule : EncodingRule} {instruction : Instruction}
    (ruled : mnemonic.rule? = some rule) (makes : rule.Makes instruction) :
    instruction.mnemonic = mnemonic ∧ instruction.Fits := by
  have zero : (0 : UInt8).toNat < 8 := by decide
  have zeroLow : (0 : UInt8).toNat ≤ Word.lowMax := by decide
  have oneLow : (1 : UInt8).toNat ≤ Word.lowMax := by decide
  cases mnemonic <;> simp only [Mnemonic.rule?, Option.some.injEq, reduceCtorEq] at ruled <;>
    subst ruled <;> cases makes <;> refine ⟨rfl, ?_, ?_, ?_⟩ <;> assumption

theorem fits_of_ofTokens_eq_ok {table : SymbolTable} {name : String} {tokens : List String}
    {instruction : Instruction} (read : ofTokens table name tokens = .ok instruction) :
    name = instruction.mnemonic.name ∧ instruction.Fits := by
  unfold ofTokens at read
  cases named : Mnemonic.ofName? name with
  | none => simp [named] at read
  | some mnemonic =>
      simp only [named] at read
      obtain ⟨rule, ruled, makes⟩ := makes_of_build_eq_ok read
      obtain ⟨rfl, fits⟩ := fits_of_makes ruled makes
      have same := List.find?_some named
      exact ⟨(beq_iff_eq.mp same).symm, fits⟩

/-- Two statements that are accepted have one word exactly if they have one mnemonic and the same
operands, the right operand of `ADD`, `SUB` and `MUL` apart, or if they are listed as aliases. -/
theorem word_eq_iff_of_ofTokens (leftTable rightTable : SymbolTable) (leftName rightName : String)
    (leftTokens rightTokens : List String) (left right : Instruction)
    (leftRead : ofTokens leftTable leftName leftTokens = .ok left)
    (rightRead : ofTokens rightTable rightName rightTokens = .ok right) :
    (left.word = right.word ↔
      leftName = rightName ∧ left.forgetRight = right.forgetRight ∨
        left.Aliases right ∨ right.Aliases left) ∧
    (left = .halt ∨ left = .reti → left.word = right.word → right = left) := by
  obtain ⟨leftNamed, leftFits⟩ := fits_of_ofTokens_eq_ok leftRead
  obtain ⟨rightNamed, rightFits⟩ := fits_of_ofTokens_eq_ok rightRead
  have words := (word_eq_iff_of_fits leftFits rightFits).trans (fields_eq_iff left right)
  constructor
  · rw [words]
    refine or_congr_left ⟨fun same => ⟨?_, same⟩, And.right⟩
    have sameMnemonic : left.mnemonic = right.mnemonic := by
      rw [← left.fields_forgetRight.1, same, right.fields_forgetRight.1]
    rw [leftNamed, rightNamed, sameMnemonic]
  · intro plain sameWord
    rcases words.mp sameWord with same | aliases | aliases
    · rcases plain with rfl | rfl <;> cases right <;> cases same <;> rfl
    · rcases plain with rfl | rfl <;> cases aliases
    · rcases plain with rfl | rfl <;> cases aliases

theorem word_eq_iff_of_ofTokens_jz_mul :
    ofTokens ⟨[⟨"loop", 0, 1⟩], by decide⟩ "JZ" ["R3", "loop"] = .ok (jz ⟨3⟩ 0) ∧
      ofTokens .empty "MUL" ["r0", "R3", "R5"] = .ok (mul ⟨0⟩ ⟨3⟩ ⟨5⟩) ∧
      (jz ⟨3⟩ 0).word = (mul ⟨0⟩ ⟨3⟩ ⟨5⟩).word := by
  refine ⟨rfl, rfl, ?_⟩
  exact (word_eq_iff_of_ofTokens ⟨[⟨"loop", 0, 1⟩], by decide⟩ .empty "JZ" "MUL" ["R3", "loop"]
    ["r0", "R3", "R5"] _ _ rfl rfl).1.mpr (.inr (.inl (.jzMul ⟨3⟩ ⟨5⟩)))

end Instruction

end TwoPass
