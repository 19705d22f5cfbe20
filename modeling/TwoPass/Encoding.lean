import TwoPass.Instruction
import TwoPass.Operand

/-!
From the mnemonic and the operand tokens of a statement to its instruction. Operands are read from
left to right, and the first one at fault decides the error; too many of them are refused before
any is read.
-/

namespace TwoPass

inductive EncodingRule where
  | bare (instruction : Instruction)
  | value (make : UInt8 → Instruction)
  | register (make : Register → Instruction)
  | registerValue (make : Register → UInt8 → Instruction)
  | registers (make : Register → Register → Register → Instruction)

def EncodingRule.arity : EncodingRule → Nat
  | bare _ => 0
  | value _ | register _ => 1
  | registerValue _ => 2
  | registers _ => 3

namespace Mnemonic

def rule? : Mnemonic → Option EncodingRule
  | loadi => some (.registerValue .loadi)
  | add => some (.registers .add)
  | sub => some (.registers .sub)
  | mul => some (.registers .mul)
  | store => some (.registerValue .store)
  | load => some (.registerValue .load)
  | jump => some (.value .jump)
  | jz => some (.registerValue .jz)
  | jnz => some (.registerValue .jnz)
  | push => some (.register .push)
  | pop => some (.register .pop)
  | halt => some (.bare .halt)
  | reti => some (.bare .reti)
  | and | or | xor | shl | shr | mov | cmp | not | div | input | output => none

theorem isSome_rule? (mnemonic : Mnemonic) : mnemonic.rule?.isSome = mnemonic.isImplemented := by
  cases mnemonic <;> rfl

end Mnemonic

namespace Operand

/-- A token that is no operand at all is refused in the same way as one that is no register. -/
def readRegister (table : SymbolTable) (token : String) : Except EncodeError Register :=
  match resolve table token with
  | .ok operand => operand.asRegister token
  | .error (.undefinedLabel name) | .error (.malformedOperand name) =>
      .error (.expectedRegister name)
  | .error error => .error error

def lowValue (table : SymbolTable) (token : String) : Except EncodeError UInt8 := do
  let operand ← resolve table token
  let value ← operand.asValue
  if 0 ≤ value ∧ value ≤ Word.lowMax then .ok value.toNat.toUInt8
  else .error (.outOfRange value Word.lowMax)

/-- No label and no literal is a register, so the table is not asked. -/
theorem readRegister_eq (table : SymbolTable) (token : String) :
    readRegister table token =
      (Register.ofToken? token).elim (.error (.expectedRegister token)) .ok := by
  unfold readRegister resolve
  cases Register.ofToken? token with
  | some register => rfl
  | none =>
      cases table.resolve? token with
      | some address => rfl
      | none =>
          cases Literal.value? token with
          | some value => rfl
          | none => cases looksLikeName token <;> rfl

end Operand

structure OperandTokens where
  mnemonic : Mnemonic
  arity : Nat
  tokens : List String

namespace OperandTokens

def token (operands : OperandTokens) (index : Nat) : Except EncodeError String :=
  match operands.tokens[index]? with
  | some token => .ok token
  | none => .error (.missingOperand operands.mnemonic operands.arity (index + 1))

def register (operands : OperandTokens) (table : SymbolTable) (index : Nat) :
    Except EncodeError Register := do
  Operand.readRegister table (← operands.token index)

def value (operands : OperandTokens) (table : SymbolTable) (index : Nat) :
    Except EncodeError UInt8 := do
  Operand.lowValue table (← operands.token index)

end OperandTokens

namespace Instruction

def build (table : SymbolTable) (mnemonic : Mnemonic) (tokens : List String) :
    Except EncodeError Instruction :=
  match mnemonic.rule? with
  | none => .error (.notImplemented mnemonic)
  | some rule =>
    let operands : OperandTokens := ⟨mnemonic, rule.arity, tokens⟩
    if rule.arity < tokens.length then
      .error (.unexpectedOperand mnemonic rule.arity tokens.length)
    else
      match rule with
      | .bare instruction => .ok instruction
      | .value make => do
          return make (← operands.value table 0)
      | .register make => do
          return make (← operands.register table 0)
      | .registerValue make => do
          return make (← operands.register table 0) (← operands.value table 1)
      | .registers make => do
          let target ← operands.register table 0
          let left ← operands.register table 1
          let right ← operands.register table 2
          return make target left right

def ofTokens (table : SymbolTable) (name : String) (tokens : List String) :
    Except EncodeError Instruction :=
  match Mnemonic.ofName? name with
  | none => .error (.unknownInstruction name)
  | some mnemonic => build table mnemonic tokens

end Instruction

end TwoPass
