import TwoPass.Mnemonic
import TwoPass.Register

/-!
Instructions and the words that stand for them. A word has the operation code in its top four bits,
then two register fields of three bits each, then a low field of six bits.
-/

namespace TwoPass

namespace Word

def opcodeShift : UInt16 := 12

def firstShift : UInt16 := 9

def secondShift : UInt16 := 6

def lowMax : Nat := 63

/-- Puts the four fields into their places. Bits that a field has beyond the word are lost, and
bits that it has beyond its place are joined with those of the field there. -/
def pack (opcode first second low : UInt8) : UInt16 :=
  opcode.toUInt16 <<< opcodeShift ||| first.toUInt16 <<< firstShift
    ||| second.toUInt16 <<< secondShift ||| low.toUInt16

end Word

inductive Instruction where
  | loadi (target : Register) (value : UInt8)
  | add (target left right : Register)
  | sub (target left right : Register)
  | mul (target left right : Register)
  | store (source : Register) (address : UInt8)
  | load (target : Register) (address : UInt8)
  | jump (address : UInt8)
  | jz (source : Register) (address : UInt8)
  | jnz (source : Register) (address : UInt8)
  | push (source : Register)
  | pop (target : Register)
  | halt
  | reti
deriving DecidableEq

namespace Instruction

def mnemonic : Instruction → Mnemonic
  | loadi .. => .loadi
  | add .. => .add
  | sub .. => .sub
  | mul .. => .mul
  | store .. => .store
  | load .. => .load
  | jump .. => .jump
  | jz .. => .jz
  | jnz .. => .jnz
  | push .. => .push
  | pop .. => .pop
  | halt => .halt
  | reti => .reti

/-- The two register fields and the low field. The right operand of `ADD`, `SUB` and `MUL` has no
place in the word. -/
def fields : Instruction → UInt8 × UInt8 × UInt8
  | loadi target value => (target.index, 0, value)
  | add target left _ | sub target left _ | mul target left _ => (left.index, target.index, 0)
  | store source address => (source.index, 0, address)
  | load target address => (target.index, 0, address)
  | jump address => (0, 0, address)
  | jz source address | jnz source address => (source.index, 0, address)
  | push source => (source.index, 0, 0)
  | pop target => (0, target.index, 0)
  | halt => (0, 0, 0)
  | reti => (0, 0, 1)

def word (instruction : Instruction) : UInt16 :=
  let (first, second, low) := instruction.fields
  Word.pack instruction.mnemonic.opcode first second low

end Instruction

end TwoPass
