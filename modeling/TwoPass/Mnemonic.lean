/-!
Mnemonics: their names and operation codes. Some codes belong to several mnemonics, so a word does
not tell by its code alone which of them it stands for.
-/

namespace TwoPass

inductive Mnemonic where
  | loadi | add | sub | and | or | xor | store | load | shl | shr | mov | cmp
  | jump | jz | jnz | not | halt | push | pop | mul | div | input | output | reti
deriving DecidableEq

namespace Mnemonic

def all : List Mnemonic :=
  [loadi, add, sub, and, or, xor, store, load, shl, shr, mov, cmp,
   jump, jz, jnz, not, halt, push, pop, mul, div, input, output, reti]

def name : Mnemonic → String
  | loadi => "LOADI"
  | add => "ADD"
  | sub => "SUB"
  | and => "AND"
  | or => "OR"
  | xor => "XOR"
  | store => "STORE"
  | load => "LOAD"
  | shl => "SHL"
  | shr => "SHR"
  | mov => "MOV"
  | cmp => "CMP"
  | jump => "JUMP"
  | jz => "JZ"
  | jnz => "JNZ"
  | not => "NOT"
  | halt => "HALT"
  | push => "PUSH"
  | pop => "POP"
  | mul => "MUL"
  | div => "DIV"
  | input => "IN"
  | output => "OUT"
  | reti => "RETI"

def opcode : Mnemonic → UInt8
  | loadi => 0x0
  | add => 0x1
  | sub => 0x2
  | and => 0x3
  | or => 0x4
  | xor => 0x5
  | store => 0x6
  | load => 0x7
  | shl => 0x8
  | shr => 0x9
  | mov => 0xA
  | cmp => 0xB
  | jump => 0xC
  | jz | mul | div => 0xD
  | jnz | push | pop | input | output => 0xE
  | not | halt | reti => 0xF

def isImplemented : Mnemonic → Bool
  | loadi | add | sub | store | load | jump | jz | jnz | halt | push | pop | mul | reti => true
  | and | or | xor | shl | shr | mov | cmp | not | div | input | output => false

def ofName? (name : String) : Option Mnemonic :=
  all.find? fun mnemonic => mnemonic.name == name

/-- The name with only its first letter capital, which stands for the mnemonic in data. -/
def title (mnemonic : Mnemonic) : String :=
  match mnemonic.name.toList with
  | [] => ""
  | first :: rest => String.ofList (first :: rest.map Char.toLower)

def index (mnemonic : Mnemonic) : Nat :=
  all.idxOf mnemonic

theorem ofName?_name (mnemonic : Mnemonic) : ofName? mnemonic.name = some mnemonic := by
  cases mnemonic <;> decide

end Mnemonic

end TwoPass
