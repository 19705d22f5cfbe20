import TwoPass.Mnemonic
import TwoPass.Register

/-!
Why a statement has no word, and why a program does not assemble. Every cause has one text.
-/

namespace TwoPass

inductive ErrorKind where
  | source
  | unknownInstruction
  | notImplemented
  | operand
  | range
deriving DecidableEq

inductive EncodeError where
  | unknownInstruction (name : String)
  | notImplemented (mnemonic : Mnemonic)
  /-- The operand at the given place, counted from one, is missing. -/
  | missingOperand (mnemonic : Mnemonic) (expected place : Nat)
  | unexpectedOperand (mnemonic : Mnemonic) (expected found : Nat)
  | expectedRegister (token : String)
  | expectedValue (register : Register)
  | malformedOperand (token : String)
  | undefinedLabel (token : String)
  | outOfRange (value : Int) (max : Nat)
deriving DecidableEq

namespace EncodeError

def kind : EncodeError → ErrorKind
  | unknownInstruction _ => .unknownInstruction
  | notImplemented _ => .notImplemented
  | outOfRange .. => .range
  | missingOperand .. | unexpectedOperand .. | expectedRegister _ | expectedValue _
  | malformedOperand _ | undefinedLabel _ => .operand

def message : EncodeError → String
  | unknownInstruction name => "Unknown instruction: " ++ name
  | notImplemented mnemonic => "Instruction encoding not implemented: " ++ mnemonic.name
  | missingOperand mnemonic expected place =>
      mnemonic.name ++ " expects " ++ Text.decimal expected ++ " operand(s), operand "
        ++ Text.decimal place ++ " is missing"
  | unexpectedOperand mnemonic expected found =>
      mnemonic.name ++ " expects " ++ Text.decimal expected ++ " operand(s), got "
        ++ Text.decimal found
  | expectedRegister token => "Invalid register: " ++ token
  | expectedValue register =>
      "Expected an immediate or address, found register " ++ register.name
  | malformedOperand token => "Malformed operand: " ++ token
  | undefinedLabel token => "Undefined label: " ++ token
  | outOfRange value max =>
      "Value " ++ Text.signedDecimal value ++ " exceeds 6-bit range (0-" ++ Text.decimal max ++ ")"

end EncodeError

inductive AssemblyError where
  | malformed (line : Nat) (reason : String)
  | duplicateLabel (label : String) (line firstLine : Nat)
  | encode (address : UInt32) (line : Nat) (cause : EncodeError)
  | programTooLarge (count capacity : Nat)
deriving DecidableEq

namespace AssemblyError

def kind : AssemblyError → ErrorKind
  | malformed .. | duplicateLabel .. => .source
  | encode _ _ cause => cause.kind
  | programTooLarge .. => .range

def address? : AssemblyError → Option UInt32
  | encode address _ _ => some address
  | _ => none

def message : AssemblyError → String
  | malformed line reason => "line " ++ Text.decimal line ++ ": syntax error: " ++ reason
  | duplicateLabel label line firstLine =>
      "line " ++ Text.decimal line ++ ": label `" ++ label ++ "` already defined on line "
        ++ Text.decimal firstLine
  | encode address line cause =>
      "Error at address " ++ Text.decimal address.toNat ++ " (line " ++ Text.decimal line ++ "): "
        ++ cause.message
  | programTooLarge count capacity =>
      "program has " ++ Text.decimal count ++ " instructions, memory holds "
        ++ Text.decimal capacity ++ " words"

end AssemblyError

end TwoPass
