import TwoPass.Literal
import TwoPass.SymbolTable

/-!
Operands. A token is a register, else a bound label, else a literal. A token that is none of these
is an undefined label if it reads like a name, and malformed otherwise.
-/

namespace TwoPass

inductive Operand where
  | register (register : Register)
  | label (name : String) (address : UInt32)
  | literal (value : Int)
deriving DecidableEq

namespace Operand

def looksLikeName (token : String) : Bool :=
  match token.toList.dropWhile (· == '[') with
  | [] => false
  | first :: _ => first.isAlpha || first == '_'

def resolve (table : SymbolTable) (token : String) : Except EncodeError Operand :=
  match Register.ofToken? token with
  | some found => .ok (.register found)
  | none =>
  match table.resolve? token with
  | some address => .ok (.label token address)
  | none =>
  match Literal.value? token with
  | some value => .ok (.literal value)
  | none =>
      if looksLikeName token then .error (.undefinedLabel token)
      else .error (.malformedOperand token)

def asRegister (token : String) : Operand → Except EncodeError Register
  | register found => .ok found
  | _ => .error (.expectedRegister token)

def asValue : Operand → Except EncodeError Int
  | register found => .error (.expectedValue found)
  | label _ address => .ok address.toNat
  | literal value => .ok value

end Operand

end TwoPass
