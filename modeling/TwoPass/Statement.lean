import TwoPass.Text.Uppercase

/-!
Statements: what a line of source says. A statement has a mnemonic with operands, a label, or both;
one without a mnemonic takes no address of its own.
-/

namespace TwoPass

structure Statement where
  line : Nat
  mnemonic : Option String
  operands : List String
  label : Option String
deriving DecidableEq

namespace Statement

def instruction (line : Nat) (mnemonic : String) (operands : List String) : Statement :=
  ⟨line, some (String.ofList (Text.uppercase mnemonic.toList)), operands, none⟩

def labelOnly (line : Nat) (label : String) : Statement :=
  ⟨line, none, [], some label⟩

def isLabelOnly (statement : Statement) : Bool :=
  statement.mnemonic.isNone

def isPlaced (statement : Statement) : Bool :=
  statement.mnemonic.isSome

def name (statement : Statement) : String :=
  statement.mnemonic.getD ""

end Statement

def addressCount (statements : List Statement) : Nat :=
  statements.countP Statement.isPlaced

end TwoPass
