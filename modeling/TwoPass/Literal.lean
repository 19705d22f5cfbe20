import TwoPass.Text.Blank
import TwoPass.Text.Digits

/-!
Number literals. A literal may stand in one pair of square brackets, with white space inside them.
It has an optional minus sign and then hexadecimal digits after `0x`, binary digits after `0b`, or
decimal digits; the letter of the mark may be a capital.
-/

namespace TwoPass.Literal

def body (token : List Char) : List Char :=
  match token with
  | '[' :: rest => if rest.getLast? = some ']' then Text.trim rest.dropLast else token
  | _ => token

def integer? (base : Nat) (text : List Char) : Option Int :=
  let value : Option Int :=
    match text with
    | '-' :: digits => (Text.number? base digits).map fun number : Nat => -(number : Int)
    | '+' :: digits | digits => (Text.number? base digits).map fun number : Nat => (number : Int)
  value.filter fun value => Int64.minValue.toInt ≤ value ∧ value ≤ Int64.maxValue.toInt

/-- An integer may have a sign of its own, so a digit has to come first. -/
def unsigned? (base : Nat) (text : List Char) : Option Int :=
  match text.head?.bind (Text.digitValue? base) with
  | some _ => integer? base text
  | none => none

def magnitude? (numeral : List Char) : Option Int :=
  match numeral with
  | '0' :: 'x' :: digits | '0' :: 'X' :: digits => unsigned? 16 digits
  | '0' :: 'b' :: digits | '0' :: 'B' :: digits => unsigned? 2 digits
  | digits => unsigned? 10 digits

def value? (token : String) : Option Int :=
  match body token.toList with
  | '-' :: numeral => (magnitude? numeral).map fun magnitude => -magnitude
  | numeral => magnitude? numeral

end TwoPass.Literal
