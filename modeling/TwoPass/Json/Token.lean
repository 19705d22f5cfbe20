import TwoPass.Json

/-!
The tokens of JSON text. Characters are read one by one; a word or a number ends where a character
stands that it cannot have, so that two of them never touch in a text that is read.
-/

namespace TwoPass.Json

inductive Token where
  | leftBracket | rightBracket | leftBrace | rightBrace | colon | comma
  | scalar (value : Json)
  | string (text : Option String)

def isSpace (c : Char) : Bool :=
  c == ' ' || c == '\t' || c == '\n' || c == '\r'

def isHighSurrogate (code : Nat) : Bool :=
  Nat.ble 0xD800 code && Nat.ble code 0xDBFF

def isLowSurrogate (code : Nat) : Bool :=
  Nat.ble 0xDC00 code && Nat.ble code 0xDFFF

/-- A text read from its end, with the low half of a pair whose high half has to come next. -/
structure Units where
  low : Option Nat
  text : List Char

def addUnit (code : Nat) (units : Option Units) : Option Units :=
  units.bind fun units =>
    match units.low with
    | some low =>
        if isHighSurrogate code then
          some ⟨none, Char.ofNat (0x10000 + (code - 0xD800) * 0x400 + (low - 0xDC00)) :: units.text⟩
        else none
    | none =>
        if isHighSurrogate code then none
        else if isLowSurrogate code then some ⟨some code, units.text⟩
        else some ⟨none, Char.ofNat code :: units.text⟩

def textOfUnits (codes : List Nat) : Option String :=
  (codes.foldr addUnit (some ⟨none, []⟩)).bind fun units =>
    if units.low.isSome then none else some (String.ofList units.text)

def isExponent : List Char → Bool
  | '+' :: digits | '-' :: digits => !digits.isEmpty && digits.all Char.isDigit
  | digits => !digits.isEmpty && digits.all Char.isDigit

def isExponentPart : List Char → Bool
  | [] => true
  | 'e' :: exponent | 'E' :: exponent => isExponent exponent
  | _ => false

def isFractionPart : List Char → Bool
  | '.' :: digit :: rest => digit.isDigit && isExponentPart (rest.dropWhile Char.isDigit)
  | rest => isExponentPart rest

def isUnsignedNumber : List Char → Bool
  | '0' :: rest => isFractionPart rest
  | digit :: rest => digit.isDigit && isFractionPart (rest.dropWhile Char.isDigit)
  | [] => false

def isNumber : List Char → Bool
  | '-' :: rest => isUnsignedNumber rest
  | rest => isUnsignedNumber rest

def isNumberChar (c : Char) : Bool :=
  c.isDigit || c == '-' || c == '+' || c == '.' || c == 'e' || c == 'E'

def scalarOfWord? (word : List Char) : Option Json :=
  if word = ['n', 'u', 'l', 'l'] then some null
  else if word = ['t', 'r', 'u', 'e'] then some (bool true)
  else if word = ['f', 'a', 'l', 's', 'e'] then some (bool false)
  else none

def scalarOfNumber? (spelling : List Char) : Option Json :=
  if isNumber spelling then some (number (String.ofList spelling)) else none

/-- What the characters so far are in the middle of. Characters and codes are kept last first. -/
inductive ScanMode where
  | between
  | word (letters : List Char)
  | number (characters : List Char)
  | string (codes : List Nat)
  | escape (codes : List Nat)
  /-- An escape by code: how many digits of the code are still to come, and the code so far. -/
  | code (codes : List Nat) (missing : Nat) (value : Nat)

structure Scan where
  tokens : List Token
  mode : ScanMode

namespace Scan

def start (tokens : List Token) (c : Char) : Option Scan :=
  if isSpace c then some ⟨tokens, .between⟩
  else if c.isDigit || c == '-' then some ⟨tokens, .number [c]⟩
  else if c.isLower then some ⟨tokens, .word [c]⟩
  else match c with
    | '"' => some ⟨tokens, .string []⟩
    | '[' => some ⟨.leftBracket :: tokens, .between⟩
    | ']' => some ⟨.rightBracket :: tokens, .between⟩
    | '\x7b' => some ⟨.leftBrace :: tokens, .between⟩
    | '\x7d' => some ⟨.rightBrace :: tokens, .between⟩
    | ':' => some ⟨.colon :: tokens, .between⟩
    | ',' => some ⟨.comma :: tokens, .between⟩
    | _ => none

def escapedCode? : Char → Option Nat
  | '"' => some 0x22
  | '\\' => some 0x5C
  | '/' => some 0x2F
  | 'b' => some 0x08
  | 'f' => some 0x0C
  | 'n' => some 0x0A
  | 'r' => some 0x0D
  | 't' => some 0x09
  | _ => none

def step (scan : Scan) (c : Char) : Option Scan :=
  match scan.mode with
  | .between => start scan.tokens c
  | .word letters =>
      if c.isLower then some ⟨scan.tokens, .word (c :: letters)⟩
      else (scalarOfWord? letters.reverse).bind fun value => start (.scalar value :: scan.tokens) c
  | .number characters =>
      if isNumberChar c then some ⟨scan.tokens, .number (c :: characters)⟩
      else (scalarOfNumber? characters.reverse).bind fun value =>
        start (.scalar value :: scan.tokens) c
  | .string codes =>
      if c = '"' then some ⟨.string (textOfUnits codes.reverse) :: scan.tokens, .between⟩
      else if c = '\\' then some ⟨scan.tokens, .escape codes⟩
      else if c.toNat < 0x20 then none
      else some ⟨scan.tokens, .string (c.toNat :: codes)⟩
  | .escape codes =>
      if c = 'u' then some ⟨scan.tokens, .code codes 4 0⟩
      else (escapedCode? c).map fun code => ⟨scan.tokens, .string (code :: codes)⟩
  | .code codes missing value =>
      (Text.digitValue? 16 c).map fun digit =>
        if missing ≤ 1 then ⟨scan.tokens, .string ((16 * value + digit) :: codes)⟩
        else ⟨scan.tokens, .code codes (missing - 1) (16 * value + digit)⟩

def finish (scan : Scan) : Option (List Token) :=
  match scan.mode with
  | .between => some scan.tokens.reverse
  | .word letters =>
      (scalarOfWord? letters.reverse).map fun value => (.scalar value :: scan.tokens).reverse
  | .number characters =>
      (scalarOfNumber? characters.reverse).map fun value => (.scalar value :: scan.tokens).reverse
  | _ => none

end Scan

def tokens? (text : List Char) : Option (List Token) :=
  (text.foldlM Scan.step ⟨[], .between⟩).bind Scan.finish

end TwoPass.Json
