import TwoPass.Json

/-!
Writing JSON values: on one line without spaces, or with one item to a line and two spaces of
indentation to a level.
-/

namespace TwoPass.Json

def escape (c : Char) : List Char :=
  match c with
  | '"' => ['\\', '"']
  | '\\' => ['\\', '\\']
  | '\x08' => ['\\', 'b']
  | '\x0c' => ['\\', 'f']
  | '\n' => ['\\', 'n']
  | '\r' => ['\\', 'r']
  | '\t' => ['\\', 't']
  | c =>
      if c.toNat < 0x20 then
        '\\' :: 'u' :: (Text.fixedDigits 16 4 c.toNat).map Nat.digitChar
      else [c]

/-- A string that spells no text is written as half of a surrogate pair. -/
def quote : Option String → List Char
  | some text => '"' :: text.toList.flatMap escape ++ ['"']
  | none => ['"', '\\', 'u', 'd', '8', '0', '0', '"']

def scalarText : Json → List Char
  | null => ['n', 'u', 'l', 'l']
  | bool true => ['t', 'r', 'u', 'e']
  | bool false => ['f', 'a', 'l', 's', 'e']
  | number spelling => spelling.toList
  | string text => quote text
  | array _ | object _ => []

/-- What is written between the parts of an array or object: `gap level` before every item and
before the closing bracket, and `afterColon` after the colon of a member. -/
structure Style where
  gap : Nat → List Char
  afterColon : List Char

def compactStyle : Style :=
  ⟨fun _ => [], []⟩

def prettyStyle : Style :=
  ⟨fun level => '\n' :: List.replicate (2 * level) ' ', [' ']⟩

mutual

def write (style : Style) (level : Nat) : Json → List Char
  | array [] => ['[', ']']
  | array (item :: items) =>
      '[' :: style.gap (level + 1) ++ write style (level + 1) item
        ++ writeItems style (level + 1) items ++ style.gap level ++ [']']
  | object [] => ['\x7b', '\x7d']
  | object (member :: members) =>
      '\x7b' :: style.gap (level + 1) ++ writeMember style (level + 1) member
        ++ writeMembers style (level + 1) members ++ style.gap level ++ ['\x7d']
  | value => scalarText value

def writeItems (style : Style) (level : Nat) : List Json → List Char
  | [] => []
  | item :: items =>
      ',' :: style.gap level ++ write style level item ++ writeItems style level items

def writeMember (style : Style) (level : Nat) : Option String × Json → List Char
  | (key, value) => quote key ++ ':' :: style.afterColon ++ write style level value

def writeMembers (style : Style) (level : Nat) : List (Option String × Json) → List Char
  | [] => []
  | member :: members =>
      ',' :: style.gap level ++ writeMember style level member ++ writeMembers style level members

end

def compact (value : Json) : String :=
  String.ofList (write compactStyle 0 value)

def pretty (value : Json) : String :=
  String.ofList (write prettyStyle 0 value)

end TwoPass.Json
