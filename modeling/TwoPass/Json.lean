import TwoPass.Text.Digits

/-!
JSON values, and records in them. A record is an object with the names of its fields as keys, or an
array with its fields in order.
-/

namespace TwoPass

/-- A number is kept as it is spelled. A string or key is `none` if its escapes leave half of a
surrogate pair alone, so that it spells no text. -/
inductive Json where
  | null
  | bool (value : Bool)
  | number (spelling : String)
  | string (text : Option String)
  | array (items : List Json)
  | object (members : List (Option String × Json))

namespace Json

def natBelow? (bound : Nat) : Json → Option Nat
  | number spelling => (Text.number? 10 spelling.toList).filter fun value => decide (value < bound)
  | _ => none

def text? : Json → Option String
  | string text => text
  | _ => none

def optional? {α : Type} (read : Json → Option α) : Json → Option (Option α)
  | null => some none
  | value => (read value).map some

def list? {α : Type} (read : Json → Option α) : Json → Option (List α)
  | array items => items.mapM read
  | _ => none

/-- The value of a key, if the key is there. A key that is there twice is refused. -/
def member? (members : List (Option String × Json)) (name : String) : Option (Option Json) :=
  match members.filter fun member => member.1 == some name with
  | [] => some none
  | [member] => some (some member.2)
  | _ => none

/-- The fields of a record, each with its value if it has one. Keys of an object that name no field
are passed over. An array has at least `least` fields, and the last ones may be missing. -/
def record? (names : List String) (least : Nat) : Json → Option (List (Option Json))
  | object members =>
      if members.all fun member => member.1.isSome then names.mapM (member? members) else none
  | array items =>
      if least ≤ items.length ∧ items.length ≤ names.length then
        some (items.map some ++ List.replicate (names.length - items.length) none)
      else none
  | _ => none

def ofNat (value : Nat) : Json :=
  number (Text.decimal value)

def ofText (text : String) : Json :=
  string (some text)

end Json

end TwoPass
