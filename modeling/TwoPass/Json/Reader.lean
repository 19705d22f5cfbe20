import TwoPass.Json.Token

/-!
Reading JSON values from tokens, one token after the other. Values may be nested to any depth.
-/

namespace TwoPass.Json

/-- An array or object that is still open, with what it has so far, the last first. -/
inductive Frame where
  | array (items : List Json)
  | member (members : List (Option String × Json)) (key : Option String)

inductive Reading where
  | valueNext (enclosing : List Frame)
  | itemOrEnd (enclosing : List Frame)
  | keyOrEnd (enclosing : List Frame)
  | keyNext (members : List (Option String × Json)) (enclosing : List Frame)
  | colonNext (members : List (Option String × Json)) (key : Option String)
      (enclosing : List Frame)
  | complete (value : Json) (enclosing : List Frame)

namespace Reading

def startValue (enclosing : List Frame) : Token → Option Reading
  | .scalar value => some (complete value enclosing)
  | .string text => some (complete (.string text) enclosing)
  | .leftBracket => some (itemOrEnd enclosing)
  | .leftBrace => some (keyOrEnd enclosing)
  | _ => none

def startMember (members : List (Option String × Json)) (enclosing : List Frame) :
    Token → Option Reading
  | .string text => some (colonNext members text enclosing)
  | _ => none

def step : Reading → Token → Option Reading
  | valueNext enclosing, token => startValue enclosing token
  | itemOrEnd enclosing, .rightBracket => some (complete (.array []) enclosing)
  | itemOrEnd enclosing, token => startValue (.array [] :: enclosing) token
  | keyOrEnd enclosing, .rightBrace => some (complete (.object []) enclosing)
  | keyOrEnd enclosing, token => startMember [] enclosing token
  | keyNext members enclosing, token => startMember members enclosing token
  | colonNext members key enclosing, .colon => some (valueNext (.member members key :: enclosing))
  | complete value (.array items :: enclosing), .comma =>
      some (valueNext (.array (value :: items) :: enclosing))
  | complete value (.array items :: enclosing), .rightBracket =>
      some (complete (.array (value :: items).reverse) enclosing)
  | complete value (.member members key :: enclosing), .comma =>
      some (keyNext ((key, value) :: members) enclosing)
  | complete value (.member members key :: enclosing), .rightBrace =>
      some (complete (.object ((key, value) :: members).reverse) enclosing)
  | _, _ => none

def finish : Reading → Option Json
  | complete value [] => some value
  | _ => none

end Reading

def ofTokens? (tokens : List Token) : Option Json :=
  (tokens.foldlM Reading.step (.valueNext [])).bind Reading.finish

def ofText? (text : String) : Option Json :=
  (tokens? text.toList).bind ofTokens?

end TwoPass.Json
