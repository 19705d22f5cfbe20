import TwoPass.Error
import TwoPass.Statement
import TwoPass.Text.Lines
import TwoPass.Text.Words

/-!
Reading statements. A semicolon starts a comment. The first colon ends a label; after it stand the
mnemonic and its operands, separated by commas and white space.
-/

namespace TwoPass.Statement

def withoutComment (line : List Char) : List Char :=
  line.takeWhile (· != ';')

def splitLabel (code : List Char) : Option (List Char) × List Char :=
  match code.dropWhile (· != ':') with
  | [] => (none, code)
  | _ :: rest => (some (code.takeWhile (· != ':')), rest)

def checkLabel (line : Nat) (name : List Char) : Except AssemblyError String :=
  if name.isEmpty then .error (.malformed line "missing label name before ':'")
  else if name.any Text.isSeparator then
    .error (.malformed line ("invalid label name `" ++ String.ofList name ++ "`"))
  else .ok (String.ofList name)

def ofWords? (line : Nat) (label : Option String) : List (List Char) → Option Statement
  | [] => label.map (labelOnly line)
  | mnemonic :: operands =>
      some ⟨line, some (String.ofList (Text.uppercase mnemonic)), operands.map String.ofList, label⟩

/-- The statement of one line, `none` if the line has nothing but white space, commas and a
comment. -/
def ofChars? (line : Nat) (text : List Char) : Except AssemblyError (Option Statement) :=
  match splitLabel (withoutComment text) with
  | (none, rest) => .ok (ofWords? line none (Text.words rest))
  | (some name, rest) =>
      match checkLabel line (Text.trim name) with
      | .error error => .error error
      | .ok label => .ok (ofWords? line (some label) (Text.words rest))

def ofLine? (line : Nat) (text : String) : Except AssemblyError (Option Statement) :=
  ofChars? line text.toList

def addLine (line : List Char × Nat) (rest : Except AssemblyError (List Statement)) :
    Except AssemblyError (List Statement) :=
  match ofChars? line.2 line.1 with
  | .error error => .error error
  | .ok none => rest
  | .ok (some statement) => rest.map (statement :: ·)

def ofSource (source : String) : Except AssemblyError (List Statement) :=
  ((Text.lines source.toList).zipIdx 1).foldr addLine (.ok [])

end TwoPass.Statement
