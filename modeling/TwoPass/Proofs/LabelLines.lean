import TwoPass.Proofs.Reformatting
import TwoPass.Proofs.UnusedLabel

/-!
Labels on lines of their own. A label on the line of an instruction is bound like one that stands
alone just before it, so statements may be taken apart at their labels. A line of the source may be
broken after its label in the same way, which moves line numbers and nothing else.
-/

namespace TwoPass

def Statement.withoutLabel (statement : Statement) : Statement :=
  { statement with label := none }

/-- Some of the statements with a label and a mnemonic have been replaced by two: one with the label
alone, and one without it. -/
inductive Detaches : List Statement → List Statement → Prop where
  | nil : Detaches [] []
  | keep {statement : Statement} {statements detached : List Statement}
      (rest : Detaches statements detached) :
      Detaches (statement :: statements) (statement :: detached)
  | detach {statement : Statement} {label : String} {statements detached : List Statement}
      (named : statement.label = some label) (placed : statement.isPlaced = true)
      (rest : Detaches statements detached) :
      Detaches (statement :: statements)
        (Statement.labelOnly statement.line label :: statement.withoutLabel :: detached)

namespace Detaches

variable {statements detached : List Statement}

theorem refl (statements : List Statement) : Detaches statements statements := by
  induction statements with
  | nil => exact .nil
  | cons statement rest ih => exact .keep ih

theorem append_left (first : List Statement) (detaches : Detaches statements detached) :
    Detaches (first ++ statements) (first ++ detached) := by
  induction first with
  | nil => exact detaches
  | cons statement rest ih => exact .keep ih

theorem bindLabels_eq (detaches : Detaches statements detached) (table : SymbolTable)
    (address : UInt32) :
    Layout.bindLabels table address detached = Layout.bindLabels table address statements := by
  induction detaches generalizing table address with
  | nil => rfl
  | @keep statement statements detached _ ih =>
      rw [Layout.bindLabels, Layout.bindLabels]
      simp only [ih]
  | @detach statement label statements detached named placed _ ih =>
      have stays : statement.withoutLabel.isPlaced = true := placed
      rw [Layout.bindLabels_labelOnly, Layout.bindLabels]
      simp only [named, placed]
      cases table.bind label address statement.line with
      | error error => rfl
      | ok extended =>
          change Layout.bindLabels extended address (statement.withoutLabel :: detached) = _
          rw [Layout.bindLabels, stays]
          exact ih extended _

theorem map_code_eq (detaches : Detaches statements detached) :
    (code detached).map Statement.withoutLabel = (code statements).map Statement.withoutLabel := by
  induction detaches with
  | nil => rfl
  | @keep statement statements detached _ ih =>
      by_cases placed : statement.isPlaced = true
      · simpa [code, placed] using ih
      · simpa [code, placed] using ih
  | @detach statement label statements detached _ placed _ ih =>
      have alone : (Statement.labelOnly statement.line label).isPlaced = false := rfl
      have stays : statement.withoutLabel.isPlaced = true := placed
      have same : statement.withoutLabel.withoutLabel = statement.withoutLabel := rfl
      simpa [code, alone, stays, placed, same] using ih

end Detaches

theorem mapM_encode_place (table : SymbolTable) (statements : List Statement) :
    (Layout.place statements).mapM (PlacedStatement.encode table) =
      (placedFrom 0 ((code statements).map Statement.withoutLabel)).mapM
        (PlacedStatement.encode table) := by
  rw [Layout.place, placedFrom_map, List.mapM_map]
  rfl

theorem Detaches.assembleStatements_eq {statements detached : List Statement}
    (detaches : Detaches statements detached) (config : Config) :
    ({ config } : Assembler).assembleStatements detached =
      ({ config } : Assembler).assembleStatements statements := by
  rw [Assembler.assembleStatements_default, Assembler.assembleStatements_default,
    detaches.bindLabels_eq]
  cases Layout.bindLabels .empty 0 statements with
  | error error => rfl
  | ok table => simp only [mapM_encode_place table detached, mapM_encode_place table statements,
      detaches.map_code_eq]

/-- A program without its line numbers: labels with their addresses, and addresses with their
words. -/
def Program.outline (program : Program) : List (String × UInt32) × List (UInt32 × UInt16) :=
  (program.symbols.symbols.map fun symbol => (symbol.label, symbol.address),
   program.instructions.map fun encoded => (encoded.address, encoded.word))

theorem Program.outline_renumber (change : Nat → Nat) (program : Program) :
    (program.renumber change).outline = program.outline := by
  simp [outline, renumber, SymbolTable.renumber, Symbol.renumber, EncodedInstruction.renumber,
    Function.comp_def]

def outline? (result : Except AssemblyError Program) :
    Option (List (String × UInt32) × List (UInt32 × UInt16)) :=
  result.toOption.map Program.outline

theorem outline?_renumber (change : Nat → Nat) (result : Except AssemblyError Program) :
    outline? ((result.map (Program.renumber change)).mapError (AssemblyError.renumber change)) =
      outline? result := by
  cases result with
  | error error => rfl
  | ok program => exact congrArg some (program.outline_renumber change)

theorem outline?_of_map_renumber_eq {statements others : List Statement}
    (same : statements.map (Statement.renumber fun _ => 0) =
      others.map (Statement.renumber fun _ => 0)) (config : Config) :
    outline? (({ config } : Assembler).assembleStatements statements) =
      outline? (({ config } : Assembler).assembleStatements others) := by
  have first := Assembler.assembleStatements_renumber (fun _ => 0) config statements
  have second := Assembler.assembleStatements_renumber (fun _ => 0) config others
  rw [← outline?_renumber fun _ => 0, ← first, same, second, outline?_renumber]

/-- A line with a label: the name before its first colon, which stands in front of any comment, and
no other colon before the comment. -/
structure LabelledLine (name rest : String) : Prop where
  unbroken : '\n' ∉ name.toList ∧ '\n' ∉ rest.toList
  first : ':' ∉ name.toList ∧ ';' ∉ name.toList
  only : ':' ∉ Statement.withoutComment rest.toList

namespace Statement

theorem ofChars?_labelled (line : Nat) {name : List Char} (first : ':' ∉ name) (plain : ';' ∉ name)
    (rest : List Char) :
    ofChars? line (name ++ ':' :: rest) =
      (checkLabel line (Text.trim name)).map fun label =>
        ofWords? line (some label) (Text.words (withoutComment rest)) := by
  have kept : withoutComment (name ++ ':' :: rest) = name ++ ':' :: withoutComment rest :=
    withoutComment_append_of_not_mem plain (':' :: rest)
  rw [ofChars?, kept, splitLabel_append first]
  simp only
  cases checkLabel line (Text.trim name) <;> rfl

theorem ofChars?_unlabelled (line : Nat) {rest : List Char} (only : ':' ∉ withoutComment rest) :
    ofChars? line rest = .ok (ofWords? line none (Text.words (withoutComment rest))) := by
  rw [ofChars?, splitLabel_of_not_mem only]

theorem ofLines_cons_eq_bind (number : Nat) (text : List Char) (rest : List (List Char)) :
    ofLines number (text :: rest) =
      (ofChars? number text).bind fun read =>
        (ofLines (number + 1) rest).map (read.toList ++ ·) := by
  rw [ofLines_cons]
  cases ofChars? number text with
  | error error => rfl
  | ok read =>
      cases read with
      | none => cases ofLines (number + 1) rest <;> rfl
      | some statement => rfl

theorem ofLines_labelled (number : Nat) {name : List Char} (first : ':' ∉ name)
    (plain : ';' ∉ name) (rest : List Char) (after : List (List Char)) :
    ofLines number ((name ++ ':' :: rest) :: after) =
      (checkLabel number (Text.trim name)).bind fun label =>
        (ofLines (number + 1) after).map fun later =>
          (ofWords? number (some label) (Text.words (withoutComment rest))).toList ++ later := by
  rw [ofLines_cons_eq_bind, ofChars?_labelled number first plain]
  cases checkLabel number (Text.trim name) <;> rfl

theorem ofLines_broken (number : Nat) {name : List Char} (first : ':' ∉ name)
    (plain : ';' ∉ name) {rest : List Char} (only : ':' ∉ withoutComment rest)
    (after : List (List Char)) :
    ofLines number ((name ++ [':']) :: rest :: after) =
      (checkLabel number (Text.trim name)).bind fun label =>
        (ofLines (number + 2) after).map fun later =>
          labelOnly number label ::
            ((ofWords? (number + 1) none (Text.words (withoutComment rest))).toList ++ later) := by
  rw [ofLines_labelled number first plain, ofLines_cons_eq_bind, ofChars?_unlabelled _ only]
  cases checkLabel number (Text.trim name) with
  | error error => rfl
  | ok label => cases ofLines (number + 1 + 1) after <;> rfl

end Statement

theorem outline?_break (config : Config) (before after : List Statement) (number : Nat)
    (label : String) (words : List (List Char)) :
    outline? (({ config } : Assembler).assembleStatements
        (before ++ Statement.labelOnly number label ::
          ((Statement.ofWords? (number + 1) none words).toList
            ++ after.map (Statement.renumber (· + 1))))) =
      outline? (({ config } : Assembler).assembleStatements
        (before ++ ((Statement.ofWords? number (some label) words).toList ++ after))) := by
  cases words with
  | nil =>
      apply outline?_of_map_renumber_eq
      simp [Statement.ofWords?, Statement.renumber, Function.comp_def]
  | cons mnemonic operands =>
      have detaches := Detaches.append_left before
        (@Detaches.detach ⟨number, some (String.ofList (Text.uppercase mnemonic)),
          operands.map String.ofList, some label⟩ label after after rfl rfl (.refl after))
      change _ = outline? (({ config } : Assembler).assembleStatements (before ++ _ :: after))
      rw [← detaches.assembleStatements_eq config]
      apply outline?_of_map_renumber_eq
      simp [Statement.ofWords?, Statement.renumber, Statement.withoutLabel, Function.comp_def]

theorem outline?_break_lines (config : Config) (before after : List (List Char))
    {name rest : List Char} (first : ':' ∉ name) (plain : ';' ∉ name)
    (only : ':' ∉ Statement.withoutComment rest) :
    outline? (Statement.ofLines 1 (before ++ (name ++ [':']) :: rest :: after) >>=
        ({ config } : Assembler).assembleStatements) =
      outline? (Statement.ofLines 1 (before ++ (name ++ ':' :: rest) :: after) >>=
        ({ config } : Assembler).assembleStatements) := by
  have moved : Statement.ofLines (1 + before.length + 2) after =
      ((Statement.ofLines (1 + before.length + 1) after).map
        (List.map (Statement.renumber (· + 1)))).mapError (AssemblyError.renumber (· + 1)) := by
    apply Statement.ofLines_renumber
    intro offset _
    omega
  rw [Statement.ofLines_append, Statement.ofLines_append,
    Statement.ofLines_broken _ first plain only, Statement.ofLines_labelled _ first plain, moved]
  cases Statement.ofLines 1 before with
  | error error => rfl
  | ok earlier =>
      cases Statement.checkLabel (1 + before.length) (Text.trim name) with
      | error error => rfl
      | ok label =>
          cases Statement.ofLines (1 + before.length + 1) after with
          | error error => rfl
          | ok later => exact outline?_break config earlier later _ label _

theorem outline?_break_line (config : Config) {before after : List String} {name rest : String}
    (unbroken : ∀ line ∈ before ++ after, '\n' ∉ line.toList) (labelled : LabelledLine name rest) :
    outline? (({ config } : Assembler).assemble
        ("\n".intercalate (before ++ (name ++ ":") :: rest :: after))) =
      outline? (({ config } : Assembler).assemble
        ("\n".intercalate (before ++ (name ++ ":" ++ rest) :: after))) := by
  obtain ⟨nameUnbroken, restUnbroken⟩ := labelled.unbroken
  simp only [List.mem_append] at unbroken
  have whole : ∀ line ∈ before ++ (name ++ ":" ++ rest) :: after, '\n' ∉ line.toList := by
    intro line member
    rw [List.mem_append, List.mem_cons] at member
    rcases member with inside | rfl | inside
    · exact unbroken line (.inl inside)
    · simp [String.toList_append, nameUnbroken, restUnbroken]
    · exact unbroken line (.inr inside)
  have parts : ∀ line ∈ before ++ (name ++ ":") :: rest :: after, '\n' ∉ line.toList := by
    intro line member
    rw [List.mem_append, List.mem_cons, List.mem_cons] at member
    rcases member with inside | rfl | rfl | inside
    · exact unbroken line (.inl inside)
    · simp [String.toList_append, nameUnbroken]
    · exact restUnbroken
    · exact unbroken line (.inr inside)
  have broken := outline?_break_lines config (before.map String.toList) (after.map String.toList)
    labelled.first.1 labelled.first.2 labelled.only
  rw [Assembler.assemble_eq, Assembler.assemble_eq, Statement.ofSource_intercalate whole,
    Statement.ofSource_intercalate parts]
  simpa [String.toList_append] using broken

namespace Assembler

/-- Taking any statements apart at their labels leaves the result of a run exactly as it is.
Breaking a line of the source after its label leaves everything but line numbers. -/
theorem assemble_detached (config : Config) :
    (∀ statements detached, Detaches statements detached →
      ({ config } : Assembler).assembleStatements detached =
        ({ config } : Assembler).assembleStatements statements) ∧
    ∀ (before after : List String) (name rest : String),
      (∀ line ∈ before ++ after, '\n' ∉ line.toList) → LabelledLine name rest →
      outline? (({ config } : Assembler).assemble
          ("\n".intercalate (before ++ (name ++ ":") :: rest :: after))) =
        outline? (({ config } : Assembler).assemble
          ("\n".intercalate (before ++ (name ++ ":" ++ rest) :: after))) := by
  constructor
  · intro statements detached detaches
    exact detaches.assembleStatements_eq config
  · intro before after name rest unbroken labelled
    exact outline?_break_line config unbroken labelled

theorem assemble_detached_halt :
    ({} : Assembler).assembleStatements [.labelOnly 2 "stop", ⟨2, some "HALT", [], none⟩,
        ⟨3, some "HALT", [], some "stop"⟩] = .error (.duplicateLabel "stop" 3 2) ∧
      outline? (({} : Assembler).assemble "JUMP stop\nstop:\n HALT ; never: reached") =
        some ([("stop", 1)], [(0, 0xC001), (1, 0xF000)]) := by
  obtain ⟨statements, sources⟩ := assemble_detached {}
  have labelled : LabelledLine "stop" " HALT ; never: reached" :=
    ⟨⟨by decide, by decide⟩, ⟨by decide, by decide⟩, by decide⟩
  constructor
  · exact (statements [⟨2, some "HALT", [], some "stop"⟩, ⟨3, some "HALT", [], some "stop"⟩] _
      (.detach rfl rfl (.keep .nil))).trans rfl
  · exact (sources ["JUMP stop"] [] "stop" " HALT ; never: reached" (by decide) labelled).trans rfl

end Assembler

end TwoPass
