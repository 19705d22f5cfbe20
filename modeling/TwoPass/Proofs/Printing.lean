import TwoPass.Proofs.SecondPass
import TwoPass.Proofs.Source
import TwoPass.Proofs.SourceLines
import TwoPass.Proofs.Uppercase

/-!
Printing statements as a source. The statements that can come out of a source are exactly those that
reading gives back after they have been printed, so a source and its printed statements assemble
alike.
-/

namespace TwoPass

namespace Text

theorem words_intercalate_commas {texts : List (List Char)}
    (tokens : ∀ text ∈ texts, text ≠ [] ∧ ∀ c ∈ text, isSeparator c = false) :
    words ([',', ' '].intercalate texts) = texts := by
  induction texts with
  | nil => rfl
  | cons first rest ih =>
      obtain ⟨nonempty, letters⟩ := tokens first List.mem_cons_self
      have alone := words_of_no_separator first nonempty letters
      cases rest with
      | nil => rw [List.intercalate_singleton, alone]
      | cons second others =>
          have tail := ih fun text member => tokens text (List.mem_cons_of_mem _ member)
          rw [List.intercalate_cons_cons, List.append_assoc, List.cons_append,
            words_append_separator _ _ _ (by decide), List.cons_append, List.nil_append,
            words_cons_separator _ (by decide), alone, tail]
          rfl

theorem not_mem_intercalate {c : Char} {separator : List Char} {parts : List (List Char)}
    (apart : c ∉ separator) (absent : ∀ part ∈ parts, c ∉ part) :
    c ∉ separator.intercalate parts := by
  induction parts with
  | nil => simp
  | cons first rest ih =>
      have head := absent first List.mem_cons_self
      cases rest with
      | nil => rwa [List.intercalate_singleton]
      | cons second others =>
          have tail := ih fun part member => absent part (List.mem_cons_of_mem _ member)
          rw [List.intercalate_cons_cons]
          simp [head, apart, tail]

end Text

structure IsToken (text : String) : Prop where
  nonempty : text ≠ ""
  letters : ∀ c ∈ text.toList, Text.isSeparator c = false ∧ c ≠ ';'

namespace IsToken

theorem toList_ne_nil {text : String} (token : IsToken text) : text.toList ≠ [] := by
  intro empty
  exact token.nonempty (String.toList_eq_nil_iff.mp empty)

theorem not_mem {text : String} {c : Char} (token : IsToken text)
    (mark : Text.isSeparator c = true ∨ c = ';') : c ∉ text.toList := by
  intro member
  obtain ⟨letter, noSemicolon⟩ := token.letters c member
  rcases mark with separator | semicolon
  · simp [letter] at separator
  · exact noSemicolon semicolon

theorem ofList {text : List Char} (nonempty : text ≠ [])
    (letters : ∀ c ∈ text, Text.isSeparator c = false) (plain : ';' ∉ text) :
    IsToken (String.ofList text) := by
  refine ⟨by simpa using nonempty, ?_⟩
  rw [String.toList_ofList]
  intro c member
  refine ⟨letters c member, ?_⟩
  rintro rfl
  exact plain member

end IsToken

namespace Statement

/-- What a line can give. The first colon of a line ends a label, so without a label there is none
in the other parts. -/
structure WellFormed (statement : Statement) : Prop where
  label : ∀ label, statement.label = some label → IsToken label ∧ ':' ∉ label.toList
  mnemonic : ∀ mnemonic, statement.mnemonic = some mnemonic →
    IsToken mnemonic ∧ String.ofList (Text.uppercase mnemonic.toList) = mnemonic
  operands : ∀ operand ∈ statement.operands, IsToken operand
  bare : statement.mnemonic = none → statement.label.isSome ∧ statement.operands = []
  unlabelled : statement.label = none →
    (∀ mnemonic, statement.mnemonic = some mnemonic → ':' ∉ mnemonic.toList) ∧
      ∀ operand ∈ statement.operands, ':' ∉ operand.toList

def printCommand (mnemonic : String) (operands : List String) : String :=
  " ".intercalate (mnemonic :: if operands.isEmpty then [] else [", ".intercalate operands])

def print (statement : Statement) : String :=
  " ".intercalate ((statement.label.map (· ++ ":")).toList ++
    (statement.mnemonic.map fun mnemonic => printCommand mnemonic statement.operands).toList)

theorem words_printCommand {mnemonic : String} {operands : List String}
    (mnemonicToken : IsToken mnemonic) (operandTokens : ∀ operand ∈ operands, IsToken operand) :
    Text.words (printCommand mnemonic operands).toList =
      mnemonic.toList :: operands.map String.toList := by
  have alone : Text.words mnemonic.toList = [mnemonic.toList] :=
    Text.words_of_no_separator _ mnemonicToken.toList_ne_nil
      fun c member => (mnemonicToken.letters c member).1
  cases operands with
  | nil => simpa [printCommand] using alone
  | cons first rest =>
      have text : (printCommand mnemonic (first :: rest)).toList =
          mnemonic.toList ++ ' ' :: [',', ' '].intercalate ((first :: rest).map String.toList) := by
        simp [printCommand, String.toList_intercalate]
      have tail : Text.words ([',', ' '].intercalate ((first :: rest).map String.toList)) =
          (first :: rest).map String.toList := by
        apply Text.words_intercalate_commas
        intro chars member
        obtain ⟨operand, known, rfl⟩ := List.mem_map.mp member
        exact ⟨(operandTokens operand known).toList_ne_nil,
          fun c inside => ((operandTokens operand known).letters c inside).1⟩
      rw [text, Text.words_append_separator _ _ _ (by decide), alone, tail]
      rfl

theorem not_mem_printCommand {mnemonic : String} {operands : List String} {c : Char}
    (notComma : c ≠ ',') (notSpace : c ≠ ' ') (inMnemonic : c ∉ mnemonic.toList)
    (inOperands : ∀ operand ∈ operands, c ∉ operand.toList) :
    c ∉ (printCommand mnemonic operands).toList := by
  have inList : c ∉ [',', ' '].intercalate (operands.map String.toList) := by
    apply Text.not_mem_intercalate (by simp [notComma, notSpace])
    intro chars member
    obtain ⟨operand, known, rfl⟩ := List.mem_map.mp member
    exact inOperands operand known
  cases operands with
  | nil => simpa [printCommand] using inMnemonic
  | cons first rest =>
      simpa [printCommand, String.toList_intercalate, inMnemonic, notSpace] using inList

theorem checkLabel_eq_ok_iff (line : Nat) (name : List Char) (label : String) :
    checkLabel line name = .ok label ↔
      (name ≠ [] ∧ ∀ c ∈ name, Text.isSeparator c = false) ∧ label = String.ofList name := by
  have fits : (name ≠ [] ∧ ∀ c ∈ name, Text.isSeparator c = false) ↔
      name.isEmpty = false ∧ name.any Text.isSeparator = false := by
    simp
  rw [fits, checkLabel]
  cases name.isEmpty <;> cases name.any Text.isSeparator <;> simp [eq_comm]

theorem checkLabel_of_isToken {label : String} (token : IsToken label) (line : Nat) :
    checkLabel line (Text.trim label.toList) = .ok label := by
  have letters : ∀ c ∈ label.toList, Text.isSeparator c = false :=
    fun c member => (token.letters c member).1
  have whole := Text.trim_of_no_blank fun c member =>
    Text.isBlank_of_not_isSeparator (letters c member)
  rw [whole, checkLabel_eq_ok_iff, String.ofList_toList]
  exact ⟨⟨token.toList_ne_nil, letters⟩, rfl⟩

theorem ofWords?_print {statement : Statement} (wellFormed : statement.WellFormed)
    {mnemonic : String} (named : statement.mnemonic = some mnemonic) :
    ofWords? statement.line statement.label
      (Text.words (printCommand mnemonic statement.operands).toList) = some statement := by
  obtain ⟨token, capital⟩ := wellFormed.mnemonic mnemonic named
  rw [words_printCommand token wellFormed.operands, ofWords?, capital]
  cases statement
  simp_all [Function.comp_def]

theorem WellFormed.not_mem_print {statement : Statement} {c : Char}
    (wellFormed : statement.WellFormed) (mark : Text.isSeparator c = true ∨ c = ';')
    (notComma : c ≠ ',') (notSpace : c ≠ ' ') (notColon : c ≠ ':') :
    c ∉ statement.print.toList := by
  rw [print, String.toList_intercalate]
  apply Text.not_mem_intercalate (by simpa using notSpace)
  intro chars member
  obtain ⟨part, known, rfl⟩ := List.mem_map.mp member
  rcases List.mem_append.mp known with inLabel | inCommand
  · rw [Option.mem_toList, Option.map_eq_some_iff] at inLabel
    obtain ⟨label, labelled, rfl⟩ := inLabel
    simp [(wellFormed.label label labelled).1.not_mem mark, notColon]
  · rw [Option.mem_toList, Option.map_eq_some_iff] at inCommand
    obtain ⟨mnemonic, named, rfl⟩ := inCommand
    apply not_mem_printCommand notComma notSpace
    · exact (wellFormed.mnemonic mnemonic named).1.not_mem mark
    · intro operand there
      exact (wellFormed.operands operand there).not_mem mark

theorem ofChars?_print {statement : Statement} (wellFormed : statement.WellFormed) :
    ofChars? statement.line statement.print.toList = .ok (some statement) := by
  have uncommented := wellFormed.not_mem_print (.inr rfl) (by decide) (by decide) (by decide)
  rw [ofChars?, withoutComment_of_not_mem uncommented]
  cases labelled : statement.label with
  | none =>
      cases named : statement.mnemonic with
      | none =>
          have label := (wellFormed.bare named).1
          simp [labelled] at label
      | some mnemonic =>
          have read := ofWords?_print wellFormed named
          have text : statement.print = printCommand mnemonic statement.operands := by
            simp [print, labelled, named]
          have unlabelled : ':' ∉ (printCommand mnemonic statement.operands).toList :=
            not_mem_printCommand (by decide) (by decide)
              ((wellFormed.unlabelled labelled).1 mnemonic named) (wellFormed.unlabelled labelled).2
          rw [labelled] at read
          rw [text, splitLabel_of_not_mem unlabelled]
          simp only [read]
  | some label =>
      obtain ⟨token, plain⟩ := wellFormed.label label labelled
      have accepted := checkLabel_of_isToken token statement.line
      cases named : statement.mnemonic with
      | none =>
          have text : statement.print.toList = label.toList ++ ':' :: [] := by
            simp [print, labelled, named]
          have whole : statement = labelOnly statement.line label := by
            obtain ⟨_, noOperands⟩ := wellFormed.bare named
            cases statement
            simp_all [labelOnly]
          rw [text, splitLabel_append plain]
          simp only [accepted]
          exact congrArg (Except.ok ∘ some) whole.symm
      | some mnemonic =>
          have read := ofWords?_print wellFormed named
          have text : statement.print.toList =
              label.toList ++ ':' :: ' ' :: (printCommand mnemonic statement.operands).toList := by
            simp [print, labelled, named]
          have space : Text.isSeparator ' ' = true := by decide
          rw [labelled] at read
          rw [text, splitLabel_append plain]
          simp only [accepted, Text.words_cons_separator _ space, read]

end Statement

/-- The lines of a source from line `next` on, with each statement on its own line and nothing on
the others. -/
def printLines (next : Nat) : List Statement → List String
  | [] => []
  | statement :: rest =>
      List.replicate (statement.line - next) "" ++
        statement.print :: printLines (statement.line + 1) rest

def printSource (statements : List Statement) : String :=
  "\n".intercalate (printLines 1 statements)

structure Printable (statements : List Statement) : Prop where
  wellFormed : ∀ statement ∈ statements, statement.WellFormed
  increasing : statements.Pairwise fun first second => first.line < second.line
  positive : ∀ statement ∈ statements, 1 ≤ statement.line

namespace Statement

theorem ofLines_replicate (number count : Nat) (rest : List (List Char)) :
    ofLines number (List.replicate count [] ++ rest) = ofLines (number + count) rest := by
  induction count generalizing number with
  | zero => rfl
  | succ count ih =>
      rw [List.replicate_succ, List.cons_append, ofLines_cons]
      change ofLines (number + 1) (List.replicate count [] ++ rest) = _
      rw [ih, Nat.add_assoc, Nat.add_comm 1]

theorem ofLines_printLines {next : Nat} {statements : List Statement}
    (wellFormed : ∀ statement ∈ statements, statement.WellFormed)
    (increasing : statements.Pairwise fun first second => first.line < second.line)
    (below : ∀ statement ∈ statements, next ≤ statement.line) :
    ofLines next ((printLines next statements).map String.toList) = .ok statements := by
  induction statements generalizing next with
  | nil => rfl
  | cons statement rest ih =>
      obtain ⟨after, restIncreasing⟩ := List.pairwise_cons.mp increasing
      have tail := ih (fun other member => wellFormed other (List.mem_cons_of_mem _ member))
        restIncreasing after
      have place : next + (statement.line - next) = statement.line := by
        have lower := below statement List.mem_cons_self
        omega
      have read := ofChars?_print (wellFormed statement List.mem_cons_self)
      rw [printLines, List.map_append, List.map_replicate, List.map_cons]
      change ofLines next (List.replicate _ [] ++ _) = _
      rw [ofLines_replicate, place, ofLines_cons, read]
      simp only [tail]
      rfl

theorem not_mem_newline_printLines {next : Nat} {statements : List Statement}
    (wellFormed : ∀ statement ∈ statements, statement.WellFormed) :
    ∀ line ∈ printLines next statements, '\n' ∉ line.toList := by
  induction statements generalizing next with
  | nil => simp [printLines]
  | cons statement rest ih =>
      intro line member
      rcases List.mem_append.mp member with empty | printed
      · rw [List.eq_of_mem_replicate empty]
        simp
      · rcases List.mem_cons.mp printed with rfl | later
        · exact (wellFormed statement List.mem_cons_self).not_mem_print (.inl (by decide))
            (by decide) (by decide) (by decide)
        · exact ih (fun other known => wellFormed other (List.mem_cons_of_mem _ known)) line later

theorem ofSource_of_printable {statements : List Statement} (printable : Printable statements) :
    ofSource (printSource statements) = .ok statements := by
  rw [printSource, ofSource_intercalate (not_mem_newline_printLines printable.wellFormed)]
  exact ofLines_printLines printable.wellFormed printable.increasing printable.positive

theorem isToken_of_mem_words {text word : List Char} (plain : ';' ∉ text)
    (known : word ∈ Text.words text) : IsToken (String.ofList word) := by
  obtain ⟨nonempty, letters⟩ := Text.mem_words known
  exact .ofList nonempty letters fun member => plain (Text.mem_of_mem_words known member)

theorem isToken_uppercase {text word : List Char} (plain : ';' ∉ text)
    (known : word ∈ Text.words text) : IsToken (String.ofList (Text.uppercase word)) := by
  obtain ⟨nonempty, letters⟩ := Text.mem_words known
  refine .ofList (Text.uppercase_ne_nil nonempty) ?_ ?_
  · intro c member
    cases separator : Text.isSeparator c with
    | false => rfl
    | true =>
        have inside := letters c (Text.mem_of_mem_uppercase (.inl separator) member)
        rw [← separator, inside]
  · intro member
    exact plain (Text.mem_of_mem_words known
      (Text.mem_of_mem_uppercase (.inr (.inr rfl)) member))

theorem wellFormed_of_ofWords? {line : Nat} {label : Option String} {text : List Char}
    {statement : Statement} (plain : ';' ∉ text)
    (labelToken : ∀ name, label = some name → IsToken name ∧ ':' ∉ name.toList)
    (unlabelled : label = none → ':' ∉ text)
    (read : ofWords? line label (Text.words text) = some statement) : statement.WellFormed := by
  cases split : Text.words text with
  | nil =>
      rw [split] at read
      obtain ⟨name, rfl, rfl⟩ := Option.map_eq_some_iff.mp read
      exact {
        label := labelToken
        mnemonic := fun _ named => by simp [labelOnly] at named
        operands := fun _ known => by simp [labelOnly] at known
        bare := fun _ => ⟨rfl, rfl⟩
        unlabelled := fun none => by simp [labelOnly] at none }
  | cons mnemonic operands =>
      have mnemonicWord : mnemonic ∈ Text.words text := by simp [split]
      have operandWord : ∀ operand ∈ operands, operand ∈ Text.words text := by
        intro operand known
        simp [split, known]
      rw [split, ofWords?, Option.some.injEq] at read
      subst read
      refine ⟨labelToken, ?_, ?_, by simp, ?_⟩
      · rintro _ ⟨rfl⟩
        refine ⟨isToken_uppercase plain mnemonicWord, ?_⟩
        rw [String.toList_ofList, Text.uppercase_uppercase]
      · intro operand known
        obtain ⟨word, there, rfl⟩ := List.mem_map.mp known
        exact isToken_of_mem_words plain (operandWord word there)
      · intro none
        refine ⟨?_, ?_⟩
        · rintro _ ⟨rfl⟩ member
          rw [String.toList_ofList] at member
          exact unlabelled none (Text.mem_of_mem_words mnemonicWord
            (Text.mem_of_mem_uppercase (.inr (.inl rfl)) member))
        · intro operand known member
          obtain ⟨word, there, rfl⟩ := List.mem_map.mp known
          rw [String.toList_ofList] at member
          exact unlabelled none (Text.mem_of_mem_words (operandWord word there) member)

theorem isToken_of_checkLabel {line : Nat} {name : List Char} {label : String}
    (plain : ';' ∉ name) (accepted : checkLabel line name = .ok label) :
    label = String.ofList name ∧ IsToken label := by
  obtain ⟨⟨nonempty, letters⟩, rfl⟩ := (checkLabel_eq_ok_iff line name label).mp accepted
  exact ⟨rfl, .ofList nonempty letters plain⟩

theorem wellFormed_of_ofChars? {line : Nat} {text : List Char} {statement : Statement}
    (read : ofChars? line text = .ok (some statement)) : statement.WellFormed := by
  have plain := not_mem_withoutComment text
  rw [ofChars?] at read
  generalize withoutComment text = code at read plain
  by_cases labelled : ':' ∈ code
  · obtain ⟨name, rest, rfl, before⟩ := List.eq_append_cons_of_mem labelled
    simp only [List.mem_append, List.mem_cons, not_or] at plain
    rw [splitLabel_append before] at read
    cases checked : checkLabel line (Text.trim name) with
    | error cause => simp [checked] at read
    | ok label =>
        simp only [checked, Except.ok.injEq] at read
        obtain ⟨rfl, token⟩ := isToken_of_checkLabel
          (fun member => plain.1 (Text.mem_of_mem_trim member)) checked
        refine wellFormed_of_ofWords? plain.2.2 ?_ (by simp) read
        rintro _ ⟨rfl⟩
        refine ⟨token, ?_⟩
        rw [String.toList_ofList]
        exact fun member => before (Text.mem_of_mem_trim member)
  · rw [splitLabel_of_not_mem labelled] at read
    exact wellFormed_of_ofWords? plain (by simp) (fun _ => labelled) (Except.ok.inj read)

theorem exists_of_mem_ofLines {number : Nat} {lines : List (List Char)}
    {statements : List Statement} (read : ofLines number lines = .ok statements) :
    ∀ statement ∈ statements, number ≤ statement.line ∧
      ∃ text, ofChars? statement.line text = .ok (some statement) := by
  induction lines generalizing number statements with
  | nil =>
      cases read
      simp
  | cons text rest ih =>
      have later {others : List Statement} (tail : ofLines (number + 1) rest = .ok others) :
          ∀ statement ∈ others, number ≤ statement.line ∧
            ∃ text, ofChars? statement.line text = .ok (some statement) := by
        intro statement member
        obtain ⟨lower, origin⟩ := ih tail statement member
        exact ⟨by omega, origin⟩
      rw [ofLines_cons] at read
      cases first : ofChars? number text with
      | error error => simp [first] at read
      | ok line =>
          cases line with
          | none =>
              simp only [first] at read
              exact later read
          | some head =>
              simp only [first, Result.map_eq_ok_iff] at read
              obtain ⟨others, tail, rfl⟩ := read
              intro statement member
              rcases List.mem_cons.mp member with rfl | inside
              · have place := line_of_ofChars? first
                exact ⟨by omega, text, place ▸ first⟩
              · exact later tail statement inside

theorem printable_of_ofSource {source : String} {statements : List Statement}
    (read : ofSource source = .ok statements) : Printable statements := by
  have increasing := lines_increasing read
  rw [ofSource_eq_ofLines] at read
  refine ⟨?_, increasing, ?_⟩
  · intro statement member
    obtain ⟨_, text, line⟩ := exists_of_mem_ofLines read statement member
    exact wellFormed_of_ofChars? line
  · intro statement member
    exact (exists_of_mem_ofLines read statement member).1

end Statement

/-- Reading undoes printing, and what reading gives can be printed. -/
theorem ofSource_printSource (statements : List Statement) :
    (Printable statements →
      Statement.ofSource (printSource statements) = .ok statements ∧
      ∀ assembler : Assembler,
        assembler.assemble (printSource statements) = assembler.assembleStatements statements) ∧
    ∀ source, Statement.ofSource source = .ok statements →
      Printable statements ∧
      Statement.ofSource (printSource statements) = .ok statements ∧
      ∀ assembler : Assembler,
        assembler.assemble (printSource statements) = assembler.assemble source := by
  refine ⟨?_, ?_⟩
  · intro printable
    have back := Statement.ofSource_of_printable printable
    exact ⟨back, fun assembler => assembler.assemble_of_ofSource back⟩
  · intro source read
    have printable := Statement.printable_of_ofSource read
    have back := Statement.ofSource_of_printable printable
    refine ⟨printable, back, ?_⟩
    intro assembler
    rw [assembler.assemble_of_ofSource back, assembler.assemble_of_ofSource read]

theorem ofSource_printSource_second_colon :
    Printable [⟨2, none, [], some "loop"⟩, ⟨4, some "JUMP", ["x:y", "7"], some "b"⟩] ∧
    Statement.ofSource "\nloop:\n\nb: JUMP x:y, 7" =
      .ok [⟨2, none, [], some "loop"⟩, ⟨4, some "JUMP", ["x:y", "7"], some "b"⟩] ∧
    ({} : Assembler).assemble "\nloop:\n\nb: JUMP x:y, 7" =
      ({} : Assembler).assemble "\n loop\t: ; here\n,\r\nb:jump x:y , 7" := by
  obtain ⟨forward, backward⟩ := ofSource_printSource
    [⟨2, none, [], some "loop"⟩, ⟨4, some "JUMP", ["x:y", "7"], some "b"⟩]
  have printed :
      printSource [⟨2, none, [], some "loop"⟩, ⟨4, some "JUMP", ["x:y", "7"], some "b"⟩] =
        "\nloop:\n\nb: JUMP x:y, 7" := by decide
  rw [printed] at forward backward
  obtain ⟨printable, _, alike⟩ := backward "\n loop\t: ; here\n,\r\nb:jump x:y , 7" rfl
  exact ⟨printable, (forward printable).1, alike {}⟩

end TwoPass
