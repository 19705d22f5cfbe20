import TwoPass.Proofs.Printing
import TwoPass.Proofs.TextShape

/-!
The grammar of a line. A line is cut at its first semicolon and then at its first colon. The name
before the colon may be unfit for a label; nothing else in a line is refused.
-/

namespace TwoPass

def IsCode (text code : List Char) : Prop :=
  ';' ∉ code ∧ (text = code ∨ ∃ comment, text = code ++ ';' :: comment)

/-- How a line is cut: the name before its first colon, if it has a colon, and the runs after the
name. -/
inductive LineCut (text : List Char) : Option (List Char) → List (List Char) → Prop where
  | unlabelled {code : List Char} {runs : List (List Char)} (isCode : IsCode text code)
      (noColon : ':' ∉ code) (cut : Text.Runs code runs) : LineCut text none runs
  | labelled {before rest name : List Char} {runs : List (List Char)}
      (isCode : IsCode text (before ++ ':' :: rest)) (firstColon : ':' ∉ before)
      (trimmed : Text.Trimmed before name) (cut : Text.Runs rest runs) :
      LineCut text (some name) runs

inductive NameFault (line : Nat) : List Char → AssemblyError → Prop where
  | missing : NameFault line [] (.malformed line "missing label name before ':'")
  | separated {name : List Char} {c : Char} (member : c ∈ name)
      (separator : Text.isSeparator c = true) :
      NameFault line name (.malformed line ("invalid label name `" ++ String.ofList name ++ "`"))

def Statement.ofCut (line : Nat) (name : Option (List Char)) (runs : List (List Char)) :
    Statement where
  line := line
  mnemonic := runs.head?.map fun run => String.ofList (Text.uppercase run)
  operands := runs.tail.map String.ofList
  label := name.map String.ofList

/-- The result is the one that the grammar gives to the line. -/
structure ReadByGrammar (line : Nat) (text : List Char)
    (result : Except AssemblyError (Option Statement)) : Prop where
  refused : ∀ error, result = .error error ↔
    ∃ name runs, LineCut text (some name) runs ∧ NameFault line name error
  located : ∀ error, result = .error error → ∃ reason, error = .malformed line reason
  silent : result = .ok none ↔
    ∃ code, IsCode text code ∧ ':' ∉ code ∧ ∀ c ∈ code, Text.isSeparator c = true
  statement : ∀ statement, result = .ok (some statement) ↔
    ∃ name runs, LineCut text name runs ∧
      (∀ chars ∈ name, chars ≠ [] ∧ ∀ c ∈ chars, Text.isSeparator c = false) ∧
      (name.isSome ∨ runs ≠ []) ∧ statement = .ofCut line name runs
  operands : ∀ statement, result = .ok (some statement) →
    ∀ operand ∈ statement.operands, IsToken operand
  label : ∀ statement, result = .ok (some statement) →
    ∀ label ∈ statement.label, IsToken label ∧ ':' ∉ label.toList
  bare : ∀ statement, result = .ok (some statement) → statement.mnemonic = none →
    statement.label.isSome ∧ statement.operands = []

namespace Statement

theorem withoutComment_eq_iff (text code : List Char) :
    withoutComment text = code ↔ IsCode text code := by
  constructor
  · rintro rfl
    refine ⟨not_mem_withoutComment text, ?_⟩
    by_cases commented : ';' ∈ text
    · obtain ⟨code, comment, rfl, plain⟩ := List.eq_append_cons_of_mem commented
      rw [withoutComment_append plain]
      exact .inr ⟨comment, rfl⟩
    · exact .inl (withoutComment_of_not_mem commented).symm
  · rintro ⟨plain, rfl | ⟨comment, rfl⟩⟩
    · exact withoutComment_of_not_mem plain
    · exact withoutComment_append plain comment

theorem exists_lineCut (text : List Char) : ∃ name runs, LineCut text name runs := by
  have isCode := (withoutComment_eq_iff text _).mp rfl
  generalize withoutComment text = code at isCode
  by_cases colon : ':' ∈ code
  · obtain ⟨before, rest, rfl, first⟩ := List.eq_append_cons_of_mem colon
    obtain ⟨runs, cut⟩ := Text.exists_runs rest
    exact ⟨_, runs, .labelled isCode first ((Text.trim_eq_iff before _).mp rfl) cut⟩
  · obtain ⟨runs, cut⟩ := Text.exists_runs code
    exact ⟨none, runs, .unlabelled isCode colon cut⟩

theorem ofChars?_of_lineCut {text : List Char} {name : Option (List Char)}
    {runs : List (List Char)} (cut : LineCut text name runs) (line : Nat) :
    ofChars? line text =
      match name with
      | none => .ok (ofWords? line none runs)
      | some name => (checkLabel line name).map fun label => ofWords? line (some label) runs := by
  cases cut with
  | unlabelled isCode noColon cut =>
      rw [ofChars?, (withoutComment_eq_iff _ _).mpr isCode, splitLabel_of_not_mem noColon]
      simp only [Text.words_of_runs cut]
  | labelled isCode firstColon trimmed cut =>
      rw [ofChars?, (withoutComment_eq_iff _ _).mpr isCode, splitLabel_append firstColon]
      simp only [Text.words_of_runs cut, (Text.trim_eq_iff _ _).mpr trimmed]
      cases checkLabel line _ <;> rfl

theorem checkLabel_eq_error_iff (line : Nat) (name : List Char) (error : AssemblyError) :
    checkLabel line name = .error error ↔ NameFault line name error := by
  unfold checkLabel
  by_cases empty : name = []
  · subst empty
    rw [if_pos List.isEmpty_nil, Except.error.injEq]
    constructor
    · rintro rfl
      exact .missing
    · intro fault
      cases fault with
      | missing => rfl
      | separated member => simp at member
  · rw [if_neg (by simpa using empty)]
    by_cases separated : name.any Text.isSeparator = true
    · obtain ⟨c, member, separator⟩ := List.any_eq_true.mp separated
      rw [if_pos separated, Except.error.injEq]
      constructor
      · rintro rfl
        exact .separated member separator
      · intro fault
        cases fault with
        | missing => exact absurd rfl empty
        | separated => rfl
    · rw [if_neg separated]
      constructor
      · intro refused
        simp at refused
      · intro fault
        cases fault with
        | missing => exact absurd rfl empty
        | separated member separator =>
            exact absurd (List.any_eq_true.mpr ⟨_, member, separator⟩) separated

theorem ofWords?_eq_ofCut (line : Nat) (name : Option (List Char)) (runs : List (List Char)) :
    ofWords? line (name.map String.ofList) runs =
      if name.isSome ∨ runs ≠ [] then some (ofCut line name runs) else none := by
  cases runs with
  | nil => cases name <;> rfl
  | cons first others => rw [if_pos (by simp)]; rfl

theorem ofWords?_eq_none_iff (line : Nat) (name : Option (List Char)) (runs : List (List Char)) :
    ofWords? line (name.map String.ofList) runs = none ↔ name = none ∧ runs = [] := by
  rw [ofWords?_eq_ofCut]
  simp

theorem ofWords?_eq_some_iff (line : Nat) (name : Option (List Char)) (runs : List (List Char))
    (statement : Statement) :
    ofWords? line (name.map String.ofList) runs = some statement ↔
      (name.isSome ∨ runs ≠ []) ∧ statement = ofCut line name runs := by
  rw [ofWords?_eq_ofCut, Option.ite_none_right_eq_some, Option.some.injEq, @eq_comm _ statement]

theorem ofChars?_eq_ok_iff_of_lineCut {text : List Char} {name : Option (List Char)}
    {runs : List (List Char)} (cut : LineCut text name runs) (line : Nat)
    (found : Option Statement) :
    ofChars? line text = .ok found ↔
      (∀ chars ∈ name, chars ≠ [] ∧ ∀ c ∈ chars, Text.isSeparator c = false) ∧
        ofWords? line (name.map String.ofList) runs = found := by
  rw [ofChars?_of_lineCut cut]
  cases name with
  | none => simp
  | some chars =>
      simp only [Result.map_eq_ok_iff, checkLabel_eq_ok_iff]
      constructor
      · rintro ⟨label, ⟨fits, rfl⟩, read⟩
        exact ⟨by simpa using fits, read⟩
      · rintro ⟨fits, read⟩
        exact ⟨_, ⟨fits chars rfl, rfl⟩, read⟩

theorem ofChars?_eq_error_iff (line : Nat) (text : List Char) (error : AssemblyError) :
    ofChars? line text = .error error ↔
      ∃ name runs, LineCut text (some name) runs ∧ NameFault line name error := by
  constructor
  · intro refused
    obtain ⟨name, runs, cut⟩ := exists_lineCut text
    rw [ofChars?_of_lineCut cut] at refused
    cases name with
    | none => simp at refused
    | some chars =>
        rw [Result.map_eq_error_iff, checkLabel_eq_error_iff] at refused
        exact ⟨chars, runs, cut, refused⟩
  · rintro ⟨name, runs, cut, fault⟩
    rw [ofChars?_of_lineCut cut, Result.map_eq_error_iff, checkLabel_eq_error_iff]
    exact fault

theorem ofChars?_eq_some_iff (line : Nat) (text : List Char) (statement : Statement) :
    ofChars? line text = .ok (some statement) ↔
      ∃ name runs, LineCut text name runs ∧
        (∀ chars ∈ name, chars ≠ [] ∧ ∀ c ∈ chars, Text.isSeparator c = false) ∧
        (name.isSome ∨ runs ≠ []) ∧ statement = ofCut line name runs := by
  constructor
  · intro read
    obtain ⟨name, runs, cut⟩ := exists_lineCut text
    rw [ofChars?_eq_ok_iff_of_lineCut cut, ofWords?_eq_some_iff] at read
    exact ⟨name, runs, cut, read⟩
  · rintro ⟨name, runs, cut, facts⟩
    rw [ofChars?_eq_ok_iff_of_lineCut cut, ofWords?_eq_some_iff]
    exact facts

theorem ofChars?_eq_none_iff (line : Nat) (text : List Char) :
    ofChars? line text = .ok none ↔
      ∃ code, IsCode text code ∧ ':' ∉ code ∧ ∀ c ∈ code, Text.isSeparator c = true := by
  constructor
  · intro read
    obtain ⟨name, runs, cut⟩ := exists_lineCut text
    rw [ofChars?_eq_ok_iff_of_lineCut cut, ofWords?_eq_none_iff] at read
    obtain ⟨_, rfl, rfl⟩ := read
    cases cut with
    | unlabelled isCode noColon cut => exact ⟨_, isCode, noColon, Text.separators_of_runs_nil cut⟩
  · rintro ⟨code, isCode, _, separators⟩
    apply ofChars?_of_separators
    rwa [(withoutComment_eq_iff text code).mpr isCode]

/-- Reading a line follows its grammar. -/
theorem ofLine?_readByGrammar (line : Nat) (text : String) :
    ReadByGrammar line text.toList (ofLine? line text) where
  refused := ofChars?_eq_error_iff line text.toList
  located _ refused := exists_of_ofChars?_eq_error refused
  silent := ofChars?_eq_none_iff line text.toList
  statement := ofChars?_eq_some_iff line text.toList
  operands _ read := (wellFormed_of_ofChars? read).operands
  label _ read := (wellFormed_of_ofChars? read).label
  bare _ read := (wellFormed_of_ofChars? read).bare

example : ofLine? 3 " ,\t, ; x y: z" = .ok none :=
  rfl

end Statement

end TwoPass
