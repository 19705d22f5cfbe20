import TwoPass.Proofs.LineNumbers
import TwoPass.Proofs.SourceLines

/-!
Reformatting a source. A line that says nothing only moves the numbers of the lines after it, and
what is added at the end of a line, a comment or white space, moves nothing at all.
-/

namespace TwoPass

def shiftFrom (start line : Nat) : Nat :=
  if line < start then line else line + 1

structure SilentLine (text : String) : Prop where
  unbroken : '\n' ∉ text.toList
  separators : ∀ c ∈ Statement.withoutComment text.toList, Text.isSeparator c = true

structure Trailer (text : String) : Prop where
  unbroken : '\n' ∉ text.toList
  unseen : (∃ comment, text.toList = ';' :: comment) ∨ ∀ c ∈ text.toList, Text.isBlank c = true

theorem Trailer.empty : Trailer "" :=
  ⟨by decide, .inr (List.all_eq_true.mp rfl)⟩

theorem Trailer.carriageReturn : Trailer "\r" :=
  ⟨by decide, .inr (List.all_eq_true.mp rfl)⟩

namespace Statement

theorem ofLines_renumber {change : Nat → Nat} {first second : Nat} {lines : List (List Char)}
    (agree : ∀ offset < lines.length, change (first + offset) = second + offset) :
    ofLines second lines =
      ((ofLines first lines).map (List.map (renumber change))).mapError
        (AssemblyError.renumber change) := by
  induction lines generalizing first second with
  | nil => rfl
  | cons text rest ih =>
      have head : change first = second := agree 0 (by simp)
      have next : ∀ offset < rest.length, change (first + 1 + offset) = second + 1 + offset := by
        intro offset below
        have shifted := agree (offset + 1) (by simpa using below)
        rw [show first + 1 + offset = first + (offset + 1) by omega, shifted]
        omega
      have read := ofChars?_renumber change first text
      rw [head] at read
      rw [ofLines_cons, ofLines_cons, read, ih next]
      cases ofChars? first text with
      | error error => rfl
      | ok statement =>
          cases ofLines (first + 1) rest <;> cases statement <;> rfl

theorem ofLines_insert_silent (number : Nat) (before after : List (List Char)) {text : List Char}
    (separators : ∀ c ∈ withoutComment text, Text.isSeparator c = true) :
    ofLines number (before ++ text :: after) =
      ((ofLines number (before ++ after)).map
        (List.map (renumber (shiftFrom (number + before.length))))).mapError
          (AssemblyError.renumber (shiftFrom (number + before.length))) := by
  have kept : ofLines number before =
      ((ofLines number before).map
        (List.map (renumber (shiftFrom (number + before.length))))).mapError
          (AssemblyError.renumber (shiftFrom (number + before.length))) := by
    apply ofLines_renumber
    intro offset below
    rw [shiftFrom, if_pos (by omega)]
  have moved : ofLines (number + before.length + 1) after =
      ((ofLines (number + before.length) after).map
        (List.map (renumber (shiftFrom (number + before.length))))).mapError
          (AssemblyError.renumber (shiftFrom (number + before.length))) := by
    apply ofLines_renumber
    intro offset below
    rw [shiftFrom, if_neg (by omega)]
    omega
  have skipped : ofLines (number + before.length) (text :: after) =
      ofLines (number + before.length + 1) after := by
    rw [ofLines_cons, ofChars?_of_separators _ separators]
  rw [ofLines_append, ofLines_append, skipped, moved]
  cases read : ofLines number before with
  | error error =>
      rw [read] at kept
      exact kept
  | ok statements =>
      rw [read] at kept
      have same : statements = statements.map (renumber (shiftFrom (number + before.length))) :=
        Except.ok.inj kept
      cases ofLines (number + before.length) after with
      | error error => rfl
      | ok later =>
          change Except.ok (statements ++ later.map _) = Except.ok ((statements ++ later).map _)
          rw [List.map_append, ← same]

theorem ofChars?_append_trailer (number : Nat) (text : List Char) {trailer : String}
    (trailing : Trailer trailer) :
    ofChars? number (text ++ trailer.toList) = ofChars? number text := by
  rcases trailing.unseen with ⟨comment, starts⟩ | blank
  · rw [starts, ofChars?_append_comment]
  · exact ofChars?_append_blanks number text blank

theorem ofSource_append_trailers {lines : List (String × String)}
    (trailing : ∀ line ∈ lines, '\n' ∉ line.1.toList ∧ Trailer line.2) :
    ofSource ("\n".intercalate (lines.map fun line => line.1 ++ line.2)) =
      ofSource ("\n".intercalate (lines.map Prod.fst)) := by
  have unbroken : ∀ text ∈ lines.map Prod.fst, '\n' ∉ text.toList := by
    intro text member
    obtain ⟨line, inside, rfl⟩ := List.mem_map.mp member
    exact (trailing line inside).1
  have unbrokenLonger : ∀ text ∈ lines.map fun line => line.1 ++ line.2, '\n' ∉ text.toList := by
    intro text member
    obtain ⟨line, inside, rfl⟩ := List.mem_map.mp member
    obtain ⟨first, second⟩ := trailing line inside
    simp [String.toList_append, first, second.unbroken]
  rw [ofSource_intercalate unbroken, ofSource_intercalate unbrokenLonger, List.map_map,
    List.map_map]
  apply ofLines_congr
  intro line member number
  simp only [Function.comp_apply, String.toList_append]
  exact ofChars?_append_trailer number line.1.toList (trailing line member).2

theorem ofSource_append_trailer {before after : List String} {text trailer : String}
    (unbroken : ∀ line ∈ before ++ text :: after, '\n' ∉ line.toList) (trailing : Trailer trailer) :
    ofSource ("\n".intercalate (before ++ (text ++ trailer) :: after)) =
      ofSource ("\n".intercalate (before ++ text :: after)) := by
  have longer := @ofSource_append_trailers
    (before.map (·, "") ++ (text, trailer) :: after.map (·, ""))
  simp only [List.map_append, List.map_cons, List.map_map, Function.comp_def, String.append_empty,
    List.map_id'] at longer
  apply longer
  intro line member
  rcases List.mem_append.mp member with inBefore | inRest
  · obtain ⟨other, inside, rfl⟩ := List.mem_map.mp inBefore
    exact ⟨unbroken other (List.mem_append_left _ inside), .empty⟩
  · rcases List.mem_cons.mp inRest with rfl | inAfter
    · exact ⟨unbroken text (by simp), trailing⟩
    · obtain ⟨other, inside, rfl⟩ := List.mem_map.mp inAfter
      exact ⟨unbroken other (by simp [inside]), .empty⟩

theorem exists_returns (lines : List String) :
    ∃ returned : List (String × String), returned.map Prod.fst = lines ∧
      (∀ line ∈ returned, Trailer line.2) ∧
      "\n".intercalate (returned.map fun line => line.1 ++ line.2) = "\r\n".intercalate lines := by
  induction lines with
  | nil => exact ⟨[], rfl, by simp, rfl⟩
  | cons first rest ih =>
      cases rest with
      | nil => exact ⟨[(first, "")], rfl, by simp [Trailer.empty], by simp⟩
      | cons second others =>
          obtain ⟨returned, texts, trailing, joined⟩ := ih
          cases returned with
          | nil => simp at texts
          | cons head tail =>
              refine ⟨(first, "\r") :: head :: tail, by rw [List.map_cons, texts], ?_, ?_⟩
              · intro line member
                rcases List.mem_cons.mp member with rfl | inside
                · exact .carriageReturn
                · exact trailing line inside
              · simp only [List.map_cons, String.intercalate_cons_cons] at joined ⊢
                rw [joined, String.append_assoc, String.append_assoc, String.append_assoc]
                rfl

theorem ofSource_returns {lines : List String} (unbroken : ∀ line ∈ lines, '\n' ∉ line.toList) :
    ofSource ("\r\n".intercalate lines) = ofSource ("\n".intercalate lines) := by
  obtain ⟨returned, rfl, trailing, joined⟩ := exists_returns lines
  rw [← joined]
  apply ofSource_append_trailers
  intro line member
  exact ⟨unbroken line.1 (List.mem_map_of_mem member), trailing line member⟩

end Statement

namespace Assembler

theorem assemble_of_ofSource_eq (assembler : Assembler) {source other : String}
    (same : Statement.ofSource source = Statement.ofSource other) :
    assembler.assemble source = assembler.assemble other := by
  rw [assemble_eq, assemble_eq, same]

/-- A silent line leaves the result as it is, up to the numbers of the lines from its place on. A
comment or white space at the end of a line leaves all of it as it is, and so do line ends of the
other kind. -/
theorem assemble_reformat (config : Config) :
    (∀ (before after : List String) (silent : String),
      (∀ line ∈ before ++ after, '\n' ∉ line.toList) → SilentLine silent →
      ({ config } : Assembler).assemble ("\n".intercalate (before ++ silent :: after)) =
        ((({ config } : Assembler).assemble ("\n".intercalate (before ++ after))).map
          (Program.renumber (shiftFrom (before.length + 1)))).mapError
            (AssemblyError.renumber (shiftFrom (before.length + 1)))) ∧
    (∀ (assembler : Assembler) (before after : List String) (text trailer : String),
      (∀ line ∈ before ++ text :: after, '\n' ∉ line.toList) → Trailer trailer →
      assembler.assemble ("\n".intercalate (before ++ (text ++ trailer) :: after)) =
        assembler.assemble ("\n".intercalate (before ++ text :: after))) ∧
    ∀ (assembler : Assembler) (lines : List String), (∀ line ∈ lines, '\n' ∉ line.toList) →
      assembler.assemble ("\r\n".intercalate lines) =
        assembler.assemble ("\n".intercalate lines) := by
  refine ⟨?_, ?_, ?_⟩
  · intro before after silent unbroken silence
    have unbrokenLonger : ∀ line ∈ before ++ silent :: after, '\n' ∉ line.toList := by
      intro line member
      rcases List.mem_append.mp member with inside | inside
      · exact unbroken line (List.mem_append_left _ inside)
      · rcases List.mem_cons.mp inside with rfl | inside
        · exact silence.unbroken
        · exact unbroken line (List.mem_append_right _ inside)
    have read := Statement.ofLines_insert_silent 1 (before.map String.toList)
      (after.map String.toList) silence.separators
    rw [List.length_map, Nat.add_comm 1] at read
    rw [assemble_eq, assemble_eq, Statement.ofSource_intercalate unbroken,
      Statement.ofSource_intercalate unbrokenLonger, List.map_append, List.map_append,
      List.map_cons, read]
    cases Statement.ofLines 1 (before.map String.toList ++ after.map String.toList) with
    | error error => rfl
    | ok statements => exact assembleStatements_renumber _ config statements
  · intro assembler before after text trailer unbroken trailing
    exact assembler.assemble_of_ofSource_eq (Statement.ofSource_append_trailer unbroken trailing)
  · intro assembler lines unbroken
    exact assembler.assemble_of_ofSource_eq (Statement.ofSource_returns unbroken)

theorem assemble_reformat_jump :
    ({} : Assembler).assemble "JUMP end\n ,; go: on\nend: HALT" =
        .ok ⟨⟨[⟨"end", 1, 3⟩], by decide⟩, [⟨0, 0xC001, 1⟩, ⟨1, 0xF000, 3⟩]⟩ ∧
      ({} : Assembler).assemble "JUMP end;x\nend: HALT" =
        ({} : Assembler).assemble "JUMP end\nend: HALT" ∧
      ({} : Assembler).assemble "JUMP end\r\nend: HALT" =
        ({} : Assembler).assemble "JUMP end\nend: HALT" := by
  obtain ⟨silent, trailer, returns⟩ := assemble_reformat {}
  refine ⟨?_, ?_, ?_⟩
  · exact (silent ["JUMP end"] ["end: HALT"] " ,; go: on" (by decide)
      ⟨by decide, List.all_eq_true.mp rfl⟩).trans rfl
  · exact trailer {} [] ["end: HALT"] "JUMP end" ";x" (by decide)
      ⟨by decide, .inl ⟨['x'], rfl⟩⟩
  · exact returns {} ["JUMP end", "end: HALT"] (by decide)

end Assembler

end TwoPass
