import TwoPass.Proofs.Reformatting

/-!
Two sources with a line feed between them. Lines may be cut otherwise in a source that stands alone
than in the joined text, where its last line has an end; what they say is the same. So the joined
text reads as the first source and then the second one, whose line numbers count on from the first.
-/

namespace TwoPass

namespace Text

theorem length_pieces (text : List Char) : (pieces text).length = text.count '\n' + 1 := by
  induction text with
  | nil => rfl
  | cons head tail ih =>
      simp only [pieces, List.foldr_cons, List.length_cons] at ih ⊢
      by_cases newline : head = '\n'
      · simp [extendPieces, newline, ih]
      · simp [extendPieces, newline, ih]

end Text

def lineShift (source : String) : Nat :=
  source.toList.count '\n' + 1

namespace Statement

def SaidByLine (source : String) (statement : Statement) : Prop :=
  ∃ text, 1 ≤ statement.line ∧ (Text.lines source.toList)[statement.line - 1]? = some text ∧
    ofLine? statement.line (String.ofList text) = .ok (some statement)

/-- The statements are those that the lines of the source say, in the order of the lines. -/
structure SaidByLines (source : String) (statements : List Statement) : Prop where
  increasing : statements.Pairwise fun first second => first.line < second.line
  bounded : ∀ statement ∈ statements,
    1 ≤ statement.line ∧ statement.line ≤ (Text.lines source.toList).length
  entries : ∀ statement, statement ∈ statements ↔ SaidByLine source statement

/-- How two sources with a line feed between them are read. -/
structure ReadJoined (first second : String) : Prop where
  firstFails : ∀ error, ofSource first = .error error →
    ofSource (first ++ "\n" ++ second) = .error error
  secondFails : ∀ before error, ofSource first = .ok before → ofSource second = .error error →
    ∃ line reason, error = .malformed line reason ∧
      ofSource (first ++ "\n" ++ second) = .error (.malformed (line + lineShift first) reason)
  reads : ∀ before after, ofSource first = .ok before → ofSource second = .ok after →
    ofSource (first ++ "\n" ++ second) =
      .ok (before ++ after.map fun statement =>
        { statement with line := statement.line + lineShift first })

theorem ofSource_append_newline (first second : String) :
    ofSource (first ++ "\n" ++ second) =
      (ofSource first).bind fun before =>
        (((ofSource second).map (List.map (renumber (· + lineShift first)))).mapError
          (AssemblyError.renumber (· + lineShift first))).map (before ++ ·) := by
  have text : (first ++ "\n" ++ second).toList = first.toList ++ '\n' :: second.toList := by
    simp [String.toList_append]
  have moved : ofLines (1 + (Text.pieces first.toList).length) (Text.pieces second.toList) =
      ((ofLines 1 (Text.pieces second.toList)).map
        (List.map (renumber (· + lineShift first)))).mapError
          (AssemblyError.renumber (· + lineShift first)) := by
    apply ofLines_renumber
    intro offset _
    rw [Text.length_pieces, lineShift]
    omega
  -- Unlike lines, the pieces between line feeds are cut alike alone and in the joined text.
  rw [ofSource_eq_ofLines, text, Text.pieces_append_newline, ofLines_append, moved,
    ofSource_eq_ofLines, ofSource_eq_ofLines]

theorem exists_of_ofSource_eq_error {source : String} {error : AssemblyError}
    (refused : ofSource source = .error error) : ∃ line reason, error = .malformed line reason := by
  obtain ⟨line, fault, _⟩ := (ofSource_eq_error_iff source error).mp refused
  exact ⟨line, fault.malformed⟩

theorem readJoined (first second : String) : ReadJoined first second where
  firstFails := by
    intro error refused
    rw [ofSource_append_newline, refused]
    rfl
  secondFails := by
    intro before error read refused
    obtain ⟨line, reason, rfl⟩ := exists_of_ofSource_eq_error refused
    refine ⟨line, reason, rfl, ?_⟩
    rw [ofSource_append_newline, read, refused]
    rfl
  reads := by
    intro before after read readAfter
    rw [ofSource_append_newline, read, readAfter]
    rfl

theorem mem_iff_saidByLine {source : String} {statements : List Statement}
    (read : ofSource source = .ok statements) (statement : Statement) :
    statement ∈ statements ↔ SaidByLine source statement := by
  rw [ofSource_eq, Result.map_eq_ok_iff] at read
  obtain ⟨results, passed, rfl⟩ := read
  rw [Result.mapM_eq_ok_iff] at passed
  have said : statement ∈ results.filterMap id ↔
      ∃ item ∈ (Text.lines source.toList).zipIdx 1, readLine item = .ok (some statement) := by
    rw [← List.mem_map, passed]
    simp
  rw [said]
  constructor
  · rintro ⟨⟨text, line⟩, inside, success⟩
    obtain rfl : statement.line = line := line_of_ofChars? success
    obtain ⟨positive, there⟩ := List.mk_mem_zipIdx_iff_le_and_getElem?_sub.mp inside
    exact ⟨text, positive, there, by simpa [ofLine?, readLine] using success⟩
  · rintro ⟨text, positive, there, success⟩
    refine ⟨(text, statement.line), ?_, by simpa [ofLine?, readLine] using success⟩
    exact List.mk_mem_zipIdx_iff_le_and_getElem?_sub.mpr ⟨positive, there⟩

theorem saidByLines {source : String} {statements : List Statement}
    (read : ofSource source = .ok statements) : SaidByLines source statements where
  increasing := lines_increasing read
  bounded := by
    intro statement member
    obtain ⟨text, positive, there, _⟩ := (mem_iff_saidByLine read statement).mp member
    have inside := (List.getElem?_eq_some_iff.mp there).1
    omega
  entries := mem_iff_saidByLine read

/-- A source is read line by line, so sources that are joined are read one after the other. -/
theorem ofSource_compositional :
    (∀ first second, ReadJoined first second) ∧
    ∀ source statements, ofSource source = .ok statements → SaidByLines source statements :=
  ⟨readJoined, fun _ _ => saidByLines⟩

theorem ofSource_compositional_carriage_return :
    ofSource "halt\r\n\nend:\n" =
        .ok [⟨1, some "HALT", [], none⟩, ⟨3, none, [], some "end"⟩] ∧
      ofSource "halt\r\n\n: x" = .error (.malformed 3 "missing label name before ':'") ∧
      ofSource "a b:\n: x" = .error (.malformed 1 "invalid label name `a b`") ∧
      SaidByLine "halt\r\n\nend:\n" ⟨3, none, [], some "end"⟩ := by
  obtain ⟨joined, said⟩ := ofSource_compositional
  have reads : ofSource "halt\r\n\nend:\n" =
      .ok [⟨1, some "HALT", [], none⟩, ⟨3, none, [], some "end"⟩] :=
    (joined "halt\r" "\nend:\n").reads [⟨1, some "HALT", [], none⟩]
      [⟨2, none, [], some "end"⟩] rfl rfl
  refine ⟨reads, ?_, ?_, ?_⟩
  · obtain ⟨line, reason, same, fails⟩ := (joined "halt\r" "\n: x").secondFails
      [⟨1, some "HALT", [], none⟩] (.malformed 2 "missing label name before ':'") rfl rfl
    cases same
    exact fails
  · exact (joined "a b:" ": x").firstFails (.malformed 1 "invalid label name `a b`") rfl
  · exact ((said _ _ reads).entries _).mp (by simp)

end Statement

end TwoPass
