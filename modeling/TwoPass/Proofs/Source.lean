import TwoPass.Proofs.Result
import TwoPass.Statement.Parser

/-!
Reading a source line by line. The first line that is refused decides the error, which names that
line; the statements of a source that is read stand in the order of their lines.
-/

namespace TwoPass

def LineError (source : String) (line : Nat) (error : AssemblyError) : Prop :=
  ∃ text, 0 < line ∧ (Text.lines source.toList)[line - 1]? = some text ∧
    Statement.ofChars? line text = .error error

def LineRejected (source : String) (line : Nat) : Prop :=
  ∃ error, LineError source line error

namespace Statement

theorem exists_of_checkLabel_eq_error {line : Nat} {name : List Char} {error : AssemblyError}
    (refused : checkLabel line name = .error error) : ∃ reason, error = .malformed line reason := by
  unfold checkLabel at refused
  split at refused
  · exact ⟨_, (Except.error.inj refused).symm⟩
  · split at refused
    · exact ⟨_, (Except.error.inj refused).symm⟩
    · simp at refused

theorem exists_of_ofChars?_eq_error {line : Nat} {text : List Char} {error : AssemblyError}
    (refused : ofChars? line text = .error error) : ∃ reason, error = .malformed line reason := by
  unfold ofChars? at refused
  split at refused
  · simp at refused
  · rename_i name rest split
    cases checked : checkLabel line (Text.trim name) with
    | ok label => simp [checked] at refused
    | error cause =>
        simp only [checked, Except.error.injEq] at refused
        exact exists_of_checkLabel_eq_error (refused ▸ checked)

end Statement

theorem LineError.malformed {source : String} {line : Nat} {error : AssemblyError}
    (refused : LineError source line error) : ∃ reason, error = .malformed line reason := by
  obtain ⟨text, _, _, failed⟩ := refused
  exact Statement.exists_of_ofChars?_eq_error failed

theorem LineRejected.exists_first {source : String} {line : Nat}
    (rejected : LineRejected source line) :
    ∃ first ≤ line, LineRejected source first ∧
      ∀ earlier < first, ¬LineRejected source earlier := by
  induction line using Nat.strongRecOn with
  | ind line ih =>
      by_cases before : ∃ earlier < line, LineRejected source earlier
      · obtain ⟨earlier, below, earlierRejected⟩ := before
        obtain ⟨first, atMost, facts⟩ := ih earlier below earlierRejected
        exact ⟨first, by omega, facts⟩
      · refine ⟨line, Nat.le_refl _, rejected, ?_⟩
        intro earlier below earlierRejected
        exact before ⟨earlier, below, earlierRejected⟩

namespace Statement

theorem line_of_ofWords? {line : Nat} {label : Option String} {words : List (List Char)}
    {statement : Statement} (read : ofWords? line label words = some statement) :
    statement.line = line := by
  cases words with
  | nil =>
      obtain ⟨name, _, rfl⟩ := Option.map_eq_some_iff.mp read
      rfl
  | cons mnemonic operands =>
      rw [ofWords?, Option.some.injEq] at read
      rw [← read]

theorem line_of_ofChars? {line : Nat} {text : List Char} {statement : Statement}
    (read : ofChars? line text = .ok (some statement)) : statement.line = line := by
  unfold ofChars? at read
  split at read
  · exact line_of_ofWords? (Except.ok.inj read)
  · rename_i name rest split
    cases checked : checkLabel line (Text.trim name) with
    | error cause => simp [checked] at read
    | ok label =>
        simp only [checked, Except.ok.injEq] at read
        exact line_of_ofWords? read

def readLine (line : List Char × Nat) : Except AssemblyError (Option Statement) :=
  ofChars? line.2 line.1

theorem foldr_addLine (lines : List (List Char × Nat)) :
    lines.foldr addLine (.ok []) = (lines.mapM readLine).map (List.filterMap id) := by
  induction lines with
  | nil => rfl
  | cons first rest ih =>
      rw [List.foldr_cons, ih, Result.mapM_cons_eq, addLine, readLine]
      cases ofChars? first.2 first.1 with
      | error error => rfl
      | ok read =>
          cases rest.mapM readLine with
          | error error => cases read <;> rfl
          | ok others => cases read <;> rfl

theorem ofSource_eq (source : String) :
    ofSource source =
      (((Text.lines source.toList).zipIdx 1).mapM readLine).map (List.filterMap id) :=
  foldr_addLine _

theorem getElem?_numbered {lines : List (List Char)} {line : Nat} {text : List Char}
    (positive : 0 < line) (there : lines[line - 1]? = some text) :
    (lines.zipIdx 1)[line - 1]? = some (text, line) := by
  rw [List.getElem?_zipIdx, there, Option.map_some, Nat.add_comm, Nat.sub_add_cancel positive]

theorem lineError_of_getElem? {source : String} {index : Nat} {item : List Char × Nat}
    {error : AssemblyError}
    (found : ((Text.lines source.toList).zipIdx 1)[index]? = some item)
    (refused : readLine item = .error error) : LineError source (index + 1) error := by
  rw [List.getElem?_zipIdx, Option.map_eq_some_iff] at found
  obtain ⟨text, there, rfl⟩ := found
  refine ⟨text, by omega, there, ?_⟩
  rw [Nat.add_comm]
  exact refused

theorem ofSource_eq_error_iff (source : String) (error : AssemblyError) :
    ofSource source = .error error ↔
      ∃ line, LineError source line error ∧ ∀ earlier < line, ¬LineRejected source earlier := by
  rw [ofSource_eq, Result.map_eq_error_iff, Result.mapM_eq_error_iff]
  constructor
  · rintro ⟨index, item, found, refused, before⟩
    refine ⟨index + 1, lineError_of_getElem? found refused, ?_⟩
    rintro earlier below ⟨other, text, positive, there, otherRefused⟩
    obtain ⟨value, passed⟩ := before (earlier - 1) (by omega) (text, earlier)
      (getElem?_numbered positive there)
    rw [readLine, otherRefused] at passed
    simp at passed
  · rintro ⟨line, ⟨text, positive, there, refused⟩, before⟩
    refine ⟨line - 1, (text, line), getElem?_numbered positive there, refused, ?_⟩
    intro earlier below other found
    cases read : readLine other with
    | ok value => exact ⟨value, rfl⟩
    | error cause =>
        exact (before (earlier + 1) (by omega) ⟨cause, lineError_of_getElem? found read⟩).elim

theorem exists_ofSource_eq_ok_iff (source : String) :
    (∃ statements, ofSource source = .ok statements) ↔ ∀ line, ¬LineRejected source line := by
  constructor
  · rintro ⟨statements, read⟩ line rejected
    obtain ⟨first, _, ⟨error, refused⟩, least⟩ := rejected.exists_first
    have failed := (ofSource_eq_error_iff source error).mpr ⟨first, refused, least⟩
    rw [read] at failed
    simp at failed
  · intro accepted
    cases read : ofSource source with
    | ok statements => exact ⟨statements, rfl⟩
    | error error =>
        obtain ⟨line, refused, _⟩ := (ofSource_eq_error_iff source error).mp read
        exact (accepted line ⟨error, refused⟩).elim

theorem lines_increasing {source : String} {statements : List Statement}
    (read : ofSource source = .ok statements) :
    statements.Pairwise fun first second => first.line < second.line := by
  rw [ofSource_eq, Result.map_eq_ok_iff] at read
  obtain ⟨results, passed, rfl⟩ := read
  rw [Result.mapM_eq_ok_iff] at passed
  have line_eq {index : Nat} {bound : index < results.length} {statement : Statement}
      (there : results[index] = some statement) : statement.line = 1 + index := by
    have entry := congrArg (fun items => items[index]?) passed
    simp only [List.getElem?_map, List.getElem?_eq_getElem bound, there, List.getElem?_zipIdx,
      Option.map_map, Option.map_some, Option.map_eq_some_iff] at entry
    obtain ⟨text, _, success⟩ := entry
    exact line_of_ofChars? success
  rw [List.pairwise_filterMap, List.pairwise_iff_getElem]
  intro left right leftBound rightBound before first leftThere second rightThere
  have leftLine := line_eq leftThere
  have rightLine := line_eq rightThere
  omega

end Statement

end TwoPass
