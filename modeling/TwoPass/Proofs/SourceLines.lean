import TwoPass.Proofs.Line

/-!
A source as the lines between its line feeds. A carriage return before a line feed and an empty last
line are not seen, so the statements are those of the lines as they stand in the text.
-/

namespace TwoPass

namespace Statement

def ofLines (number : Nat) (lines : List (List Char)) : Except AssemblyError (List Statement) :=
  (lines.zipIdx number).foldr addLine (.ok [])

theorem ofLines_cons (number : Nat) (text : List Char) (rest : List (List Char)) :
    ofLines number (text :: rest) =
      match ofChars? number text with
      | .error error => .error error
      | .ok none => ofLines (number + 1) rest
      | .ok (some statement) => (ofLines (number + 1) rest).map (statement :: ·) :=
  rfl

theorem ofLines_append (number : Nat) (first second : List (List Char)) :
    ofLines number (first ++ second) =
      (ofLines number first).bind fun statements =>
        (ofLines (number + first.length) second).map (statements ++ ·) := by
  induction first generalizing number with
  | nil =>
      change ofLines number second = (ofLines number second).map id
      cases ofLines number second <;> rfl
  | cons text rest ih =>
      have next : number + (text :: rest).length = number + 1 + rest.length := by
        simp only [List.length_cons]
        omega
      rw [List.cons_append, ofLines_cons, ofLines_cons, ih, next]
      cases ofChars? number text with
      | error error => rfl
      | ok read =>
          cases ofLines (number + 1) rest with
          | error error => cases read <;> rfl
          | ok statements =>
              cases ofLines (number + 1 + rest.length) second <;> cases read <;> rfl

theorem ofLines_congr {α : Type} {items : List α} {text other : α → List Char}
    (same : ∀ item ∈ items, ∀ number, ofChars? number (text item) = ofChars? number (other item))
    (number : Nat) : ofLines number (items.map text) = ofLines number (items.map other) := by
  induction items generalizing number with
  | nil => rfl
  | cons first rest ih =>
      have tail := ih (fun item member => same item (List.mem_cons_of_mem _ member)) (number + 1)
      rw [List.map_cons, List.map_cons, ofLines_cons, ofLines_cons, tail,
        same first List.mem_cons_self number]

theorem ofChars?_dropReturn (number : Nat) (text : List Char) :
    ofChars? number (Text.dropReturn text) = ofChars? number text := by
  unfold Text.dropReturn
  split
  · rename_i returned
    obtain ⟨code, rfl⟩ := List.getLast?_eq_some_iff.mp returned
    rw [List.dropLast_concat, ofChars?_append_blanks number code (by simp; decide)]
  · rfl

theorem ofSource_eq_ofLines (source : String) :
    ofSource source = ofLines 1 (Text.pieces source.toList) := by
  have nonempty : Text.pieces source.toList ≠ [] := by simp [Text.pieces]
  obtain ⟨before, last, split⟩ : ∃ before last, Text.pieces source.toList = before ++ [last] :=
    ⟨_, _, (List.dropLast_concat_getLast nonempty).symm⟩
  have lines : Text.lines source.toList =
      before.map Text.dropReturn ++ [last].filter fun text => !text.isEmpty := by
    simp [Text.lines, split]
  have returns : ofLines 1 (before.map Text.dropReturn) = ofLines 1 before := by
    simpa using ofLines_congr (fun text _ number => ofChars?_dropReturn number text) 1
  change ofLines 1 (Text.lines source.toList) = _
  rw [lines, split, ofLines_append, ofLines_append, returns, List.length_map]
  cases last with
  | nil => rfl
  | cons first rest => rfl

end Statement

namespace Text

theorem pieces_intercalate {lines : List (List Char)} (nonempty : lines ≠ [])
    (unbroken : ∀ line ∈ lines, '\n' ∉ line) : pieces (['\n'].intercalate lines) = lines := by
  induction lines with
  | nil => exact absurd rfl nonempty
  | cons first rest ih =>
      have alone := pieces_of_no_newline first (unbroken first List.mem_cons_self)
      cases rest with
      | nil => rw [List.intercalate_singleton, alone]
      | cons second others =>
          have tail := ih (by simp) fun line member => unbroken line (List.mem_cons_of_mem _ member)
          rw [List.intercalate_cons_cons, List.append_assoc, List.singleton_append,
            pieces_append_newline, alone, tail]
          rfl

end Text

theorem Statement.ofSource_intercalate {lines : List String}
    (unbroken : ∀ line ∈ lines, '\n' ∉ line.toList) :
    ofSource ("\n".intercalate lines) = ofLines 1 (lines.map String.toList) := by
  have text : ("\n".intercalate lines).toList = ['\n'].intercalate (lines.map String.toList) :=
    String.toList_intercalate
  rw [ofSource_eq_ofLines, text]
  by_cases nonempty : lines.map String.toList = []
  · rw [nonempty]
    rfl
  · rw [Text.pieces_intercalate nonempty]
    intro line member
    obtain ⟨original, inside, rfl⟩ := List.mem_map.mp member
    exact unbroken original inside

end TwoPass
