import TwoPass.Proofs.Line

/-!
How a text is cut, told without the functions that cut it: what is left of it without the white
space around it, and the words in it as maximal runs.
-/

namespace TwoPass.Text

structure Trimmed (text inner : List Char) : Prop where
  around : ∃ before after, text = before ++ (inner ++ after) ∧
    (∀ c ∈ before, isBlank c = true) ∧ ∀ c ∈ after, isBlank c = true
  first : ∀ c ∈ inner.head?, isBlank c = false
  last : ∀ c ∈ inner.getLast?, isBlank c = false

/-- The maximal runs of characters that are no separators, from left to right. -/
inductive Runs : List Char → List (List Char) → Prop where
  | nil : Runs [] []
  | separator {c : Char} {rest : List Char} {runs : List (List Char)}
      (separator : isSeparator c = true) (later : Runs rest runs) : Runs (c :: rest) runs
  | run {run rest : List Char} {runs : List (List Char)} (nonempty : run ≠ [])
      (letters : ∀ c ∈ run, isSeparator c = false)
      (ends : ∀ c ∈ rest.head?, isSeparator c = true) (later : Runs rest runs) :
      Runs (run ++ rest) (run :: runs)

theorem dropWhile_append_of_stop {p : Char → Bool} {front text : List Char}
    (dropped : ∀ c ∈ front, p c = true) (first : ∀ c ∈ text.head?, p c = false) :
    (front ++ text).dropWhile p = text := by
  rw [List.dropWhile_append_of_pos dropped]
  cases text with
  | nil => rfl
  | cons head tail => simp [first head rfl]

theorem trimStart_eq_iff (text rest : List Char) :
    trimStart text = rest ↔
      (∃ before, text = before ++ rest ∧ ∀ c ∈ before, isBlank c = true) ∧
        ∀ c ∈ rest.head?, isBlank c = false := by
  constructor
  · rintro rfl
    refine ⟨⟨text.takeWhile isBlank, List.takeWhile_append_dropWhile.symm, ?_⟩,
      head?_dropWhile isBlank text⟩
    exact List.all_eq_true.mp List.all_takeWhile
  · rintro ⟨⟨before, rfl, blank⟩, first⟩
    exact dropWhile_append_of_stop blank first

theorem trimEnd_eq_reverse (text : List Char) :
    trimEnd text = (trimStart text.reverse).reverse :=
  rfl

theorem trimEnd_eq_iff (text rest : List Char) :
    trimEnd text = rest ↔
      (∃ after, text = rest ++ after ∧ ∀ c ∈ after, isBlank c = true) ∧
        ∀ c ∈ rest.getLast?, isBlank c = false := by
  rw [trimEnd_eq_reverse, List.reverse_eq_iff, trimStart_eq_iff, List.head?_reverse]
  constructor
  · rintro ⟨⟨before, same, blank⟩, last⟩
    refine ⟨⟨before.reverse, ?_, by simpa using blank⟩, last⟩
    rw [← List.reverse_reverse text, same, List.reverse_append, List.reverse_reverse]
  · rintro ⟨⟨after, rfl, blank⟩, last⟩
    exact ⟨⟨after.reverse, List.reverse_append, by simpa using blank⟩, last⟩

theorem trim_eq_iff (text inner : List Char) : trim text = inner ↔ Trimmed text inner := by
  constructor
  · intro trimmed
    obtain ⟨⟨after, rest, blankAfter⟩, last⟩ := (trimEnd_eq_iff _ inner).mp trimmed
    obtain ⟨⟨before, rfl, blankBefore⟩, first⟩ := (trimStart_eq_iff text _).mp rest
    refine ⟨⟨before, after, rfl, blankBefore, blankAfter⟩, ?_, last⟩
    intro c head
    apply first c
    rw [List.head?_append, Option.mem_def.mp head]
    rfl
  · rintro ⟨⟨before, after, rfl, blankBefore, blankAfter⟩, first, last⟩
    cases inner with
    | nil =>
        have nothing : trimStart (before ++ ([] ++ after)) = [] := by
          refine (trimStart_eq_iff _ _).mpr ⟨⟨before ++ after, by simp, ?_⟩, by simp⟩
          intro c member
          exact (List.mem_append.mp member).elim (blankBefore c) (blankAfter c)
        rw [trim, nothing]
        rfl
    | cons head tail =>
        have rest : trimStart (before ++ (head :: tail ++ after)) = head :: tail ++ after :=
          (trimStart_eq_iff _ _).mpr ⟨⟨before, rfl, blankBefore⟩, first⟩
        rw [trim, rest]
        exact (trimEnd_eq_iff _ _).mpr ⟨⟨after, rfl, blankAfter⟩, last⟩

theorem words_of_runs {text : List Char} {runs : List (List Char)} (cut : Runs text runs) :
    words text = runs := by
  induction cut with
  | nil => rfl
  | separator separator later ih => rw [words_cons_separator _ separator, ih]
  | run nonempty letters ends later ih => rw [words_word_append nonempty letters ends, ih]

theorem separators_of_runs_nil {text : List Char} (cut : Runs text []) :
    ∀ c ∈ text, isSeparator c = true := by
  intro c member
  have letters := flatten_words text
  rw [words_of_runs cut] at letters
  simpa using List.filter_eq_nil_iff.mp letters.symm c member

theorem exists_runs_cons {c : Char} {text : List Char} {runs : List (List Char)}
    (letter : isSeparator c = false) (cut : Runs text runs) :
    ∃ others, Runs (c :: text) others := by
  have alone : ∀ other ∈ [c], isSeparator other = false := by simpa using letter
  cases cut with
  | nil => exact ⟨[[c]], .run (List.cons_ne_nil c []) alone (by simp) .nil⟩
  | @separator next rest runs separator later =>
      refine ⟨[c] :: runs, .run (List.cons_ne_nil c []) alone ?_ (.separator separator later)⟩
      simpa using separator
  | @run run rest runs nonempty letters ends later =>
      refine ⟨(c :: run) :: runs, .run (List.cons_ne_nil c run) ?_ ends later⟩
      simpa [letter] using letters

theorem exists_runs (text : List Char) : ∃ runs, Runs text runs := by
  induction text with
  | nil => exact ⟨[], .nil⟩
  | cons head tail ih =>
      obtain ⟨runs, cut⟩ := ih
      by_cases separator : isSeparator head = true
      · exact ⟨runs, .separator separator cut⟩
      · exact exists_runs_cons (Bool.eq_false_iff.mpr separator) cut

end TwoPass.Text
