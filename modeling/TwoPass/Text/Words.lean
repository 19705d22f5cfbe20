import TwoPass.Text.Blank

/-!
Words: the maximal runs of characters that are neither a comma nor white space.
-/

namespace TwoPass.Text

def isSeparator (c : Char) : Bool :=
  c == ',' || isBlank c

def addWord (word : List Char) (words : List (List Char)) : List (List Char) :=
  if word.isEmpty then words else word :: words

/-- Reads one more character to the left of a text: the word that the text starts with, possibly
empty, and the words after it. -/
def extendWords (c : Char) (text : List Char × List (List Char)) : List Char × List (List Char) :=
  if isSeparator c then ([], addWord text.1 text.2) else (c :: text.1, text.2)

def words (text : List Char) : List (List Char) :=
  let split := text.foldr extendWords ([], [])
  addWord split.1 split.2

@[simp] theorem words_nil : words [] = [] := rfl

theorem addWord_append (word : List Char) (first second : List (List Char)) :
    addWord word (first ++ second) = addWord word first ++ second := by
  unfold addWord
  split <;> rfl

theorem words_append_separator (left right : List Char) (c : Char)
    (separator : isSeparator c = true) :
    words (left ++ c :: right) = words left ++ words right := by
  have split : (left ++ c :: right).foldr extendWords ([], []) =
      ((left.foldr extendWords ([], [])).1,
        (left.foldr extendWords ([], [])).2 ++ words right) := by
    induction left with
    | nil => simp [extendWords, separator, words]
    | cons head tail ih =>
        simp only [List.cons_append, List.foldr_cons, ih]
        by_cases blank : isSeparator head = true
        · simp [extendWords, blank, addWord_append]
        · simp [extendWords, blank]
  simp only [words, split, addWord_append]

theorem words_of_no_separator (text : List Char) (nonempty : text ≠ [])
    (letters : ∀ c ∈ text, isSeparator c = false) : words text = [text] := by
  have split : text.foldr extendWords ([], []) = (text, []) := by
    clear nonempty
    induction text with
    | nil => rfl
    | cons head tail ih =>
        have rest := ih fun c member => letters c (List.mem_cons_of_mem _ member)
        simp [rest, extendWords, letters head List.mem_cons_self]
  simp [words, split, addWord, nonempty]

theorem mem_words {text word : List Char} (member : word ∈ words text) :
    word ≠ [] ∧ ∀ c ∈ word, isSeparator c = false := by
  have invariant : (∀ c ∈ (text.foldr extendWords ([], [])).1, isSeparator c = false) ∧
      ∀ other ∈ (text.foldr extendWords ([], [])).2,
        other ≠ [] ∧ ∀ c ∈ other, isSeparator c = false := by
    clear member
    induction text with
    | nil => simp
    | cons head tail ih =>
        simp only [List.foldr_cons, extendWords]
        split
        · refine ⟨by simp, fun other found => ?_⟩
          simp only [addWord] at found
          split at found
          · exact ih.2 other found
          · rename_i begun
            rcases List.mem_cons.mp found with same | old
            · subst same
              exact ⟨by simpa using begun, ih.1⟩
            · exact ih.2 other old
        · rename_i letter
          refine ⟨fun c found => ?_, ih.2⟩
          rcases List.mem_cons.mp found with same | old
          · subst same
            simpa using letter
          · exact ih.1 c old
  simp only [words, addWord] at member
  split at member
  · exact invariant.2 word member
  · rename_i begun
    rcases List.mem_cons.mp member with same | old
    · subst same
      exact ⟨by simpa using begun, invariant.1⟩
    · exact invariant.2 word old

end TwoPass.Text
