import TwoPass.Statement.Parser

/-!
One line of a source. What it says is settled by its text before the first semicolon: by the name
before the first colon there, and by the words after it. A comment and white space at its end are
not seen.
-/

namespace TwoPass

namespace Text

theorem head?_dropWhile (p : Char → Bool) (text : List Char) :
    ∀ c ∈ (text.dropWhile p).head?, p c = false := by
  intro c first
  have stops := List.head?_dropWhile_not p text
  rw [Option.mem_def.mp first] at stops
  simpa using stops

theorem isSeparator_of_isBlank {c : Char} (blank : isBlank c = true) : isSeparator c = true := by
  simp [isSeparator, blank]

theorem isBlank_of_not_isSeparator {c : Char} (letter : isSeparator c = false) :
    isBlank c = false := by
  rw [isSeparator, Bool.or_eq_false_iff] at letter
  exact letter.2

theorem words_cons_separator {c : Char} (text : List Char) (separator : isSeparator c = true) :
    words (c :: text) = words text :=
  words_append_separator [] text c separator

theorem words_word_append {word tail : List Char} (nonempty : word ≠ [])
    (letters : ∀ c ∈ word, isSeparator c = false) (ends : ∀ c ∈ tail.head?, isSeparator c = true) :
    words (word ++ tail) = word :: words tail := by
  cases tail with
  | nil => rw [List.append_nil, words_of_no_separator word nonempty letters, words_nil]
  | cons head rest =>
      have separator := ends head rfl
      rw [words_append_separator word rest head separator,
        words_of_no_separator word nonempty letters, words_cons_separator rest separator]
      rfl

theorem words_of_separators {text : List Char}
    (separators : ∀ c ∈ text, isSeparator c = true) : words text = [] := by
  induction text with
  | nil => rfl
  | cons head tail ih =>
      rw [words_cons_separator tail (separators head List.mem_cons_self)]
      exact ih fun c member => separators c (List.mem_cons_of_mem _ member)

theorem words_append_separators (text : List Char) {tail : List Char}
    (separators : ∀ c ∈ tail, isSeparator c = true) : words (text ++ tail) = words text := by
  cases tail with
  | nil => rw [List.append_nil]
  | cons head rest =>
      have separator := separators head List.mem_cons_self
      have silent := words_of_separators fun c member =>
        separators c (List.mem_cons_of_mem _ member)
      rw [words_append_separator text rest head separator, silent, List.append_nil]

theorem flatten_words (text : List Char) :
    (words text).flatten = text.filter fun c => !isSeparator c := by
  have flatten_addWord (word : List Char) (others : List (List Char)) :
      (addWord word others).flatten = word ++ others.flatten := by
    cases word <;> rfl
  rw [words, flatten_addWord]
  induction text with
  | nil => rfl
  | cons head tail ih =>
      rw [List.foldr_cons, extendWords]
      by_cases separator : isSeparator head = true
      · simp [separator, flatten_addWord, ih]
      · simp [separator, ih]

theorem mem_of_mem_words {text word : List Char} {c : Char} (known : word ∈ words text)
    (member : c ∈ word) : c ∈ text := by
  have inside : c ∈ (words text).flatten := List.mem_flatten.mpr ⟨word, known, member⟩
  rw [flatten_words] at inside
  exact (List.mem_filter.mp inside).1

theorem dropWhile_isBlank {text : List Char} (letters : ∀ c ∈ text, isBlank c = false) :
    text.dropWhile isBlank = text := by
  cases text with
  | nil => rfl
  | cons head tail => simp [letters head List.mem_cons_self]

theorem trim_of_no_blank {text : List Char} (letters : ∀ c ∈ text, isBlank c = false) :
    trim text = text := by
  have reversed : ∀ c ∈ text.reverse, isBlank c = false := by simpa using letters
  rw [trim, trimStart, dropWhile_isBlank letters, trimEnd, dropWhile_isBlank reversed,
    List.reverse_reverse]

theorem mem_of_mem_trim {text : List Char} {c : Char} (member : c ∈ trim text) : c ∈ text := by
  rw [trim, trimEnd, List.mem_reverse] at member
  have inside := (List.dropWhile_sublist isBlank).subset member
  rw [List.mem_reverse] at inside
  exact (List.dropWhile_sublist isBlank).subset inside

section

variable {stop : Char} {text : List Char} (absent : stop ∉ text)

include absent

theorem ne_of_not_mem : ∀ c ∈ text, (c != stop) = true := by
  intro c member
  rw [bne_iff_ne]
  rintro rfl
  exact absent member

theorem takeWhile_append_stop (rest : List Char) :
    (text ++ stop :: rest).takeWhile (· != stop) = text := by
  simp [List.takeWhile_append_of_pos (ne_of_not_mem absent)]

theorem dropWhile_append_stop (rest : List Char) :
    (text ++ stop :: rest).dropWhile (· != stop) = stop :: rest := by
  simp [List.dropWhile_append_of_pos (ne_of_not_mem absent)]

theorem takeWhile_of_not_mem : text.takeWhile (· != stop) = text := by
  have whole := @List.takeWhile_append_of_pos _ _ _ [] (ne_of_not_mem absent)
  simpa using whole

theorem dropWhile_of_not_mem : text.dropWhile (· != stop) = [] := by
  have nothing := @List.dropWhile_append_of_pos _ _ _ [] (ne_of_not_mem absent)
  simpa using nothing

end

end Text

namespace Statement

theorem withoutComment_append_of_not_mem {text : List Char} (plain : ';' ∉ text)
    (rest : List Char) : withoutComment (text ++ rest) = text ++ withoutComment rest :=
  List.takeWhile_append_of_pos (Text.ne_of_not_mem plain)

theorem withoutComment_append {code : List Char} (plain : ';' ∉ code) (comment : List Char) :
    withoutComment (code ++ ';' :: comment) = code :=
  Text.takeWhile_append_stop plain comment

theorem withoutComment_of_not_mem {code : List Char} (plain : ';' ∉ code) :
    withoutComment code = code :=
  Text.takeWhile_of_not_mem plain

theorem not_mem_withoutComment (text : List Char) : ';' ∉ withoutComment text := by
  intro member
  have kept := List.all_eq_true.mp (List.all_takeWhile (l := text)) ';' member
  simp at kept

theorem splitLabel_append {name : List Char} (plain : ':' ∉ name) (rest : List Char) :
    splitLabel (name ++ ':' :: rest) = (some name, rest) := by
  simp [splitLabel, Text.takeWhile_append_stop plain, Text.dropWhile_append_stop plain]

theorem splitLabel_of_not_mem {code : List Char} (plain : ':' ∉ code) :
    splitLabel code = (none, code) := by
  simp [splitLabel, Text.dropWhile_of_not_mem plain]

theorem ofChars?_append_comment (line : Nat) (text comment : List Char) :
    ofChars? line (text ++ ';' :: comment) = ofChars? line text := by
  have same : withoutComment (text ++ ';' :: comment) = withoutComment text := by
    by_cases commented : ';' ∈ text
    · obtain ⟨code, rest, rfl, plain⟩ := List.eq_append_cons_of_mem commented
      rw [List.append_assoc, List.cons_append, withoutComment_append plain,
        withoutComment_append plain]
    · rw [withoutComment_append commented, withoutComment_of_not_mem commented]
  rw [ofChars?, ofChars?, same]

theorem ofChars?_append_blanks (line : Nat) (text : List Char) {blanks : List Char}
    (blank : ∀ c ∈ blanks, Text.isBlank c = true) :
    ofChars? line (text ++ blanks) = ofChars? line text := by
  have separators : ∀ c ∈ blanks, Text.isSeparator c = true :=
    fun c member => Text.isSeparator_of_isBlank (blank c member)
  have noSemicolon : ';' ∉ blanks := fun member => absurd (blank ';' member) (by decide)
  have noColon : ':' ∉ blanks := fun member => absurd (blank ':' member) (by decide)
  by_cases commented : ';' ∈ text
  · obtain ⟨code, comment, rfl, _⟩ := List.eq_append_cons_of_mem commented
    rw [List.append_assoc, List.cons_append, ofChars?_append_comment, ofChars?_append_comment]
  · have longer : withoutComment (text ++ blanks) = text ++ blanks :=
      withoutComment_of_not_mem (by simp [commented, noSemicolon])
    rw [ofChars?, ofChars?, longer, withoutComment_of_not_mem commented]
    by_cases labelled : ':' ∈ text
    · obtain ⟨name, rest, rfl, plain⟩ := List.eq_append_cons_of_mem labelled
      rw [List.append_assoc, List.cons_append, splitLabel_append plain, splitLabel_append plain]
      simp only [Text.words_append_separators rest separators]
    · have unlabelled : ':' ∉ text ++ blanks := by simp [labelled, noColon]
      rw [splitLabel_of_not_mem labelled, splitLabel_of_not_mem unlabelled]
      simp only [Text.words_append_separators text separators]

theorem ofChars?_of_separators (line : Nat) {text : List Char}
    (separators : ∀ c ∈ withoutComment text, Text.isSeparator c = true) :
    ofChars? line text = .ok none := by
  have unlabelled : ':' ∉ withoutComment text :=
    fun member => absurd (separators ':' member) (by decide)
  rw [ofChars?, splitLabel_of_not_mem unlabelled]
  simp only [Text.words_of_separators separators]
  rfl

end Statement

end TwoPass
