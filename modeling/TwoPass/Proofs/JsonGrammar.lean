import TwoPass.Json.Reader
import TwoPass.Proofs.JsonNumbers
import TwoPass.Proofs.JsonStrings

/-!
The grammar of JSON text, with any space between the parts and values nested to any depth. Every
text of the grammar is read as the value that the grammar gives it, so it has no other value.
-/

namespace TwoPass.Json

def Spaces (gap : List Char) : Prop :=
  ∀ c ∈ gap, isSpace c = true

theorem spaces_nil : Spaces [] := by
  simp [Spaces]

inductive Phrase where
  | value (value : Json)
  /-- A value with the space around it. -/
  | element (value : Json)
  | items (items : List Json)
  | member (key : Option String) (value : Json)
  | members (members : List (Option String × Json))

inductive Spelled : Phrase → List Char → Prop where
  | nullWord : Spelled (.value .null) ['n', 'u', 'l', 'l']
  | trueWord : Spelled (.value (.bool true)) ['t', 'r', 'u', 'e']
  | falseWord : Spelled (.value (.bool false)) ['f', 'a', 'l', 's', 'e']
  | number {text : List Char} (number : NumberText text) :
      Spelled (.value (.number (String.ofList text))) text
  | string {text : Option String} {spelling : List Char} (spelled : StringText text spelling) :
      Spelled (.value (.string text)) spelling
  | emptyArray {gap : List Char} (spaces : Spaces gap) :
      Spelled (.value (.array [])) ('[' :: (gap ++ [']']))
  | array {items : List Json} {text : List Char} (inner : Spelled (.items items) text) :
      Spelled (.value (.array items)) ('[' :: (text ++ [']']))
  | emptyObject {gap : List Char} (spaces : Spaces gap) :
      Spelled (.value (.object [])) ('\x7b' :: (gap ++ ['\x7d']))
  | object {members : List (Option String × Json)} {text : List Char}
      (inner : Spelled (.members members) text) :
      Spelled (.value (.object members)) ('\x7b' :: (text ++ ['\x7d']))
  | element {value : Json} {before text after : List Char} (spacesBefore : Spaces before)
      (inner : Spelled (.value value) text) (spacesAfter : Spaces after) :
      Spelled (.element value) (before ++ (text ++ after))
  | lastItem {value : Json} {text : List Char} (item : Spelled (.element value) text) :
      Spelled (.items [value]) text
  | moreItems {value : Json} {items : List Json} {text later : List Char}
      (item : Spelled (.element value) text) (rest : Spelled (.items items) later) :
      Spelled (.items (value :: items)) (text ++ ',' :: later)
  | member {key : Option String} {value : Json} {before spelling after text : List Char}
      (spacesBefore : Spaces before) (name : StringText key spelling) (spacesAfter : Spaces after)
      (inner : Spelled (.element value) text) :
      Spelled (.member key value) (before ++ (spelling ++ (after ++ ':' :: text)))
  | lastMember {key : Option String} {value : Json} {text : List Char}
      (member : Spelled (.member key value) text) : Spelled (.members [(key, value)]) text
  | moreMembers {key : Option String} {value : Json} {members : List (Option String × Json)}
      {text later : List Char} (member : Spelled (.member key value) text)
      (rest : Spelled (.members members) later) :
      Spelled (.members ((key, value) :: members)) (text ++ ',' :: later)

def Scan.tokensAfter (scan : Scan) (text : List Char) : Option (List Token) :=
  (text.foldlM step scan).bind finish

def Ends (rest : List Char) : Prop :=
  ∀ c ∈ rest.head?, isSpace c = true ∨ c = ',' ∨ c = ']' ∨ c = '\x7d'

def Delimited (text : List Char) (tokens : List Token) : Prop :=
  ∀ before, text.foldlM Scan.step ⟨before, .between⟩ = some ⟨tokens.reverse ++ before, .between⟩

def Scanned (text : List Char) (tokens : List Token) : Prop :=
  ∀ before rest, Ends rest →
    Scan.tokensAfter ⟨before, .between⟩ (text ++ rest) =
      Scan.tokensAfter ⟨tokens.reverse ++ before, .between⟩ rest

theorem Scan.tokensAfter_cons (scan : Scan) (c : Char) (text : List Char) :
    scan.tokensAfter (c :: text) = (scan.step c).bind fun next => next.tokensAfter text := by
  rw [tokensAfter, List.foldlM_cons]
  exact Option.bind_assoc _ _ _

theorem Scan.tokensAfter_append {scan next : Scan} {text : List Char}
    (scanned : text.foldlM step scan = some next) (rest : List Char) :
    scan.tokensAfter (text ++ rest) = next.tokensAfter rest := by
  rw [tokensAfter, List.foldlM_append, scanned]
  rfl

section

variable {first second : List Char} {tokens others : List Token}

theorem Delimited.scanned (delimited : Delimited first tokens) : Scanned first tokens :=
  fun before rest _ => Scan.tokensAfter_append (delimited before) rest

theorem Delimited.append_scanned (before : Delimited first tokens)
    (after : Scanned second others) : Scanned (first ++ second) (tokens ++ others) := by
  intro earlier rest ends
  rw [List.append_assoc, Scan.tokensAfter_append (before earlier), after _ rest ends,
    List.reverse_append, List.append_assoc]

theorem Scanned.append (before : Scanned first tokens) (after : Scanned second others)
    (ends : ∀ rest, Ends rest → Ends (second ++ rest)) :
    Scanned (first ++ second) (tokens ++ others) := by
  intro earlier rest last
  rw [List.append_assoc, before earlier _ (ends rest last), after _ rest last,
    List.reverse_append, List.append_assoc]

end

theorem delimited_spaces {gap : List Char} (spaces : Spaces gap) : Delimited gap [] := by
  intro before
  induction gap with
  | nil => rfl
  | cons c rest ih =>
      obtain ⟨space, later⟩ := List.forall_mem_cons.mp spaces
      have stepped : Scan.step ⟨before, .between⟩ c = some ⟨before, .between⟩ := by
        simp [Scan.step, Scan.start, space]
      rw [List.foldlM_cons, stepped]
      exact ih later

theorem delimited_string {text : Option String} {spelling : List Char}
    (spelled : StringText text spelling) : Delimited spelling [.string text] :=
  foldlM_step_stringText spelled

theorem Ends.spaces {gap rest : List Char} (spaces : Spaces gap) (ends : Ends rest) :
    Ends (gap ++ rest) := by
  cases gap with
  | nil => exact ends
  | cons c later =>
      rintro other ⟨⟩
      exact .inl (spaces c List.mem_cons_self)

theorem Ends.plain {rest : List Char} (ends : Ends rest) :
    ∀ c ∈ rest.head?, c.isLower = false ∧ isNumberChar c = false := by
  intro c head
  rcases ends c head with space | rfl | rfl | rfl
  · simp only [isSpace, Bool.or_eq_true, beq_iff_eq] at space
    rcases space with ((rfl | rfl) | rfl) | rfl <;> decide
  all_goals decide

/-- How words and numbers are scanned: a mode that goes on with the characters that it may have, and
that any other character ends. -/
structure RunMode (mode : List Char → ScanMode) (continues : Char → Bool)
    (read : List Char → Option Json) : Prop where
  extends_run : ∀ tokens before c, continues c = true →
    Scan.step ⟨tokens, mode before⟩ c = some ⟨tokens, mode (c :: before)⟩
  ends_run : ∀ tokens before c value, continues c = false → read before.reverse = some value →
    Scan.step ⟨tokens, mode before⟩ c = Scan.step ⟨.scalar value :: tokens, .between⟩ c
  finishes : ∀ tokens before value, read before.reverse = some value →
    Scan.finish ⟨tokens, mode before⟩ = Scan.finish ⟨.scalar value :: tokens, .between⟩

theorem runMode_word : RunMode .word Char.isLower scalarOfWord? where
  extends_run tokens before c letter := by simp [Scan.step, letter]
  ends_run tokens before c value other read := by simp [Scan.step, other, read]
  finishes tokens before value read := by simp [Scan.finish, read]

theorem runMode_number : RunMode .number isNumberChar scalarOfNumber? where
  extends_run tokens before c character := by simp [Scan.step, character]
  ends_run tokens before c value other read := by simp [Scan.step, other, read]
  finishes tokens before value read := by simp [Scan.finish, read]

section

variable {mode : List Char → ScanMode} {continues : Char → Bool} {read : List Char → Option Json}

theorem RunMode.foldlM_step (runMode : RunMode mode continues read) {run : List Char}
    (within : ∀ c ∈ run, continues c = true) (tokens : List Token) (before : List Char) :
    run.foldlM Scan.step ⟨tokens, mode before⟩ = some ⟨tokens, mode (run.reverse ++ before)⟩ := by
  induction run generalizing before with
  | nil => rfl
  | cons c rest ih =>
      obtain ⟨first, later⟩ := List.forall_mem_cons.mp within
      rw [List.foldlM_cons, runMode.extends_run tokens before c first, List.reverse_cons,
        List.append_assoc]
      exact ih later (c :: before)

theorem RunMode.scanned (runMode : RunMode mode continues read) {first : Char} {run : List Char}
    {value : Json}
    (starts : ∀ tokens, Scan.step ⟨tokens, .between⟩ first = some ⟨tokens, mode [first]⟩)
    (within : ∀ c ∈ run, continues c = true) (reads : read (first :: run) = some value)
    (stops : ∀ rest, Ends rest → ∀ c ∈ rest.head?, continues c = false) :
    Scanned (first :: run) [.scalar value] := by
  intro before rest ends
  have whole : (first :: run).foldlM Scan.step ⟨before, .between⟩ =
      some ⟨before, mode (first :: run).reverse⟩ := by
    rw [List.foldlM_cons, starts before, List.reverse_cons]
    exact runMode.foldlM_step within before [first]
  have reversed : read (first :: run).reverse.reverse = some value := by
    rw [List.reverse_reverse, reads]
  rw [Scan.tokensAfter_append whole]
  cases rest with
  | nil => exact runMode.finishes before _ value reversed
  | cons c later =>
      rw [Scan.tokensAfter_cons, Scan.tokensAfter_cons,
        runMode.ends_run before _ c value (stops _ ends c rfl) reversed]
      rfl

end

theorem scanned_word {first : Char} {rest : List Char} {value : Json}
    (starts : ∀ tokens, Scan.step ⟨tokens, .between⟩ first = some ⟨tokens, .word [first]⟩)
    (letters : rest.all Char.isLower = true) (reads : scalarOfWord? (first :: rest) = some value) :
    Scanned (first :: rest) [.scalar value] :=
  runMode_word.scanned starts (List.all_eq_true.mp letters) reads
    fun _ ends c head => (ends.plain c head).1

theorem scanned_number {text : List Char} (number : NumberText text) :
    Scanned text [.scalar (.number (String.ofList text))] := by
  have characters := isNumberChar_of_numberText number
  have reads : scalarOfNumber? text = some (.number (String.ofList text)) := by
    rw [scalarOfNumber?, if_pos (isNumber_of_numberText number)]
  obtain ⟨first, rest, rfl, opening⟩ := number.exists_cons
  have notSpace : isSpace first = false := by
    rw [Bool.eq_false_iff]
    intro space
    simp only [isSpace, Bool.or_eq_true, beq_iff_eq] at space
    rcases space with ((rfl | rfl) | rfl) | rfl <;> exact absurd opening (by decide)
  apply runMode_number.scanned _ (List.forall_mem_cons.mp characters).2 reads
    fun _ ends c head => (ends.plain c head).2
  intro tokens
  rcases opening with digit | rfl
  · simp [Scan.step, Scan.start, notSpace, digit]
  · rfl

/-- Tokens that do not close what has just been opened: they are read as a first part of it. -/
def Opens (opened first : List Frame → Reading) (tokens : List Token) : Prop :=
  ∀ enclosing, tokens.foldlM Reading.step (opened enclosing) =
    tokens.foldlM Reading.step (first enclosing)

abbrev OpenItems : List Token → Prop :=
  Opens .itemOrEnd fun enclosing => .valueNext (.array [] :: enclosing)

abbrev OpenMembers : List Token → Prop :=
  Opens .keyOrEnd fun enclosing => .keyNext [] enclosing

/-- How the tokens of a phrase are read. Items and members are read up to the bracket after them. -/
def Phrase.Read : Phrase → List Token → Prop
  | .value json, tokens | .element json, tokens =>
      OpenItems tokens ∧ ∀ enclosing,
        tokens.foldlM Reading.step (.valueNext enclosing) = some (.complete json enclosing)
  | .items list, tokens =>
      OpenItems tokens ∧ ∀ earlier enclosing,
        (tokens ++ [Token.rightBracket]).foldlM Reading.step
            (.valueNext (.array earlier :: enclosing)) =
          some (.complete (.array (earlier.reverse ++ list)) enclosing)
  | .member key json, tokens =>
      OpenMembers tokens ∧ ∀ earlier enclosing,
        tokens.foldlM Reading.step (.keyNext earlier enclosing) =
          some (.complete json (.member earlier key :: enclosing))
  | .members list, tokens =>
      OpenMembers tokens ∧ ∀ earlier enclosing,
        (tokens ++ [Token.rightBrace]).foldlM Reading.step (.keyNext earlier enclosing) =
          some (.complete (.object (earlier.reverse ++ list)) enclosing)

theorem Opens.append {opened first : List Frame → Reading} {tokens : List Token}
    (opens : Opens opened first tokens) (later : List Token) :
    Opens opened first (tokens ++ later) := by
  intro enclosing
  rw [List.foldlM_append, List.foldlM_append, opens]

theorem read_scalar (value : Json) : (Phrase.value value).Read [.scalar value] :=
  ⟨fun _ => rfl, fun _ => rfl⟩

theorem read_array {items : List Json} {tokens : List Token}
    (inner : (Phrase.items items).Read tokens) :
    (Phrase.value (.array items)).Read (.leftBracket :: (tokens ++ [.rightBracket])) := by
  obtain ⟨opens, reads⟩ := inner
  refine ⟨fun _ => rfl, fun enclosing => ?_⟩
  change (tokens ++ [Token.rightBracket]).foldlM Reading.step (.itemOrEnd enclosing) = _
  rw [opens.append, reads]
  rfl

theorem read_object {members : List (Option String × Json)} {tokens : List Token}
    (inner : (Phrase.members members).Read tokens) :
    (Phrase.value (.object members)).Read (.leftBrace :: (tokens ++ [.rightBrace])) := by
  obtain ⟨opens, reads⟩ := inner
  refine ⟨fun _ => rfl, fun enclosing => ?_⟩
  change (tokens ++ [Token.rightBrace]).foldlM Reading.step (.keyOrEnd enclosing) = _
  rw [opens.append, reads]
  rfl

theorem read_lastItem {value : Json} {tokens : List Token}
    (item : (Phrase.element value).Read tokens) : (Phrase.items [value]).Read tokens := by
  obtain ⟨opens, reads⟩ := item
  refine ⟨opens, fun earlier enclosing => ?_⟩
  rw [List.foldlM_append, reads, ← List.reverse_cons]
  rfl

theorem read_moreItems {value : Json} {items : List Json} {tokens later : List Token}
    (item : (Phrase.element value).Read tokens) (rest : (Phrase.items items).Read later) :
    (Phrase.items (value :: items)).Read (tokens ++ .comma :: later) := by
  obtain ⟨opens, reads⟩ := item
  refine ⟨opens.append _, fun earlier enclosing => ?_⟩
  have next := rest.2 (value :: earlier) enclosing
  rw [List.reverse_cons, List.append_assoc] at next
  rw [List.append_assoc, List.foldlM_append, reads]
  exact next

theorem read_member {value : Json} {tokens : List Token} (key : Option String)
    (inner : (Phrase.element value).Read tokens) :
    (Phrase.member key value).Read (.string key :: .colon :: tokens) :=
  ⟨fun _ => rfl, fun earlier enclosing => inner.2 (.member earlier key :: enclosing)⟩

theorem read_lastMember {key : Option String} {value : Json} {tokens : List Token}
    (member : (Phrase.member key value).Read tokens) :
    (Phrase.members [(key, value)]).Read tokens := by
  obtain ⟨opens, reads⟩ := member
  refine ⟨opens, fun earlier enclosing => ?_⟩
  rw [List.foldlM_append, reads, ← List.reverse_cons]
  rfl

theorem read_moreMembers {key : Option String} {value : Json}
    {members : List (Option String × Json)} {tokens later : List Token}
    (member : (Phrase.member key value).Read tokens) (rest : (Phrase.members members).Read later) :
    (Phrase.members ((key, value) :: members)).Read (tokens ++ .comma :: later) := by
  obtain ⟨opens, reads⟩ := member
  refine ⟨opens.append _, fun earlier enclosing => ?_⟩
  have next := rest.2 ((key, value) :: earlier) enclosing
  rw [List.reverse_cons, List.append_assoc] at next
  rw [List.append_assoc, List.foldlM_append, reads]
  exact next

theorem scanned_between {opening closing : Char} {left right : Token} {text : List Char}
    {tokens : List Token} (opens : Delimited [opening] [left])
    (closes : Delimited [closing] [right]) (ends : ∀ rest, Ends (closing :: rest))
    (inner : Scanned text tokens) :
    Scanned (opening :: (text ++ [closing])) (left :: (tokens ++ [right])) :=
  opens.append_scanned (inner.append closes.scanned fun rest _ => ends rest)

theorem scanned_separated {text later : List Char} {tokens others : List Token}
    (before : Scanned text tokens) (after : Scanned later others) :
    Scanned (text ++ ',' :: later) (tokens ++ .comma :: others) := by
  have comma : Delimited [','] [.comma] := fun _ => rfl
  apply before.append (comma.append_scanned after)
  rintro rest _ c ⟨⟩
  exact .inr (.inl rfl)

theorem scanned_brackets {text : List Char} {tokens : List Token} (inner : Scanned text tokens) :
    Scanned ('[' :: (text ++ [']'])) (.leftBracket :: (tokens ++ [.rightBracket])) := by
  apply scanned_between (fun _ => rfl) (fun _ => rfl) _ inner
  rintro rest c ⟨⟩
  exact .inr (.inr (.inl rfl))

theorem scanned_braces {text : List Char} {tokens : List Token} (inner : Scanned text tokens) :
    Scanned ('\x7b' :: (text ++ ['\x7d'])) (.leftBrace :: (tokens ++ [.rightBrace])) := by
  apply scanned_between (fun _ => rfl) (fun _ => rfl) _ inner
  rintro rest c ⟨⟩
  exact .inr (.inr (.inr rfl))

theorem scanned_element {before text after : List Char} {tokens : List Token}
    (spacesBefore : Spaces before) (inner : Scanned text tokens) (spacesAfter : Spaces after) :
    Scanned (before ++ (text ++ after)) tokens := by
  have padded := inner.append (delimited_spaces spacesAfter).scanned fun _ => .spaces spacesAfter
  have whole := (delimited_spaces spacesBefore).append_scanned padded
  rwa [List.nil_append, List.append_nil] at whole

theorem scanned_member {key : Option String} {before spelling after text : List Char}
    {tokens : List Token} (spacesBefore : Spaces before) (name : StringText key spelling)
    (spacesAfter : Spaces after) (inner : Scanned text tokens) :
    Scanned (before ++ (spelling ++ (after ++ ':' :: text))) (.string key :: .colon :: tokens) := by
  have colon : Delimited [':'] [.colon] := fun _ => rfl
  exact (delimited_spaces spacesBefore).append_scanned ((delimited_string name).append_scanned
    ((delimited_spaces spacesAfter).append_scanned (colon.append_scanned inner)))

theorem Spelled.exists_tokens {phrase : Phrase} {text : List Char} (spelled : Spelled phrase text) :
    ∃ tokens, Scanned text tokens ∧ phrase.Read tokens := by
  -- One induction for both: the tokens that a part is scanned to are known from its parts only.
  induction spelled with
  | nullWord => exact ⟨_, scanned_word (fun _ => rfl) rfl rfl, read_scalar .null⟩
  | trueWord => exact ⟨_, scanned_word (fun _ => rfl) rfl rfl, read_scalar (.bool true)⟩
  | falseWord => exact ⟨_, scanned_word (fun _ => rfl) rfl rfl, read_scalar (.bool false)⟩
  | number number => exact ⟨_, scanned_number number, read_scalar _⟩
  | string spelled => exact ⟨_, (delimited_string spelled).scanned, fun _ => rfl, fun _ => rfl⟩
  | emptyArray spaces =>
      exact ⟨[.leftBracket, .rightBracket], scanned_brackets (delimited_spaces spaces).scanned,
        fun _ => rfl, fun _ => rfl⟩
  | array inner ih =>
      obtain ⟨tokens, scanned, reads⟩ := ih
      exact ⟨_, scanned_brackets scanned, read_array reads⟩
  | emptyObject spaces =>
      exact ⟨[.leftBrace, .rightBrace], scanned_braces (delimited_spaces spaces).scanned,
        fun _ => rfl, fun _ => rfl⟩
  | object inner ih =>
      obtain ⟨tokens, scanned, reads⟩ := ih
      exact ⟨_, scanned_braces scanned, read_object reads⟩
  | element spacesBefore inner spacesAfter ih =>
      obtain ⟨tokens, scanned, reads⟩ := ih
      exact ⟨tokens, scanned_element spacesBefore scanned spacesAfter, reads⟩
  | lastItem item ih =>
      obtain ⟨tokens, scanned, reads⟩ := ih
      exact ⟨tokens, scanned, read_lastItem reads⟩
  | moreItems item rest ih ihRest =>
      obtain ⟨tokens, scanned, reads⟩ := ih
      obtain ⟨later, scannedLater, readsLater⟩ := ihRest
      exact ⟨_, scanned_separated scanned scannedLater, read_moreItems reads readsLater⟩
  | @member key value before spelling after text spacesBefore name spacesAfter inner ih =>
      obtain ⟨tokens, scanned, reads⟩ := ih
      exact ⟨_, scanned_member spacesBefore name spacesAfter scanned, read_member key reads⟩
  | lastMember member ih =>
      obtain ⟨tokens, scanned, reads⟩ := ih
      exact ⟨tokens, scanned, read_lastMember reads⟩
  | moreMembers member rest ih ihRest =>
      obtain ⟨tokens, scanned, reads⟩ := ih
      obtain ⟨later, scannedLater, readsLater⟩ := ihRest
      exact ⟨_, scanned_separated scanned scannedLater, read_moreMembers reads readsLater⟩

/-- The text spells a value with nothing but space around it. -/
def Document (value : Json) (text : String) : Prop :=
  Spelled (.element value) text.toList

theorem ofText?_of_document {value : Json} {text : String} (document : Document value text) :
    ofText? text = some value := by
  obtain ⟨tokens, scanned, _, reads⟩ := document.exists_tokens
  have ended := scanned [] [] (by simp [Ends])
  rw [List.append_nil, List.append_nil] at ended
  have whole : tokens? text.toList = some tokens := by
    refine Eq.trans ended ?_
    simp [Scan.tokensAfter, Scan.finish]
  rw [ofText?, whole, Option.bind_some, ofTokens?, reads, Option.bind_some, Reading.finish]

theorem Document.unique {value other : Json} {text : String} (document : Document value text)
    (otherDocument : Document other text) : value = other := by
  have read := ofText?_of_document document
  rw [ofText?_of_document otherDocument, Option.some.injEq] at read
  exact read.symm

end TwoPass.Json
