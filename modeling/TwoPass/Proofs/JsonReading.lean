import TwoPass.Proofs.JsonScanning

/-!
The texts that are read. At every token there are arrays and objects that are still open, and the
text up to there is the beginning of a text of the grammar; so a text is read exactly if the grammar
has it.
-/

namespace TwoPass.Json

inductive Earlier : Phrase → List Char → Prop where
  | noItem : Earlier (.items []) []
  | items {items : List Json} {text : List Char} (spelled : Spelled (.items items) text) :
      Earlier (.items items) (text ++ [','])
  | noMember : Earlier (.members []) []
  | members {members : List (Option String × Json)} {text : List Char}
      (spelled : Spelled (.members members) text) : Earlier (.members members) (text ++ [','])

/-- The text before a value that stands in arrays and objects, the innermost of them first. -/
inductive Opened : List Frame → List Char → Prop where
  | outermost : Opened [] []
  | array {enclosing : List Frame} {items : List Json} {before gap text : List Char}
      (outer : Opened enclosing before) (spaces : Spaces gap)
      (earlier : Earlier (.items items.reverse) text) :
      Opened (.array items :: enclosing) (before ++ (gap ++ '[' :: text))
  | member {enclosing : List Frame} {members : List (Option String × Json)} {key : Option String}
      {before gap text left spelling right : List Char} (outer : Opened enclosing before)
      (spaces : Spaces gap) (earlier : Earlier (.members members.reverse) text)
      (spacesLeft : Spaces left) (name : StringText key spelling) (spacesRight : Spaces right) :
      Opened (.member members key :: enclosing)
        (before ++ (gap ++ '\x7b' :: (text ++ (left ++ (spelling ++ (right ++ [':']))))))

inductive ReadingText : Reading → List Char → Prop where
  | valueNext {enclosing : List Frame} {before gap : List Char} (opened : Opened enclosing before)
      (spaces : Spaces gap) : ReadingText (.valueNext enclosing) (before ++ gap)
  | itemOrEnd {enclosing : List Frame} {before gap inner : List Char}
      (opened : Opened enclosing before) (spaces : Spaces gap) (inside : Spaces inner) :
      ReadingText (.itemOrEnd enclosing) (before ++ (gap ++ '[' :: inner))
  | keyOrEnd {enclosing : List Frame} {before gap inner : List Char}
      (opened : Opened enclosing before) (spaces : Spaces gap) (inside : Spaces inner) :
      ReadingText (.keyOrEnd enclosing) (before ++ (gap ++ '\x7b' :: inner))
  | keyNext {enclosing : List Frame} {members : List (Option String × Json)}
      {before gap text inner : List Char} (opened : Opened enclosing before) (spaces : Spaces gap)
      (earlier : Earlier (.members members.reverse) text) (inside : Spaces inner) :
      ReadingText (.keyNext members enclosing) (before ++ (gap ++ '\x7b' :: (text ++ inner)))
  | colonNext {enclosing : List Frame} {members : List (Option String × Json)}
      {key : Option String} {before gap text left spelling right : List Char}
      (opened : Opened enclosing before) (spaces : Spaces gap)
      (earlier : Earlier (.members members.reverse) text) (spacesLeft : Spaces left)
      (name : StringText key spelling) (spacesRight : Spaces right) :
      ReadingText (.colonNext members key enclosing)
        (before ++ (gap ++ '\x7b' :: (text ++ (left ++ (spelling ++ right)))))
  | complete {enclosing : List Frame} {value : Json} {before text : List Char}
      (opened : Opened enclosing before) (spelled : Spelled (.element value) text) :
      ReadingText (.complete value enclosing) (before ++ text)

theorem spelled_items_snoc {items : List Json} {value : Json} {text later : List Char}
    (spelled : Spelled (.items items) text) (item : Spelled (.element value) later) :
    Spelled (.items (items ++ [value])) (text ++ ',' :: later) := by
  induction items generalizing text with
  | nil => cases spelled
  | cons first rest ih =>
      cases spelled with
      | lastItem only => exact .moreItems only (.lastItem item)
      | moreItems head tail =>
          rw [List.append_assoc]
          exact .moreItems head (ih tail)

theorem spelled_members_snoc {members : List (Option String × Json)} {key : Option String}
    {value : Json} {text later : List Char} (spelled : Spelled (.members members) text)
    (member : Spelled (.member key value) later) :
    Spelled (.members (members ++ [(key, value)])) (text ++ ',' :: later) := by
  induction members generalizing text with
  | nil => cases spelled
  | cons first rest ih =>
      cases spelled with
      | lastMember only => exact .moreMembers only (.lastMember member)
      | moreMembers head tail =>
          rw [List.append_assoc]
          exact .moreMembers head (ih tail)

theorem Earlier.spelled_items {items : List Json} {value : Json} {text later : List Char}
    (earlier : Earlier (.items items.reverse) text) (item : Spelled (.element value) later) :
    Spelled (.items (value :: items).reverse) (text ++ later) := by
  rw [List.reverse_cons]
  generalize items.reverse = list at earlier
  cases earlier with
  | noItem => exact .lastItem item
  | items spelled =>
      rw [List.append_assoc]
      exact spelled_items_snoc spelled item

theorem Earlier.spelled_members {members : List (Option String × Json)} {key : Option String}
    {value : Json} {text later : List Char} (earlier : Earlier (.members members.reverse) text)
    (member : Spelled (.member key value) later) :
    Spelled (.members ((key, value) :: members).reverse) (text ++ later) := by
  rw [List.reverse_cons]
  generalize members.reverse = list at earlier
  cases earlier with
  | noMember => exact .lastMember member
  | members spelled =>
      rw [List.append_assoc]
      exact spelled_members_snoc spelled member

theorem exists_items_of_complete {enclosing : List Frame} {items : List Json} {value : Json}
    {text : List Char} (read : ReadingText (.complete value (.array items :: enclosing)) text) :
    ∃ before gap inner, text = before ++ (gap ++ '[' :: inner) ∧ Opened enclosing before ∧
      Spaces gap ∧ Spelled (.items (value :: items).reverse) inner := by
  cases read with
  | complete opened element =>
      cases opened with
      | @array _ _ before gap inner outer spaces earlier =>
          exact ⟨before, gap, _, by simp, outer, spaces, earlier.spelled_items element⟩

theorem exists_members_of_complete {enclosing : List Frame}
    {members : List (Option String × Json)} {key : Option String} {value : Json} {text : List Char}
    (read : ReadingText (.complete value (.member members key :: enclosing)) text) :
    ∃ before gap inner, text = before ++ (gap ++ '\x7b' :: inner) ∧ Opened enclosing before ∧
      Spaces gap ∧ Spelled (.members ((key, value) :: members).reverse) inner := by
  cases read with
  | complete opened element =>
      cases opened with
      | @member _ _ _ before gap inner _ _ _ outer spaces earlier spacesLeft name spacesRight =>
          have member := Spelled.member spacesLeft name spacesRight element
          exact ⟨before, gap, _, by simp, outer, spaces, earlier.spelled_members member⟩

section

variable {before text gap : List Char} {token : Token} {next : Reading}

theorem readingText_startValue {enclosing : List Frame}
    (reading : ReadingText (.valueNext enclosing) before) (spelled : TokenText token text)
    (spaces : Spaces gap) (started : Reading.startValue enclosing token = some next) :
    ReadingText next (before ++ (text ++ gap)) := by
  cases reading with
  | valueNext opened spacesBefore =>
      rw [List.append_assoc]
      cases spelled with
      | scalar value =>
          obtain rfl := Option.some.inj started
          exact .complete opened (.element spacesBefore value spaces)
      | string text =>
          obtain rfl := Option.some.inj started
          exact .complete opened (.element spacesBefore (.string text) spaces)
      | leftBracket =>
          obtain rfl := Option.some.inj started
          exact .itemOrEnd opened spacesBefore spaces
      | leftBrace =>
          obtain rfl := Option.some.inj started
          exact .keyOrEnd opened spacesBefore spaces
      | rightBracket | rightBrace | colon | comma => simp [Reading.startValue] at started

theorem readingText_startMember {enclosing : List Frame}
    {members : List (Option String × Json)}
    (reading : ReadingText (.keyNext members enclosing) before) (spelled : TokenText token text)
    (spaces : Spaces gap) (started : Reading.startMember members enclosing token = some next) :
    ReadingText next (before ++ (text ++ gap)) := by
  cases reading with
  | keyNext opened spacesBefore earlier inside =>
      cases spelled with
      | string name =>
          obtain rfl := Option.some.inj started
          simpa using ReadingText.colonNext opened spacesBefore earlier inside name spaces
      | _ => simp [Reading.startMember] at started

theorem readingText_step {reading : Reading} (read : ReadingText reading before)
    (spelled : TokenText token text) (spaces : Spaces gap)
    (stepped : reading.step token = some next) : ReadingText next (before ++ (text ++ gap)) := by
  revert read spelled stepped
  fun_cases Reading.step reading token with
  | case1 enclosing token =>
      intro read spelled started
      exact readingText_startValue read spelled spaces started
  | case2 enclosing =>
      rintro read ⟨⟩ ⟨⟩
      cases read with
      | itemOrEnd opened spacesBefore inside =>
          have element := Spelled.element spacesBefore (.emptyArray inside) spaces
          simpa using ReadingText.complete opened element
  | case3 enclosing token notClosing =>
      intro read spelled started
      cases read with
      | itemOrEnd opened spacesBefore inside =>
          have array := @Opened.array _ [] _ _ _ opened spacesBefore .noItem
          have first := ReadingText.valueNext array inside
          simpa using readingText_startValue first spelled spaces started
  | case4 enclosing =>
      rintro read ⟨⟩ ⟨⟩
      cases read with
      | keyOrEnd opened spacesBefore inside =>
          have element := Spelled.element spacesBefore (.emptyObject inside) spaces
          simpa using ReadingText.complete opened element
  | case5 enclosing token notClosing =>
      intro read spelled started
      cases read with
      | keyOrEnd opened spacesBefore inside =>
          have first := @ReadingText.keyNext _ [] _ _ _ _ opened spacesBefore .noMember inside
          exact readingText_startMember first spelled spaces started
  | case6 members enclosing token =>
      intro read spelled started
      exact readingText_startMember read spelled spaces started
  | case7 members key enclosing =>
      rintro read ⟨⟩ ⟨⟩
      cases read with
      | colonNext opened spacesBefore earlier spacesLeft name spacesRight =>
          have inside := Opened.member opened spacesBefore earlier spacesLeft name spacesRight
          simpa using ReadingText.valueNext inside spaces
  | case8 value items enclosing =>
      rintro read ⟨⟩ ⟨⟩
      obtain ⟨before, gap, inner, rfl, outer, spacesBefore, items⟩ := exists_items_of_complete read
      simpa using ReadingText.valueNext (.array outer spacesBefore (.items items)) spaces
  | case9 value items enclosing =>
      rintro read ⟨⟩ ⟨⟩
      obtain ⟨before, gap, inner, rfl, outer, spacesBefore, items⟩ := exists_items_of_complete read
      simpa using ReadingText.complete outer (.element spacesBefore (.array items) spaces)
  | case10 value members key enclosing =>
      rintro read ⟨⟩ ⟨⟩
      obtain ⟨before, gap, inner, rfl, outer, spacesBefore, members⟩ :=
        exists_members_of_complete read
      simpa using ReadingText.keyNext outer spacesBefore (.members members) spaces
  | case11 value members key enclosing =>
      rintro read ⟨⟩ ⟨⟩
      obtain ⟨before, gap, inner, rfl, outer, spacesBefore, members⟩ :=
        exists_members_of_complete read
      simpa using ReadingText.complete outer (.element spacesBefore (.object members) spaces)
  | case12 => rintro _ _ ⟨⟩

theorem readingText_foldlM {tokens : List Token} {last : Reading} (spelled : TokensText tokens text)
    (run : tokens.reverse.foldlM Reading.step (.valueNext []) = some last) :
    ReadingText last text := by
  -- The tokens are kept last first, so each of them is read after those that it is added to.
  induction spelled generalizing last with
  | nil spaces =>
      obtain rfl := Option.some.inj run
      exact .valueNext .outermost spaces
  | cons earlier token spaces ih =>
      rw [List.reverse_cons, List.foldlM_append] at run
      obtain ⟨reading, read, stepped⟩ := Option.bind_eq_some_iff.mp run
      simp only [List.foldlM_cons, List.foldlM_nil, bind_pure] at stepped
      exact readingText_step (ih read) token spaces stepped

theorem spelled_of_finish {reading : Reading} {value : Json} (read : ReadingText reading text)
    (finished : reading.finish = some value) : Spelled (.element value) text := by
  unfold Reading.finish at finished
  split at finished
  · obtain rfl := Option.some.inj finished
    cases read with
    | complete opened element =>
        cases opened
        exact element
  · simp at finished

end

/-- A text is read as a value exactly if it spells the value. -/
theorem ofText?_eq_some_iff (text : String) (value : Json) :
    ofText? text = some value ↔ Document value text := by
  refine ⟨fun read => ?_, ofText?_of_document⟩
  obtain ⟨tokens, scanned, parsed⟩ := Option.bind_eq_some_iff.mp read
  obtain ⟨last, run, finished⟩ := Option.bind_eq_some_iff.mp parsed
  have spelled := tokensText_of_tokens? scanned
  rw [← List.reverse_reverse tokens] at run
  have ended := readingText_foldlM spelled run
  exact spelled_of_finish ended finished

end TwoPass.Json
