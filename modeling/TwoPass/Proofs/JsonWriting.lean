import TwoPass.Proofs.JsonGrammar

/-!
Writing JSON values, with or without space between the parts. What is written of a value is text of
the grammar that spells the value, so it is read back.
-/

namespace TwoPass.Json

structure Style.Spaced (style : Style) : Prop where
  gap : ∀ level, Spaces (style.gap level)
  afterColon : Spaces style.afterColon

theorem spaced_compactStyle : compactStyle.Spaced :=
  ⟨fun _ => spaces_nil, spaces_nil⟩

theorem spaced_prettyStyle : prettyStyle.Spaced := by
  refine ⟨fun level => List.forall_mem_cons.mpr ⟨rfl, ?_⟩, List.forall_mem_singleton.mpr rfl⟩
  intro c member
  rw [List.eq_of_mem_replicate member]
  rfl

/-- The value is spelled by what is written of it, at any depth. -/
def Written (style : Style) (value : Json) : Prop :=
  ∀ level, Spelled (.value value) (write style level value)

theorem written_ofNat (style : Style) (value : Nat) : Written style (.ofNat value) := by
  intro level
  have spelled := Spelled.number (numberText_decimal value)
  rw [String.ofList_toList] at spelled
  exact spelled

theorem written_ofText (style : Style) (text : String) : Written style (.ofText text) :=
  fun _ => .string (stringText_quote (some text))

section

variable {style : Style} (spaced : style.Spaced)

include spaced

theorem spelled_items {first : Json} {rest : List Json} (firstWritten : Written style first)
    (restWritten : ∀ item ∈ rest, Written style item) (level : Nat) {closing : List Char}
    (spaces : Spaces closing) :
    Spelled (.items (first :: rest))
      (style.gap level ++ (write style level first ++
        (writeItems style level rest ++ closing))) := by
  -- The space before the closing bracket belongs to the last item, so it goes along.
  induction rest generalizing first with
  | nil => exact .lastItem (.element (spaced.gap level) (firstWritten level) spaces)
  | cons second others ih =>
      obtain ⟨secondWritten, othersWritten⟩ := List.forall_mem_cons.mp restWritten
      have item := Spelled.element (spaced.gap level) (firstWritten level) spaces_nil
      have all := Spelled.moreItems item (ih secondWritten othersWritten)
      simpa [writeItems] using all

theorem written_array {items : List Json} (written : ∀ item ∈ items, Written style item) :
    Written style (.array items) := by
  intro level
  cases items with
  | nil => exact .emptyArray spaces_nil
  | cons first rest =>
      obtain ⟨firstWritten, restWritten⟩ := List.forall_mem_cons.mp written
      have inner := spelled_items spaced firstWritten restWritten (level + 1) (spaced.gap level)
      simpa [write] using Spelled.array inner

theorem spelled_writeMember (key : Option String) {value : Json} (written : Written style value)
    (level : Nat) {closing : List Char} (spaces : Spaces closing) :
    Spelled (.member key value)
      (style.gap level ++ (writeMember style level (key, value) ++ closing)) := by
  have element := Spelled.element spaced.afterColon (written level) spaces
  have member := Spelled.member (spaced.gap level) (stringText_quote key) spaces_nil element
  simpa [writeMember] using member

theorem spelled_members {first : Option String × Json} {rest : List (Option String × Json)}
    (firstWritten : Written style first.2) (restWritten : ∀ member ∈ rest, Written style member.2)
    (level : Nat) {closing : List Char} (spaces : Spaces closing) :
    Spelled (.members (first :: rest))
      (style.gap level ++ (writeMember style level first ++
        (writeMembers style level rest ++ closing))) := by
  induction rest generalizing first with
  | nil => exact .lastMember (spelled_writeMember spaced first.1 firstWritten level spaces)
  | cons second others ih =>
      obtain ⟨secondWritten, othersWritten⟩ := List.forall_mem_cons.mp restWritten
      have member := spelled_writeMember spaced first.1 firstWritten level spaces_nil
      have all := Spelled.moreMembers member (ih secondWritten othersWritten)
      simpa [writeMembers] using all

theorem written_object {members : List (Option String × Json)}
    (written : ∀ member ∈ members, Written style member.2) : Written style (.object members) := by
  intro level
  cases members with
  | nil => exact .emptyObject spaces_nil
  | cons first rest =>
      obtain ⟨firstWritten, restWritten⟩ := List.forall_mem_cons.mp written
      have inner := spelled_members spaced firstWritten restWritten (level + 1) (spaced.gap level)
      simpa [write] using Spelled.object inner

end

theorem document_of_written {style : Style} {value : Json} (written : Written style value) :
    Document value (String.ofList (write style 0 value)) := by
  have element := Spelled.element spaces_nil (written 0) spaces_nil
  simpa [Document] using element

end TwoPass.Json
