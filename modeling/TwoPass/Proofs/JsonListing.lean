import TwoPass.Listing
import TwoPass.Proofs.JsonWriting
import TwoPass.Proofs.Result
import TwoPass.Proofs.WriteOnce

/-!
The JSON listing of a program. It is JSON text with the labels in ascending order and the
instructions in their own, and is read back to both, whatever characters the labels have.
-/

namespace TwoPass

namespace EncodedInstruction

theorem ofJson?_toJson {instruction : EncodedInstruction}
    (small : instruction.line < UInt64.size) :
    ofJson? instruction.toJson = some instruction := by
  have fields : instruction.toJson.record? ["address", "word", "line"] 3 =
      some [some (.ofNat instruction.address.toNat), some (.ofNat instruction.word.toNat),
        some (.ofNat instruction.line)] :=
    rfl
  have address : instruction.address.toNat < UInt32.size := instruction.address.toNat_lt
  have word : instruction.word.toNat < UInt16.size := instruction.word.toNat_lt
  simp [ofJson?, fields, Json.natBelow?_ofNat address, Json.natBelow?_ofNat word,
    Json.natBelow?_ofNat small]

theorem toJson_injective : Function.Injective toJson := by
  rintro ⟨address, word, line⟩ ⟨otherAddress, otherWord, otherLine⟩ same
  simpa [toJson, Json.ofNat_injective.eq_iff, UInt32.toNat_inj, UInt16.toNat_inj] using same

theorem written_toJson (instruction : EncodedInstruction) :
    Json.Written Json.prettyStyle instruction.toJson := by
  apply Json.written_object Json.spaced_prettyStyle
  simp [Json.written_ofNat]

end EncodedInstruction

namespace Program

def symbolMember (symbol : String × UInt32) : Option String × Json :=
  (some symbol.1, .ofNat symbol.2.toNat)

theorem symbolMember_injective : Function.Injective symbolMember := by
  rintro ⟨label, address⟩ ⟨otherLabel, otherAddress⟩ same
  simpa [symbolMember, Json.ofNat_injective.eq_iff, UInt32.toNat_inj] using same

def listingJson (symbols : List (String × UInt32)) (instructions : List Json) : Json :=
  .object [(some "symbols", .object (symbols.map symbolMember)),
    (some "instructions", .array instructions)]

theorem toJson_eq (program : Program) :
    program.toJson = listingJson program.symbols.toSortedList
      (program.instructions.map EncodedInstruction.toJson) :=
  rfl

theorem written_toJson (program : Program) : Json.Written Json.prettyStyle program.toJson := by
  have symbols : Json.Written Json.prettyStyle
      (.object (program.symbols.toSortedList.map symbolMember)) := by
    apply Json.written_object Json.spaced_prettyStyle
    intro member inside
    obtain ⟨symbol, _, rfl⟩ := List.mem_map.mp inside
    exact Json.written_ofNat _ _
  have instructions : Json.Written Json.prettyStyle
      (.array (program.instructions.map EncodedInstruction.toJson)) := by
    apply Json.written_array Json.spaced_prettyStyle
    intro item inside
    obtain ⟨instruction, _, rfl⟩ := List.mem_map.mp inside
    exact instruction.written_toJson
  rw [toJson_eq]
  apply Json.written_object Json.spaced_prettyStyle
  exact List.forall_mem_cons.mpr ⟨symbols, List.forall_mem_singleton.mpr instructions⟩

theorem document_jsonListing (program : Program) :
    Json.Document program.toJson program.jsonListing :=
  Json.document_of_written program.written_toJson

theorem toJson_eq_iff (left right : Program) :
    left.toJson = right.toJson ↔
      left.symbols.toSortedList = right.symbols.toSortedList ∧
        left.instructions = right.instructions := by
  rw [toJson_eq, toJson_eq]
  simp [listingJson, (List.map_injective_iff.mpr symbolMember_injective).eq_iff,
    (List.map_injective_iff.mpr EncodedInstruction.toJson_injective).eq_iff]

theorem jsonListing_eq_iff (left right : Program) :
    left.jsonListing = right.jsonListing ↔
      left.symbols.toSortedList = right.symbols.toSortedList ∧
        left.instructions = right.instructions := by
  rw [← toJson_eq_iff]
  constructor
  · intro same
    have document := left.document_jsonListing
    rw [same] at document
    exact document.unique right.document_jsonListing
  · intro same
    rw [jsonListing, jsonListing, same]

structure ListedAsJson (program : Program) (symbols : List (String × UInt32))
    (instructions : List Json) : Prop where
  spelled : ∀ value, Json.Document value program.jsonListing ↔
    value = listingJson symbols instructions
  read : Json.ofText? program.jsonListing = some (listingJson symbols instructions)
  ascending : symbols.Pairwise fun left right => codePoints left.1 < codePoints right.1
  listed : ∀ label address,
    (label, address) ∈ symbols ↔ program.symbols.resolve? label = some address
  decoded : instructions.mapM EncodedInstruction.ofJson? = some program.instructions

/-- The JSON listing is read back to the symbols and the instructions. Line numbers are read as
words of 64 bits. -/
theorem jsonListing_roundTrip :
    (∀ program : Program,
      (∀ instruction ∈ program.instructions, instruction.line < UInt64.size) →
      ∃ symbols instructions, ListedAsJson program symbols instructions) ∧
    ∀ left right : Program,
      left.jsonListing = right.jsonListing ↔
        left.symbols.toSortedList = right.symbols.toSortedList ∧
          left.instructions = right.instructions := by
  refine ⟨?_, jsonListing_eq_iff⟩
  intro program small
  have document := program.document_jsonListing
  rw [toJson_eq] at document
  have decoded := Result.mapM_map_eq_some fun instruction member =>
    EncodedInstruction.ofJson?_toJson (small instruction member)
  exact ⟨_, _,
    { spelled := fun value => ⟨fun other => other.unique document, fun same => same ▸ document⟩
      read := Json.ofText?_of_document document
      ascending := program.symbols.toSortedList_increasing.imp SymbolTable.codePoints_lt
      listed := program.symbols.mem_toSortedList_iff
      decoded := by simpa using decoded }⟩

theorem jsonListing_roundTrip_escaped_label :
    ∃ symbols instructions,
      ListedAsJson
        ⟨⟨[⟨"q\"\\\x01", 7, 1⟩, ⟨"a", 0, 2⟩], by decide⟩, [⟨7, 0xFFFF, 18446744073709551615⟩]⟩
        symbols instructions ∧
      ("q\"\\\x01", 7) ∈ symbols := by
  obtain ⟨symbols, instructions, listed⟩ := jsonListing_roundTrip.1
    ⟨⟨[⟨"q\"\\\x01", 7, 1⟩, ⟨"a", 0, 2⟩], by decide⟩, [⟨7, 0xFFFF, 18446744073709551615⟩]⟩
    (by simp [UInt64.size])
  exact ⟨symbols, instructions, listed, (listed.listed _ _).mpr rfl⟩

end Program

end TwoPass
