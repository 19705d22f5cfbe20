import TwoPass.Proofs.ConfigText
import TwoPass.Proofs.EncodingTable
import TwoPass.Proofs.FirstFault
import TwoPass.Proofs.JsonReading

/-!
Where registers come from, and what the word of an instruction needs of them. A register made from
an index or read from a token is one of the machine. A register read as data may be any byte, and
with one that the machine does not have the fields of a word run into each other.
-/

namespace TwoPass

inductive RegisterSource where
  | index (number : UInt8)
  | token (name : String)
  | data (text : String)

namespace RegisterSource

def read : RegisterSource → Option Register
  | index number => Register.ofIndex? number
  | token name => Register.ofToken? name
  | data text => (Json.ofText? text).bind Register.ofJson?

/-- The text of a byte that is not the number of a register. -/
def Unchecked : RegisterSource → Prop
  | data text => ∃ number, 8 ≤ number ∧ number < 256 ∧ Json.Document (.ofNat number) text
  | index _ | token _ => False

end RegisterSource

/-- The machine has the register, and reads its name as the register. -/
structure Register.Sound (register : Register) : Prop where
  valid : register.Valid
  named : ofToken? register.name = some register

namespace Word

def parts (opcode first second low : UInt8) : List UInt16 :=
  [opcode.toUInt16 <<< opcodeShift, first.toUInt16 <<< firstShift,
    second.toUInt16 <<< secondShift, low.toUInt16]

end Word

namespace Instruction

def placedRegisters : Instruction → List Register
  | loadi target _ | load target _ | pop target => [target]
  | add target left _ | sub target left _ | mul target left _ => [left, target]
  | store source _ | jz source _ | jnz source _ | push source => [source]
  | jump _ | halt | reti => []

def value? : Instruction → Option UInt8
  | loadi _ value => some value
  | store _ address | load _ address | jump address | jz _ address | jnz _ address => some address
  | add .. | sub .. | mul .. | push _ | pop _ | halt | reti => none

def parts (instruction : Instruction) : List UInt16 :=
  let (first, second, low) := instruction.fields
  Word.parts instruction.mnemonic.opcode first second low

/-- The word has the operation code on top, every field in its own place, and no bit of two. -/
structure LaidOut (instruction : Instruction) : Prop where
  opcode : instruction.word >>> 12 = instruction.mnemonic.opcode.toUInt16
  fields : Word.unpack instruction.word = instruction.wordFields
  apart : instruction.parts.Pairwise fun left right => left &&& right = 0

end Instruction

namespace Word

theorem and_eq_zero_of_place {high low : UInt16} (place : Nat) (above : high.toNat % 2 ^ place = 0)
    (below : low.toNat < 2 ^ place) : high &&& low = 0 := by
  have masked : low.toNat = (2 ^ place - 1) &&& low.toNat := by
    rw [Nat.and_comm, Nat.and_two_pow_sub_one_eq_mod, Nat.mod_eq_of_lt below]
  apply UInt16.toNat_inj.mp
  rw [UInt16.toNat_and, masked, ← Nat.and_assoc, Nat.and_two_pow_sub_one_eq_mod, above,
    Nat.zero_and]
  rfl

theorem toNat_shiftLeft {field : UInt8} {shift : UInt16} (inside : shift.toNat < 16)
    (fits : field.toNat * 2 ^ shift.toNat < UInt16.size) :
    (field.toUInt16 <<< shift).toNat = field.toNat * 2 ^ shift.toNat := by
  rw [UInt16.toNat_shiftLeft, Nat.mod_eq_of_lt inside, UInt8.toNat_toUInt16, Nat.shiftLeft_eq,
    Nat.mod_eq_of_lt fits]

theorem pairwise_parts {opcode first second low : UInt8} (opcodeFits : opcode.toNat < 16)
    (firstFits : first.toNat < 8) (secondFits : second.toNat < 8) (lowFits : low.toNat ≤ lowMax) :
    (parts opcode first second low).Pairwise fun left right => left &&& right = 0 := by
  have room : lowMax = 63 := rfl
  have size : UInt16.size = 65536 := rfl
  have opcodePart : (opcode.toUInt16 <<< opcodeShift).toNat = opcode.toNat * 4096 :=
    toNat_shiftLeft (by decide) (by change opcode.toNat * 4096 < _; omega)
  have firstPart : (first.toUInt16 <<< firstShift).toNat = first.toNat * 512 :=
    toNat_shiftLeft (by decide) (by change first.toNat * 512 < _; omega)
  have secondPart : (second.toUInt16 <<< secondShift).toNat = second.toNat * 64 :=
    toNat_shiftLeft (by decide) (by change second.toNat * 64 < _; omega)
  have lowPart : low.toUInt16.toNat = low.toNat := UInt8.toNat_toUInt16 low
  simp only [parts, List.pairwise_cons, List.forall_mem_cons, List.not_mem_nil, false_imp_iff,
    implies_true, and_true, List.Pairwise.nil]
  -- Two parts are separated at the place of the higher one.
  refine ⟨⟨?_, ?_, ?_⟩, ⟨?_, ?_⟩, ?_⟩
  · exact and_eq_zero_of_place 12 (by omega) (by omega)
  · exact and_eq_zero_of_place 9 (by omega) (by omega)
  · exact and_eq_zero_of_place 6 (by omega) (by omega)
  · exact and_eq_zero_of_place 9 (by omega) (by omega)
  · exact and_eq_zero_of_place 6 (by omega) (by omega)
  · exact and_eq_zero_of_place 6 (by omega) (by omega)

end Word

namespace Register

theorem sound_iff_valid (register : Register) : register.Sound ↔ register.Valid := by
  refine ⟨Sound.valid, fun valid => ⟨valid, ?_⟩⟩
  have small := register.valid_iff_toNat_lt.mp valid
  rw [ofToken?_eq_some_iff, (name_eq_iff small register).mpr rfl]
  exact ⟨small, .inl String.toList_ofList⟩

theorem bind_ofText?_eq_some_iff (text : String) (register : Register) :
    (Json.ofText? text).bind ofJson? = some register ↔
      Json.Document (.ofNat register.index.toNat) text := by
  constructor
  · intro read
    obtain ⟨value, parsed, read⟩ := Option.bind_eq_some_iff.mp read
    obtain ⟨number, below, rfl⟩ := Option.map_eq_some_iff.mp read
    have document := (Json.ofText?_eq_some_iff text value).mp parsed
    obtain ⟨inner, spelled⟩ := Json.exists_spelled_of_element document
    obtain ⟨small, rfl⟩ := (Json.natBelow?_eq_some_iff spelled _ _).mp below
    rwa [UInt8.toNat_ofNat_of_lt' small]
  · intro document
    have small : register.index.toNat < UInt8.size := register.index.toNat_lt
    rw [Json.ofText?_of_document document, Option.bind_some, ofJson?, Json.natBelow?_ofNat small,
      Option.map_some]
    exact congrArg some (Register.eq_of_index_eq UInt8.ofNat_toNat)

end Register

namespace Instruction

theorem laidOut_iff_fits (instruction : Instruction) : instruction.LaidOut ↔ instruction.Fits := by
  constructor
  · intro laidOut
    -- What is read back from a place fits it, and it is the field itself.
    have fields := laidOut.fields
    rw [Word.unpack_eq, wordFields, Word.Fields.mk.injEq] at fields
    obtain ⟨_, first, second, low⟩ := fields
    have room : Word.lowMax = 63 := rfl
    refine ⟨?_, ?_, ?_⟩ <;> omega
  · intro fits
    have fields := unpack_word fits
    refine ⟨UInt16.toNat_inj.mp ?_, fields, Word.pairwise_parts instruction.mnemonic.opcode_lt
      fits.first fits.second fits.low⟩
    rw [UInt8.toNat_toUInt16]
    exact congrArg Word.Fields.opcode fields

theorem fits_iff {instruction : Instruction}
    (small : ∀ value ∈ instruction.value?, value.toNat ≤ Word.lowMax) :
    instruction.Fits ↔ ∀ register ∈ instruction.placedRegisters, register.Valid := by
  constructor
  · rintro ⟨first, second, low⟩
    cases instruction <;> simp_all [placedRegisters, fields, Register.valid_iff_toNat_lt]
  · intro valid
    cases instruction <;> constructor <;>
      simp_all [placedRegisters, value?, fields, Register.valid_iff_toNat_lt, Word.lowMax]

end Instruction

namespace RegisterSource

theorem sound_iff (source : RegisterSource) :
    (∀ register, source.read = some register → register.Sound) ↔ ¬source.Unchecked := by
  cases source with
  | index number =>
      refine iff_of_true (fun register made => ?_) id
      obtain ⟨_, valid⟩ := (Register.ofIndex?_eq_some_iff number register).mp made
      exact register.sound_iff_valid.mpr valid
  | token name =>
      refine iff_of_true (fun register named => ?_) id
      exact register.sound_iff_valid.mpr (Register.valid_of_ofToken?_eq_some named)
  | data text =>
      constructor
      · rintro sound ⟨number, least, small, document⟩
        have kept : number.toUInt8.toNat = number := UInt8.toNat_ofNat_of_lt' small
        have read : (data text).read = some ⟨number.toUInt8⟩ := by
          apply (Register.bind_ofText?_eq_some_iff text _).mpr
          rwa [kept]
        have valid := (Register.valid_iff_toNat_lt _).mp (sound _ read).valid
        rw [kept] at valid
        omega
      · intro checked register read
        have document := (Register.bind_ofText?_eq_some_iff text register).mp read
        rw [register.sound_iff_valid, register.valid_iff_toNat_lt]
        by_contra beyond
        exact checked ⟨_, Nat.le_of_not_lt beyond, register.index.toNat_lt, document⟩

theorem exists_checked_iff (register : Register) :
    (∃ source : RegisterSource, source.read = some register ∧ ¬source.Unchecked) ↔
      register.Valid := by
  constructor
  · rintro ⟨source, read, checked⟩
    exact ((sound_iff source).mpr checked register read).valid
  · intro valid
    exact ⟨index register.index,
      (Register.ofIndex?_eq_some_iff _ _).mpr ⟨rfl, valid⟩, id⟩

/-- A source gives only registers that the machine has and whose names it reads back, unless it is
the text of a byte beyond them. An instruction with a value that fits has its fields apart in the
word exactly if its registers can be had from other sources. -/
theorem sound_and_laidOut_iff (source : RegisterSource) (instruction : Instruction)
    (small : ∀ value ∈ instruction.value?, value.toNat ≤ 63) :
    ((∀ register, source.read = some register → register.Sound) ↔ ¬source.Unchecked) ∧
    (instruction.LaidOut ↔ ∀ register ∈ instruction.placedRegisters,
      ∃ origin : RegisterSource, origin.read = some register ∧ ¬origin.Unchecked) := by
  refine ⟨sound_iff source, ?_⟩
  rw [instruction.laidOut_iff_fits, Instruction.fits_iff small]
  simp only [exists_checked_iff]

theorem sound_and_laidOut_iff_seven :
    (∀ register, (data " 7").read = some register → register.Sound) ∧
      (Instruction.loadi ⟨7⟩ 63).LaidOut := by
  have space : Json.Spaces [' '] := List.forall_mem_singleton.mpr rfl
  have seven : Json.Document (.ofNat 7) " 7" :=
    .element space (.number (Json.numberText_decimal 7)) Json.spaces_nil
  have checked : ¬(data " 7").Unchecked := by
    rintro ⟨number, least, _, document⟩
    have same := Json.ofNat_injective (document.unique seven)
    omega
  have read := (Register.bind_ofText?_eq_some_iff " 7" ⟨7⟩).mpr seven
  have small : ∀ value ∈ (Instruction.loadi ⟨7⟩ 63).value?, value.toNat ≤ 63 := by
    rintro value ⟨⟩
    decide
  obtain ⟨sound, laidOut⟩ := sound_and_laidOut_iff (data " 7") (.loadi ⟨7⟩ 63) small
  exact ⟨sound.mpr checked, laidOut.mpr (List.forall_mem_singleton.mpr ⟨data " 7", read, checked⟩)⟩

/-- The text `8` is read as a register that the machine does not have, and `PUSH` of it has the word
of `HALT`. -/
theorem read_data_eight :
    (data "8").read = some ⟨8⟩ ∧ ¬Register.Sound ⟨8⟩ ∧
      (Instruction.push ⟨8⟩).value? = none ∧ ¬(Instruction.push ⟨8⟩).LaidOut ∧
      (Instruction.push ⟨8⟩).word = Instruction.halt.word := by
  refine ⟨rfl, ?_, rfl, ?_, rfl⟩
  · intro sound
    exact absurd sound.valid (by decide)
  · intro laidOut
    exact absurd laidOut.opcode (by decide)

end RegisterSource

end TwoPass
