import TwoPass.Proofs.ImageText
import TwoPass.Proofs.SecondPass

/-!
What a memory image leaves in the memory. The image checks how many words there are and not where
they are stored; that every store is inside the memory, and no two at one index, comes from the
addresses that the first pass gave out, whatever statements the front end returned.
-/

namespace TwoPass

abbrev Memory := List UInt16

/-- There is nothing to store to beyond the memory. -/
def Store.run? (memory : Memory) (store : Store) : Option Memory :=
  if store.index < memory.length then some (memory.set store.index store.word) else none

def storesFrom (first : Nat) (words : List UInt16) : List Store :=
  (words.zipIdx first).map fun (word, index) => ⟨index, word⟩

/-- Clears the words before the stores, from index zero on. -/
def Image.run? (image : Image) (memory : Memory) : Option Memory :=
  (storesFrom 0 (List.replicate image.cleared 0) ++ image.stores).foldlM Store.run? memory

theorem index_storesFrom (first : Nat) (words : List UInt16) :
    (storesFrom first words).map Store.index = List.range' first words.length := by
  simp [storesFrom, Function.comp_def, List.zipIdx_map_snd]

theorem getElem?_storesFrom (first : Nat) (words : List UInt16) (position : Nat) :
    (storesFrom first words)[position]? =
      words[position]?.map fun word => ⟨first + position, word⟩ := by
  simp [storesFrom, List.getElem?_zipIdx, Function.comp_def]

theorem run?_storesFrom (words : List UInt16) (before after : Memory)
    (fits : words.length ≤ after.length) :
    (storesFrom before.length words).foldlM Store.run? (before ++ after) =
      some (before ++ words ++ after.drop words.length) := by
  induction words generalizing before after with
  | nil => simp [storesFrom]
  | cons word rest ih =>
      cases after with
      | nil => simp at fits
      | cons old later =>
          have inside : before.length < (before ++ old :: later).length := by simp
          have stored : (before ++ old :: later).set before.length word =
              (before ++ [word]) ++ later := by
            simp
          have next := ih (before ++ [word]) later (by simpa using fits)
          rw [List.length_append, List.length_singleton] at next
          change (Store.run? (before ++ old :: later) ⟨before.length, word⟩).bind
            ((storesFrom (before.length + 1) rest).foldlM Store.run?) = _
          rw [Store.run?, if_pos inside, stored, Option.bind_some, next]
          simp

theorem Image.run?_words {words : List UInt16} {cleared : Nat} (fits : words.length ≤ cleared)
    {memory : Memory} (large : cleared ≤ memory.length) :
    Image.run? ⟨cleared, storesFrom 0 words⟩ memory =
      some (words ++ List.replicate (cleared - words.length) 0 ++ memory.drop cleared) := by
  have clear := run?_storesFrom (List.replicate cleared 0) [] memory (by simpa using large)
  have store := run?_storesFrom words [] (List.replicate cleared 0 ++ memory.drop cleared)
    (by simp; omega)
  simp only [List.length_nil, List.nil_append, List.length_replicate] at clear store
  rw [Image.run?, List.foldlM_append, clear]
  change (storesFrom 0 words).foldlM Store.run? _ = _
  rw [store, List.drop_append_of_le_length (by simpa using fits), List.drop_replicate,
    List.append_assoc]

theorem Assembled.map_store_instructions {statements : List Statement} {program : Program}
    (assembled : Assembled statements program)
    (small : program.instructions.length < UInt32.size) :
    program.instructions.map EncodedInstruction.store = storesFrom 0 program.words := by
  apply List.ext_getElem?
  intro position
  rw [getElem?_storesFrom, Program.words, List.getElem?_map, List.getElem?_map, Option.map_map]
  cases found : program.instructions[position]? with
  | none => rfl
  | some encoded =>
      obtain ⟨_, _, address, _, _⟩ := assembled.getElem?_instructions found
      have inside := (List.getElem?_eq_some_iff.mp found).1
      have index : encoded.address.toNat = position := by
        rw [address]
        exact UInt32.toNat_ofNat_of_lt' (Nat.lt_trans inside small)
      simp [EncodedInstruction.store, index]

theorem Assembler.exists_assembled {assembler : Assembler} {source : String} {program : Program}
    (success : assembler.assemble source = .ok program) :
    ∃ statements, Assembled statements program := by
  rw [assemble_eq] at success
  obtain ⟨parsed, _, assembles⟩ := Result.exists_of_bind_eq_ok success
  have stages := assembles
  rw [assembleStatements_eq] at stages
  obtain ⟨lowered, lowers, _⟩ := Result.exists_of_bind_eq_ok stages
  exact ⟨lowered, (assembleStatements_eq_ok_iff lowers program).mp assembles⟩

/-- The text spells an image that leaves the words in the memory, zeros after them up to the size
of the memory, and what is beyond it as it was. -/
structure Initializes (config : Config) (words : List UInt16) (text : String) : Prop where
  spelled : text = Image.text config.memoryName ⟨config.memoryWords, storesFrom 0 words⟩
  read : Image.ofText? config.memoryName text = some ⟨config.memoryWords, storesFrom 0 words⟩
  inside : ∀ store ∈ storesFrom 0 words, store.index < config.memoryWords
  once : ((storesFrom 0 words).map Store.index).Nodup
  run : ∀ memory : Memory, config.memoryWords ≤ memory.length →
    Image.run? ⟨config.memoryWords, storesFrom 0 words⟩ memory =
      some (words ++ List.replicate (config.memoryWords - words.length) 0
        ++ memory.drop config.memoryWords)

theorem initializes_image (config : Config) {words : List UInt16}
    (fits : words.length ≤ config.memoryWords) :
    Initializes config words
      (Image.text config.memoryName ⟨config.memoryWords, storesFrom 0 words⟩) where
  spelled := rfl
  read := Image.ofText?_text config.memoryName _
  inside store member := by
    have index : store.index ∈ (storesFrom 0 words).map Store.index := List.mem_map_of_mem member
    rw [index_storesFrom, List.mem_range'_1] at index
    omega
  once := by
    rw [index_storesFrom]
    exact List.nodup_range'
  run memory large := Image.run?_words fits large

namespace MemoryImage

/-- The image of an assembled program is refused exactly if the memory has too few words, and
leaves the program in the memory otherwise. -/
theorem render_initializes (assembler : Assembler) (source : String) (program : Program)
    (success : assembler.assemble source = .ok program)
    (small : program.instructions.length < UInt32.size) (config : Config) :
    (∀ error, render config program.instructions = .error error ↔
      config.memoryWords < program.instructions.length ∧
        error = .programTooLarge program.instructions.length config.memoryWords) ∧
    (program.instructions.length ≤ config.memoryWords →
      ∃ text, render config program.instructions = .ok text ∧
        Initializes config program.words text) := by
  obtain ⟨statements, assembled⟩ := Assembler.exists_assembled success
  rw [render_eq, assembled.map_store_instructions small]
  have count : program.words.length = program.instructions.length := List.length_map _
  by_cases tooMany : config.memoryWords < program.instructions.length
  · rw [if_pos tooMany]
    refine ⟨fun error => ?_, fun fits => by omega⟩
    simp [tooMany, eq_comm]
  · rw [if_neg tooMany]
    refine ⟨fun error => by simp [tooMany], fun fits => ⟨_, rfl, ?_⟩⟩
    exact initializes_image config (by omega)

theorem render_initializes_bracketed_name :
    ∃ program text,
      ({ frontEnd := fun statements => .ok statements.reverse } : Assembler).assemble
        "JUMP start\nstart: LOADI R1, 10" = .ok program ∧
      render ⟨3, "m[0]"⟩ program.instructions = .ok text ∧
      Initializes ⟨3, "m[0]"⟩ [0x020A, 0xC000] text ∧
      render ⟨1, "m[0]"⟩ program.instructions = .error (.programTooLarge 2 1) := by
  have initializes := render_initializes
    { frontEnd := fun statements => .ok statements.reverse } "JUMP start\nstart: LOADI R1, 10"
    ⟨⟨[⟨"start", 0, 2⟩], by decide⟩, [⟨0, 0x020A, 2⟩, ⟨1, 0xC000, 1⟩]⟩ rfl (by decide)
  obtain ⟨text, rendered, facts⟩ := (initializes ⟨3, "m[0]"⟩).2 (by decide)
  exact ⟨_, text, rfl, rendered, facts,
    ((initializes ⟨1, "m[0]"⟩).1 (.programTooLarge 2 1)).mpr ⟨by decide, rfl⟩⟩

end MemoryImage

end TwoPass
