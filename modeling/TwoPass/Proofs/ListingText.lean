import TwoPass.Listing
import TwoPass.Proofs.ImageText
import TwoPass.Proofs.Result
import TwoPass.Text.Lines

/-!
What the text outputs say. A listing is read back line by line, and each line by its columns; an
image is read back for a memory of any name. So both texts tell which words stand at which addresses
in which order, and nothing else.
-/

namespace TwoPass

structure Listed where
  address : UInt32
  hexadecimal : UInt16
  binary : UInt16
deriving DecidableEq

namespace EncodedInstruction

def placedWord (instruction : EncodedInstruction) : UInt32 × UInt16 :=
  (instruction.address, instruction.word)

def listed (instruction : EncodedInstruction) : Listed :=
  ⟨instruction.address, instruction.word, instruction.word⟩

end EncodedInstruction

namespace Text

def takeBinaryWord? (text : List Char) : Option (UInt16 × List Char) :=
  if (text.take 16).length = 16 then
    (number? 2 (text.take 16)).map fun value => (value.toUInt16, text.drop 16)
  else none

theorem number?_binaryWord (word : UInt16) :
    number? 2 (binaryWord word).toList = some word.toNat := by
  rw [binaryWord, String.toList_ofList]
  exact number?_map_fixedDigits (fun digit small => digitValue?_digitChar 2 digit small (by decide))
    (by decide) (by decide) word.toNat_lt

theorem takeBinaryWord?_append (word : UInt16) (rest : List Char) :
    takeBinaryWord? ((binaryWord word).toList ++ rest) = some (word, rest) := by
  have length : (binaryWord word).toList.length = 16 := by simp [binaryWord]
  rw [takeBinaryWord?, List.take_left' length, List.drop_left' length, if_pos length,
    number?_binaryWord, Option.map_some]
  simp

theorem isDigit_of_mem_decimal {number : Nat} {c : Char} (member : c ∈ (decimal number).toList) :
    c.isDigit = true := by
  rw [decimal, String.toList_ofList] at member
  exact Nat.isDigit_of_mem_toDigits (by decide) (by decide) member

theorem toList_paddedDecimal (width number : Nat) :
    (paddedDecimal width number).toList =
      List.replicate (width - (decimal number).toList.length) ' ' ++ (decimal number).toList := by
  simp [paddedDecimal, decimal, List.leftpad]

theorem dropWhile_paddedDecimal (width number : Nat) (rest : List Char) :
    ((paddedDecimal width number).toList ++ rest).dropWhile (· == ' ') =
      (decimal number).toList ++ rest := by
  have spaces : ∀ c ∈ List.replicate (width - (decimal number).toList.length) ' ',
      (c == ' ') = true := by
    intro c member
    rw [List.eq_of_mem_replicate member]
    rfl
  rw [toList_paddedDecimal, List.append_assoc, List.dropWhile_append_of_pos spaces]
  cases digits : (decimal number).toList with
  | nil => simp [decimal, Nat.toDigits_ne_nil] at digits
  | cons digit later =>
      have isDigit : digit.isDigit = true := by
        apply isDigit_of_mem_decimal
        rw [digits]
        exact List.mem_cons_self
      have stops : digit ≠ ' ' := by
        rintro rfl
        exact absurd isDigit (by decide)
      simp [stops]

theorem newline_not_mem_paddedDecimal (width number : Nat) :
    '\n' ∉ (paddedDecimal width number).toList := by
  rw [toList_paddedDecimal, List.mem_append]
  rintro (space | digit)
  · exact absurd (List.eq_of_mem_replicate space) (by decide)
  · exact absurd (isDigit_of_mem_decimal digit) (by decide)

theorem newline_not_mem_hexWord (word : UInt16) : '\n' ∉ (hexWord word).toList := by
  intro member
  exact absurd (mem_hexCapitals_of_mem_hexWord member) (by decide)

theorem newline_not_mem_binaryWord (word : UInt16) : '\n' ∉ (binaryWord word).toList := by
  rw [binaryWord, String.toList_ofList, List.mem_map]
  rintro ⟨digit, inside, same⟩
  have small := mem_fixedDigits_lt (by decide) inside
  have cases : ∀ digit < 2, digit.digitChar ≠ '\n' := by decide
  exact cases digit small same

theorem pieces_ended_lines {lines : List (List Char)} (unbroken : ∀ line ∈ lines, '\n' ∉ line) :
    pieces (lines.flatMap (· ++ ['\n'])) = lines ++ [[]] := by
  induction lines with
  | nil => rfl
  | cons first rest ih =>
      have tail := ih fun line member => unbroken line (List.mem_cons_of_mem _ member)
      rw [List.flatMap_cons, List.append_assoc, List.singleton_append, pieces_append_newline,
        pieces_of_no_newline first (unbroken first List.mem_cons_self), tail]
      rfl

end Text

namespace Listed

def ofLine? (line : List Char) : Option Listed := do
  let line ← "  ".toList.isPrefixOf? line
  let (address, line) ← Text.takeDecimal? (line.dropWhile (· == ' '))
  let line ← ": 0x".toList.isPrefixOf? line
  let (hexadecimal, line) ← Text.takeHexWord? line
  let line ← " (".toList.isPrefixOf? line
  let (binary, line) ← Text.takeBinaryWord? line
  if line = [')'] ∧ address < UInt32.size then
    return ⟨address.toUInt32, hexadecimal, binary⟩
  else none

def ofListing? (listing : String) : Option (List Listed) :=
  match Text.pieces listing.toList with
  | heading :: rest =>
      if heading = "Assembled instructions:".toList ∧ rest.getLast? = some [] then
        rest.dropLast.mapM ofLine?
      else none
  | [] => none

end Listed

namespace EncodedInstruction

def columns (instruction : EncodedInstruction) : List Char :=
  "  ".toList ++ ((Text.paddedDecimal 3 instruction.address.toNat).toList ++
    (": 0x".toList ++ ((Text.hexWord instruction.word).toList ++
      (" (".toList ++ ((Text.binaryWord instruction.word).toList ++ [')'])))))

theorem toList_listingLine (instruction : EncodedInstruction) :
    instruction.listingLine.toList = instruction.columns ++ ['\n'] := by
  simp [listingLine, columns, String.toList_append]

theorem newline_not_mem_columns (instruction : EncodedInstruction) :
    '\n' ∉ instruction.columns := by
  simp [columns, Text.newline_not_mem_paddedDecimal, Text.newline_not_mem_hexWord,
    Text.newline_not_mem_binaryWord]

theorem ofLine?_columns (instruction : EncodedInstruction) :
    Listed.ofLine? instruction.columns = some instruction.listed := by
  have address (rest : List Char) :
      Text.takeDecimal? ((Text.decimal instruction.address.toNat).toList ++
          (": 0x".toList ++ rest)) =
        some (instruction.address.toNat, ": 0x".toList ++ rest) :=
    Text.takeDecimal?_append instruction.address.toNat rfl _
  have small : instruction.address.toNat < UInt32.size := instruction.address.toNat_lt
  simp only [columns, Listed.ofLine?, Text.isPrefixOf?_append, Text.dropWhile_paddedDecimal,
    address, Text.takeHexWord?_append, Text.takeBinaryWord?_append, bind, Option.bind_some, pure,
    small, and_self, if_true, Nat.toUInt32_eq, UInt32.ofNat_toNat, listed]

end EncodedInstruction

namespace Program

theorem toList_listing (instructions : List EncodedInstruction) :
    (listing instructions).toList =
      ("Assembled instructions:".toList :: instructions.map EncodedInstruction.columns).flatMap
        (· ++ ['\n']) := by
  have lines : (instructions.map EncodedInstruction.listingLine).map String.toList =
      (instructions.map EncodedInstruction.columns).map (· ++ ['\n']) := by
    simp [EncodedInstruction.toList_listingLine]
  rw [listing, String.join_cons, String.toList_append, String.toList_join, List.flatMap_cons,
    List.flatMap_def, lines, List.flatMap_def]
  rfl

theorem ofListing?_listing (instructions : List EncodedInstruction) :
    Listed.ofListing? (listing instructions) =
      some (instructions.map EncodedInstruction.listed) := by
  have unbroken : ∀ line ∈
      "Assembled instructions:".toList :: instructions.map EncodedInstruction.columns,
      '\n' ∉ line := by
    intro line member
    rcases List.mem_cons.mp member with rfl | inside
    · decide
    · obtain ⟨instruction, _, rfl⟩ := List.mem_map.mp inside
      exact instruction.newline_not_mem_columns
  have lines := Result.mapM_map_eq_some fun instruction (_ : instruction ∈ instructions) =>
    instruction.ofLine?_columns
  rw [Listed.ofListing?, toList_listing, Text.pieces_ended_lines unbroken]
  simpa using lines

theorem listing_eq_iff (left right : List EncodedInstruction) :
    listing left = listing right ↔
      left.map EncodedInstruction.placedWord = right.map EncodedInstruction.placedWord := by
  constructor
  · intro same
    have columns := congrArg Listed.ofListing? same
    rw [ofListing?_listing, ofListing?_listing, Option.some.injEq] at columns
    have pairs := congrArg (List.map fun line => (line.address, line.hexadecimal)) columns
    rwa [List.map_map, List.map_map] at pairs
  · intro same
    have lines (instructions : List EncodedInstruction) :
        instructions.map EncodedInstruction.listingLine =
          (instructions.map EncodedInstruction.placedWord).map fun (address, word) =>
            EncodedInstruction.listingLine ⟨address, word, 0⟩ := by
      rw [List.map_map]
      rfl
    rw [listing, listing, lines, lines, same]

end Program

namespace MemoryImage

theorem map_store_eq_iff (left right : List EncodedInstruction) :
    left.map EncodedInstruction.store = right.map EncodedInstruction.store ↔
      left.map EncodedInstruction.placedWord = right.map EncodedInstruction.placedWord := by
  have injective : Function.Injective fun pair : UInt32 × UInt16 =>
      (⟨pair.1.toNat, pair.2⟩ : Store) := by
    rintro ⟨address, word⟩ ⟨otherAddress, otherWord⟩ same
    simp only [Store.mk.injEq, UInt32.toNat_inj] at same
    rw [same.1, same.2]
  have stores : EncodedInstruction.store =
      (fun pair : UInt32 × UInt16 => (⟨pair.1.toNat, pair.2⟩ : Store)) ∘
        EncodedInstruction.placedWord :=
    rfl
  rw [stores, ← List.map_map, ← List.map_map, (List.map_injective_iff.mpr injective).eq_iff]

theorem ofText?_of_render {config : Config} {instructions : List EncodedInstruction} {text : String}
    (rendered : render config instructions = .ok text) :
    Image.ofText? config.memoryName text =
      some ⟨config.memoryWords, instructions.map EncodedInstruction.store⟩ := by
  rw [render_eq] at rendered
  split at rendered
  · simp at rendered
  · rw [← Except.ok.inj rendered, Image.ofText?_text]

theorem render_eq_iff {config : Config} {left right : List EncodedInstruction}
    {leftText rightText : String} (leftRendered : render config left = .ok leftText)
    (rightRendered : render config right = .ok rightText) :
    leftText = rightText ↔
      left.map EncodedInstruction.placedWord = right.map EncodedInstruction.placedWord := by
  rw [← map_store_eq_iff]
  constructor
  · rintro rfl
    have stores := (ofText?_of_render leftRendered).symm.trans (ofText?_of_render rightRendered)
    rw [Option.some.injEq, Image.mk.injEq] at stores
    exact stores.2
  · intro same
    have count : left.length = right.length := by simpa using congrArg List.length same
    rw [render_eq, same, count, ← render_eq, rightRendered, Except.ok.injEq] at leftRendered
    exact leftRendered.symm

end MemoryImage

/-- The text outputs are read back: a listing to the address and the word in each of its lines,
where both columns of the word agree, and an image to its stores. -/
theorem text_outputs_lossless :
    (∀ instructions, Listed.ofListing? (Program.listing instructions) =
      some (instructions.map EncodedInstruction.listed)) ∧
    (∀ left right, Program.listing left = Program.listing right ↔
      left.map EncodedInstruction.placedWord = right.map EncodedInstruction.placedWord) ∧
    ∀ config left right leftText rightText,
      MemoryImage.render config left = .ok leftText →
      MemoryImage.render config right = .ok rightText →
      Image.ofText? config.memoryName leftText =
          some ⟨config.memoryWords, left.map EncodedInstruction.store⟩ ∧
        (leftText = rightText ↔
          left.map EncodedInstruction.placedWord = right.map EncodedInstruction.placedWord) := by
  refine ⟨Program.ofListing?_listing, Program.listing_eq_iff, ?_⟩
  intro config left right leftText rightText leftRendered rightRendered
  exact ⟨MemoryImage.ofText?_of_render leftRendered,
    MemoryImage.render_eq_iff leftRendered rightRendered⟩

theorem text_outputs_lossless_name_like_store :
    ∃ leftText rightText,
      MemoryImage.render ⟨2, "m[1] = 16'h0000;\n    m"⟩ [⟨1000, 7, 1⟩, ⟨1000, 7, 2⟩] =
        .ok leftText ∧
      MemoryImage.render ⟨2, "m[1] = 16'h0000;\n    m"⟩ [⟨100, 7, 1⟩] = .ok rightText ∧
      Image.ofText? "m[1] = 16'h0000;\n    m" leftText = some ⟨2, [⟨1000, 7⟩, ⟨1000, 7⟩]⟩ ∧
      leftText ≠ rightText := by
  obtain ⟨_, _, images⟩ := text_outputs_lossless
  obtain ⟨read, same⟩ := images ⟨2, "m[1] = 16'h0000;\n    m"⟩ [⟨1000, 7, 1⟩, ⟨1000, 7, 2⟩]
    [⟨100, 7, 1⟩] _ _ rfl rfl
  exact ⟨_, _, rfl, rfl, read, fun equal => absurd (same.mp equal) (by decide)⟩

end TwoPass
