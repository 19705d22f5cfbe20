import Mathlib.Data.List.Basic
import TwoPass.MemoryImage

/-!
What the text of a memory image says: how many words are cleared, and which words are stored at
which indices after that. For a memory of a known name, whatever it is, the text is read back from
the left without a doubt.
-/

namespace TwoPass

structure Store where
  index : Nat
  word : UInt16
deriving DecidableEq

structure Image where
  cleared : Nat
  stores : List Store
deriving DecidableEq

namespace Text

def takeDecimal? (text : List Char) : Option (Nat × List Char) :=
  (number? 10 (text.takeWhile Char.isDigit)).map (·, text.dropWhile Char.isDigit)

def hexCapitals : List Char :=
  ['0', '1', '2', '3', '4', '5', '6', '7', '8', '9', 'A', 'B', 'C', 'D', 'E', 'F']

def takeHexWord? (text : List Char) : Option (UInt16 × List Char) :=
  if (text.take 4).length = 4 ∧ (text.take 4).all hexCapitals.contains = true then
    (number? 16 (text.take 4)).map fun value => (value.toUInt16, text.drop 4)
  else none

theorem takeDecimal?_append (number : Nat) {c : Char} (stop : c.isDigit = false)
    (rest : List Char) :
    takeDecimal? ((decimal number).toList ++ c :: rest) = some (number, c :: rest) := by
  have digits : ∀ digit ∈ Nat.toDigits 10 number, digit.isDigit = true :=
    fun digit member => Nat.isDigit_of_mem_toDigits (by decide) (by decide) member
  rw [takeDecimal?, decimal, String.toList_ofList, List.takeWhile_append_of_pos digits,
    List.dropWhile_append_of_pos digits, List.takeWhile_cons_of_neg (by simp [stop]),
    List.dropWhile_cons_of_neg (by simp [stop]), List.append_nil,
    number?_toDigits 10 number (by decide) (by decide)]
  rfl

theorem mem_fixedDigits_lt {base width number digit : Nat} (positive : 0 < base)
    (member : digit ∈ fixedDigits base width number) : digit < base := by
  induction width generalizing number with
  | zero => simp [fixedDigits] at member
  | succ width ih =>
      rw [fixedDigits, List.mem_append, List.mem_singleton] at member
      rcases member with before | rfl
      · exact ih before
      · exact Nat.mod_lt _ positive

theorem hexCapital_spec : ∀ digit < 16, digit.digitChar.toUpper ∈ hexCapitals ∧
    digitValue? 16 digit.digitChar.toUpper = some digit := by
  decide

theorem foldlM_map_digits {base : Nat} {write : Nat → Char}
    (value : ∀ digit < base, digitValue? base (write digit) = some digit) {digits : List Nat}
    (small : ∀ digit ∈ digits, digit < base) (total : Nat) :
    (digits.map write).foldlM
        (fun total c => (digitValue? base c).map fun value => base * total + value) total =
      some (digits.foldl (fun total digit => base * total + digit) total) := by
  induction digits generalizing total with
  | nil => rfl
  | cons first rest ih =>
      have first := value first (small first List.mem_cons_self)
      simp only [List.map_cons, List.foldlM_cons, List.foldl_cons, first, Option.map_some]
      exact ih (fun digit member => small digit (List.mem_cons_of_mem _ member)) _

theorem number?_map_fixedDigits {base width number : Nat} {write : Nat → Char}
    (value : ∀ digit < base, digitValue? base (write digit) = some digit) (positive : 0 < base)
    (wide : 0 < width) (fits : number < base.pow width) :
    number? base ((fixedDigits base width number).map write) = some number := by
  have nonempty : ((fixedDigits base width number).map write).isEmpty = false := by
    rw [List.isEmpty_eq_false_iff, ← List.length_pos_iff, List.length_map, length_fixedDigits]
    exact wide
  rw [number?, nonempty, if_neg Bool.false_ne_true,
    foldlM_map_digits value fun digit member => mem_fixedDigits_lt positive member,
    foldl_fixedDigits, Nat.mod_eq_of_lt fits]

theorem number?_hexWord (word : UInt16) : number? 16 (hexWord word).toList = some word.toNat := by
  rw [hexWord, String.toList_ofList]
  exact number?_map_fixedDigits (fun digit small => (hexCapital_spec digit small).2) (by decide)
    (by decide) word.toNat_lt

theorem mem_hexCapitals_of_mem_hexWord {word : UInt16} {c : Char}
    (member : c ∈ (hexWord word).toList) : c ∈ hexCapitals := by
  rw [hexWord, String.toList_ofList] at member
  obtain ⟨digit, inside, rfl⟩ := List.mem_map.mp member
  exact (hexCapital_spec digit (mem_fixedDigits_lt (by decide) inside)).1

theorem takeHexWord?_append (word : UInt16) (rest : List Char) :
    takeHexWord? ((hexWord word).toList ++ rest) = some (word, rest) := by
  have length : (hexWord word).toList.length = 4 := by simp [hexWord]
  have capitals : (hexWord word).toList.all hexCapitals.contains = true := by
    rw [List.all_eq_true]
    intro c member
    rw [List.contains_iff_mem]
    exact mem_hexCapitals_of_mem_hexWord member
  rw [takeHexWord?, List.take_left' length, List.drop_left' length, if_pos ⟨length, capitals⟩,
    number?_hexWord, Option.map_some]
  simp

theorem length_le_of_takeDecimal? {text rest : List Char} {number : Nat}
    (taken : takeDecimal? text = some (number, rest)) : rest.length ≤ text.length := by
  obtain ⟨value, _, same⟩ := Option.map_eq_some_iff.mp taken
  rw [Prod.mk.injEq] at same
  rw [← same.2]
  exact (List.dropWhile_sublist Char.isDigit).length_le

theorem length_le_of_takeHexWord? {text rest : List Char} {word : UInt16}
    (taken : takeHexWord? text = some (word, rest)) : rest.length ≤ text.length := by
  unfold takeHexWord? at taken
  split at taken
  · obtain ⟨value, _, same⟩ := Option.map_eq_some_iff.mp taken
    rw [Prod.mk.injEq] at same
    rw [← same.2, List.length_drop]
    omega
  · simp at taken

theorem isPrefixOf?_append (part rest : List Char) :
    part.isPrefixOf? (part ++ rest) = some rest :=
  List.isPrefixOf?_eq_some_iff_append_eq.mpr rfl

theorem intercalate_cons (separator first : String) (rest : List String) :
    separator.intercalate (first :: rest) =
      first ++ String.join (rest.map (separator ++ ·)) := by
  induction rest generalizing first with
  | nil => simp
  | cons second rest ih =>
      rw [String.intercalate_cons_cons, ih, List.map_cons, String.join_cons]
      simp only [String.append_assoc]

end Text

namespace Store

def text (name : String) (store : Store) : String :=
  "\n    " ++ name ++ "[" ++ Text.decimal store.index ++ "] = 16'h" ++ Text.hexWord store.word
    ++ ";"

def read? (name : String) (text : List Char) : Option (Store × List Char) := do
  let text ← ("\n    " ++ name ++ "[").toList.isPrefixOf? text
  let (index, text) ← Text.takeDecimal? text
  let text ← "] = 16'h".toList.isPrefixOf? text
  let (word, text) ← Text.takeHexWord? text
  let text ← ";".toList.isPrefixOf? text
  return (⟨index, word⟩, text)

theorem length_lt_of_read? {name : String} {text rest : List Char} {store : Store}
    (read : read? name text = some (store, rest)) : rest.length < text.length := by
  simp only [read?, bind, Option.bind_eq_some_iff, Prod.exists,
    List.isPrefixOf?_eq_some_iff_append_eq, pure, Option.some.injEq, Prod.mk.injEq] at read
  obtain ⟨start, rfl, index, afterIndex, decimal, afterEquals, rfl, word, afterWord, hexadecimal,
    last, rfl, _, rfl⟩ := read
  have atIndex := Text.length_le_of_takeDecimal? decimal
  have atWord := Text.length_le_of_takeHexWord? hexadecimal
  simp only [List.length_append, String.length_toList] at atIndex atWord ⊢
  have closing : ";".length = 1 := rfl
  omega

theorem read?_append (name : String) (store : Store) (rest : List Char) :
    read? name ((store.text name).toList ++ rest) = some (store, rest) := by
  have split : (store.text name).toList ++ rest =
      ("\n    " ++ name ++ "[").toList ++ ((Text.decimal store.index).toList ++
        ("] = 16'h".toList ++ ((Text.hexWord store.word).toList ++ (";".toList ++ rest)))) := by
    simp only [text, String.toList_append, List.append_assoc]
  have index (rest : List Char) :
      Text.takeDecimal? ((Text.decimal store.index).toList ++ ("] = 16'h".toList ++ rest)) =
        some (store.index, "] = 16'h".toList ++ rest) :=
    Text.takeDecimal?_append store.index rfl _
  simp only [split, read?, Text.isPrefixOf?_append, index, Text.takeHexWord?_append, bind,
    Option.bind_some, pure]

def readAll? (name : String) (text : List Char) : Option (List Store) :=
  if text.isEmpty then some []
  else
    match _ : read? name text with
    | none => none
    | some (store, rest) => (readAll? name rest).map (store :: ·)
termination_by text.length
decreasing_by exact length_lt_of_read? (by assumption)

theorem readAll?_append (name : String) (store : Store) (rest : List Char) :
    readAll? name ((store.text name).toList ++ rest) =
      (readAll? name rest).map (store :: ·) := by
  have nonempty : ((store.text name).toList ++ rest).isEmpty = false := by
    simp [text]
  have first := read?_append name store rest
  rw [readAll?, nonempty, if_neg Bool.false_ne_true]
  split <;> simp_all

theorem readAll?_texts (name : String) (stores : List Store) :
    readAll? name (String.join (stores.map (text name))).toList = some stores := by
  induction stores with
  | nil =>
      rw [readAll?]
      rfl
  | cons store rest ih =>
      rw [List.map_cons, String.join_cons, String.toList_append, readAll?_append, ih,
        Option.map_some]

end Store

namespace Image

def start : String :=
  "    // Initialize all memory to 0\n    for (i = 0; i < "

def middle (name : String) : String :=
  ";" ++ " i = i + 1) begin\n        " ++ name ++ "[i] = 16'b0000000000000000;\n    end\n\n"
    ++ "    // Program instructions"

def text (name : String) (image : Image) : String :=
  start ++ Text.decimal image.cleared ++ middle name
    ++ String.join (image.stores.map (Store.text name))

def ofText? (name text : String) : Option Image := do
  let text ← start.toList.isPrefixOf? text.toList
  let (cleared, text) ← Text.takeDecimal? text
  let text ← (middle name).toList.isPrefixOf? text
  let stores ← Store.readAll? name text
  return ⟨cleared, stores⟩

theorem ofText?_text (name : String) (image : Image) :
    ofText? name (image.text name) = some image := by
  have split : (image.text name).toList =
      start.toList ++ ((Text.decimal image.cleared).toList ++ ((middle name).toList ++
        (String.join (image.stores.map (Store.text name))).toList)) := by
    simp only [text, String.toList_append, List.append_assoc]
  have cleared (rest : List Char) :
      Text.takeDecimal? ((Text.decimal image.cleared).toList ++ ((middle name).toList ++ rest)) =
        some (image.cleared, (middle name).toList ++ rest) := by
    obtain ⟨later, opened⟩ : ∃ later, (middle name).toList = ';' :: later := by
      simp only [middle, String.toList_append]
      exact ⟨_, rfl⟩
    rw [opened]
    exact Text.takeDecimal?_append image.cleared rfl _
  simp only [ofText?, split, Text.isPrefixOf?_append, cleared, Store.readAll?_texts, bind,
    Option.bind_some, pure]

end Image

def EncodedInstruction.store (instruction : EncodedInstruction) : Store :=
  ⟨instruction.address.toNat, instruction.word⟩

namespace MemoryImage

theorem store_line (config : Config) (instruction : EncodedInstruction) :
    "\n" ++ storeLine config instruction = instruction.store.text config.memoryName := by
  have margin : "\n    " = "\n" ++ "    " := rfl
  simp only [storeLine, Store.text, EncodedInstruction.store, margin, String.append_assoc]

theorem intercalate_clearLines (config : Config) (lines : List String) :
    "\n".intercalate (clearLines config ++ lines) =
      Image.start ++ Text.decimal config.memoryWords ++ Image.middle config.memoryName
        ++ String.join (lines.map ("\n" ++ ·)) := by
  have zero : Text.binaryWord 0 = "0000000000000000" := by decide
  have first : Image.start =
      "    // Initialize all memory to 0" ++ ("\n" ++ "    for (i = 0; i < ") := by
    simp [Image.start]
  have second : " i = i + 1) begin\n        " = " i = i + 1) begin" ++ ("\n" ++ "        ") := by
    simp
  have third : "[i] = 16'b0000000000000000;\n    end\n\n" =
      "[i] = 16'b" ++ (Text.binaryWord 0 ++ (";" ++ ("\n" ++ ("    end" ++ ("\n" ++ "\n"))))) := by
    simp [zero]
  have body : "; i = i + 1) begin" = ";" ++ " i = i + 1) begin" := by simp
  rw [clearLines, List.cons_append, Text.intercalate_cons]
  simp only [Image.middle, first, second, third, body, List.map_cons, List.cons_append,
    List.nil_append, String.join_cons, String.append_assoc, String.append_empty]

theorem render_eq (config : Config) (instructions : List EncodedInstruction) :
    render config instructions =
      if config.memoryWords < instructions.length then
        .error (.programTooLarge instructions.length config.memoryWords)
      else .ok (Image.text config.memoryName
        ⟨config.memoryWords, instructions.map EncodedInstruction.store⟩) := by
  rw [render, intercalate_clearLines, List.map_map, Image.text, List.map_map]
  have stores : ((fun line => "\n" ++ line) ∘ storeLine config) =
      Store.text config.memoryName ∘ EncodedInstruction.store :=
    funext (store_line config)
  rw [stores]

end MemoryImage

end TwoPass
