import TwoPass.Json.Token
import TwoPass.Json.Writer
import TwoPass.Proofs.ImageText
import TwoPass.Proofs.LiteralGrammar

/-!
Strings in JSON text. Between its quotes a string has characters and escapes, which stand for codes;
codes are code points and halves of surrogate pairs, and spell a text unless a half stands alone.
Strings are scanned as this says, and every text is written as a string that spells it.
-/

namespace TwoPass.Json

/-- The letter after a backslash that stands for a character. -/
inductive ShortEscape : Char → Char → Prop where
  | quote : ShortEscape '"' '"'
  | backslash : ShortEscape '\\' '\\'
  | slash : ShortEscape '/' '/'
  | backspace : ShortEscape 'b' '\x08'
  | formFeed : ShortEscape 'f' '\x0c'
  | lineFeed : ShortEscape 'n' '\n'
  | carriageReturn : ShortEscape 'r' '\r'
  | tab : ShortEscape 't' '\t'

inductive Coded : List Char → List Nat → Prop where
  | nil : Coded [] []
  | plain {c : Char} {text : List Char} {codes : List Nat} (printable : 0x20 ≤ c.toNat)
      (notQuote : c ≠ '"') (notBackslash : c ≠ '\\') (later : Coded text codes) :
      Coded (c :: text) (c.toNat :: codes)
  | short {mark c : Char} {text : List Char} {codes : List Nat} (escape : ShortEscape mark c)
      (later : Coded text codes) : Coded ('\\' :: mark :: text) (c.toNat :: codes)
  | hexadecimal {digits text : List Char} {code : Nat} {codes : List Nat}
      (four : digits.length = 4) (spelled : Text.Spells 16 digits code)
      (later : Coded text codes) : Coded ('\\' :: 'u' :: (digits ++ text)) (code :: codes)

def highHalf (c : Char) : Nat :=
  0xD800 + (c.toNat - 0x10000) / 0x400

def lowHalf (c : Char) : Nat :=
  0xDC00 + (c.toNat - 0x10000) % 0x400

/-- The codes are those of a text, each character by its code point or by a surrogate pair. -/
inductive CodesOf : List Char → List Nat → Prop where
  | nil : CodesOf [] []
  | point {text : List Char} {codes : List Nat} (c : Char) (later : CodesOf text codes) :
      CodesOf (c :: text) (c.toNat :: codes)
  | pair {c : Char} {text : List Char} {codes : List Nat} (wide : 0x10000 ≤ c.toNat)
      (later : CodesOf text codes) : CodesOf (c :: text) (highHalf c :: lowHalf c :: codes)

/-- A string with its quotes, and the text that it spells if it spells one. -/
inductive StringText : Option String → List Char → Prop where
  | text {inner : List Char} {codes : List Nat} {text : String} (coded : Coded inner codes)
      (spelled : CodesOf text.toList codes) : StringText (some text) ('"' :: (inner ++ ['"']))
  | unpaired {inner : List Char} {codes : List Nat} (coded : Coded inner codes)
      (unspelled : ∀ text, ¬CodesOf text codes) : StringText none ('"' :: (inner ++ ['"']))

theorem isHighSurrogate_iff (code : Nat) :
    isHighSurrogate code = true ↔ 0xD800 ≤ code ∧ code ≤ 0xDBFF := by
  simp [isHighSurrogate]

theorem isLowSurrogate_iff (code : Nat) :
    isLowSurrogate code = true ↔ 0xDC00 ≤ code ∧ code ≤ 0xDFFF := by
  simp [isLowSurrogate]

theorem toNat_range (c : Char) :
    c.toNat < 0xD800 ∨ 0xDFFF < c.toNat ∧ c.toNat < 0x110000 :=
  c.valid

theorem addUnit_point (c : Char) (text : List Char) :
    addUnit c.toNat (some ⟨none, text⟩) = some ⟨none, c :: text⟩ := by
  have range := toNat_range c
  have high : ¬isHighSurrogate c.toNat = true := by
    rw [isHighSurrogate_iff]
    omega
  have low : ¬isLowSurrogate c.toNat = true := by
    rw [isLowSurrogate_iff]
    omega
  simp [addUnit, high, low]

theorem addUnit_low {code : Nat} (low : isLowSurrogate code = true) (text : List Char) :
    addUnit code (some ⟨none, text⟩) = some ⟨some code, text⟩ := by
  have high : ¬isHighSurrogate code = true := by
    rw [isLowSurrogate_iff] at low
    rw [isHighSurrogate_iff]
    omega
  simp [addUnit, high, low]

theorem addUnit_pair {c : Char} (wide : 0x10000 ≤ c.toNat) (text : List Char) :
    addUnit (highHalf c) (addUnit (lowHalf c) (some ⟨none, text⟩)) = some ⟨none, c :: text⟩ := by
  have range := toNat_range c
  have low : isLowSurrogate (lowHalf c) = true := by
    rw [isLowSurrogate_iff, lowHalf]
    omega
  have high : isHighSurrogate (highHalf c) = true := by
    rw [isHighSurrogate_iff, highHalf]
    omega
  have joined : 0x10000 + (highHalf c - 0xD800) * 0x400 + (lowHalf c - 0xDC00) = c.toNat := by
    rw [highHalf, lowHalf]
    omega
  rw [addUnit_low low]
  simp [addUnit, high, joined]

theorem foldr_addUnit_of_codesOf {text : List Char} {codes : List Nat}
    (spelled : CodesOf text codes) :
    codes.foldr addUnit (some ⟨none, []⟩) = some ⟨none, text⟩ := by
  induction spelled with
  | nil => rfl
  | point c later ih => rw [List.foldr_cons, ih, addUnit_point]
  | pair wide later ih => rw [List.foldr_cons, List.foldr_cons, ih, addUnit_pair wide]

/-- Codes that are read from the right are those of the text so far, after a low half if one waits
for its high half. -/
def ReadUnits (codes : List Nat) (units : Units) : Prop :=
  match units.low with
  | none => CodesOf units.text codes
  | some low => isLowSurrogate low = true ∧ ∃ rest, codes = low :: rest ∧ CodesOf units.text rest

theorem exists_pair {high low : Nat} (isHigh : isHighSurrogate high = true)
    (isLow : isLowSurrogate low = true) :
    ∃ c : Char, c = Char.ofNat (0x10000 + (high - 0xD800) * 0x400 + (low - 0xDC00)) ∧
      0x10000 ≤ c.toNat ∧ highHalf c = high ∧ lowHalf c = low := by
  rw [isHighSurrogate_iff] at isHigh
  rw [isLowSurrogate_iff] at isLow
  refine ⟨_, rfl, ?_⟩
  rw [highHalf, lowHalf, Text.toNat_ofNat (by omega)]
  omega

theorem readUnits_of_foldr {codes : List Nat} (valid : ∀ code ∈ codes, code < 0x110000)
    {units : Units} (read : codes.foldr addUnit (some ⟨none, []⟩) = some units) :
    ReadUnits codes units := by
  induction codes generalizing units with
  | nil =>
      rw [List.foldr_nil, Option.some.injEq] at read
      rw [← read]
      exact .nil
  | cons code rest ih =>
      rw [List.foldr_cons] at read
      obtain ⟨later, readLater, added⟩ := Option.bind_eq_some_iff.mp read
      have known := ih (fun code member => valid code (List.mem_cons_of_mem _ member)) readLater
      obtain ⟨waiting, text⟩ := later
      cases waiting with
      | some low =>
          -- Only a high half may stand before a low one.
          obtain ⟨isLow, others, rfl, spelled⟩ := known
          simp only [Option.ite_none_right_eq_some, Option.some.injEq] at added
          obtain ⟨isHigh, rfl⟩ := added
          obtain ⟨c, same, wide, high, low⟩ := exists_pair isHigh isLow
          have spelledPair := CodesOf.pair wide spelled
          rw [high, low, same] at spelledPair
          exact spelledPair
      | none =>
          simp only [Option.ite_none_left_eq_some] at added
          obtain ⟨notHigh, added⟩ := added
          split at added
          · rename_i isLow
            rw [Option.some.injEq] at added
            rw [← added]
            exact ⟨isLow, rest, rfl, known⟩
          · rename_i notLow
            rw [Option.some.injEq] at added
            have bound := valid code List.mem_cons_self
            rw [isHighSurrogate_iff] at notHigh
            rw [isLowSurrogate_iff] at notLow
            have point := CodesOf.point (Char.ofNat code) known
            rw [Text.toNat_ofNat (by omega)] at point
            rw [← added]
            exact point

theorem textOfUnits_eq_some_iff {codes : List Nat} (valid : ∀ code ∈ codes, code < 0x110000)
    (text : String) : textOfUnits codes = some text ↔ CodesOf text.toList codes := by
  constructor
  · intro read
    obtain ⟨units, readUnits, ended⟩ := Option.bind_eq_some_iff.mp read
    have known := readUnits_of_foldr valid readUnits
    obtain ⟨waiting, characters⟩ := units
    cases waiting with
    | some low => simp at ended
    | none =>
        simp only [Option.isSome_none, Bool.false_eq_true, if_false, Option.some.injEq] at ended
        rw [← ended, String.toList_ofList]
        exact known
  · intro spelled
    rw [textOfUnits, foldr_addUnit_of_codesOf spelled]
    simp

theorem spells_hexadecimal_lt {digits : List Char} {code : Nat} (four : digits.length = 4)
    (spelled : Text.Spells 16 digits code) : code < 0x10000 := by
  obtain ⟨_, values, pairs, rfl⟩ := spelled
  have length := pairs.length_eq
  have small : ∀ value ∈ values, value < 16 := by
    clear * - pairs
    induction pairs with
    | nil => simp
    | cons digit _ ih => simpa using ⟨digit.1, ih⟩
  have bound := Nat.ofDigits_lt_base_pow_length (by decide : 1 < 16)
    (fun value member => small value (List.mem_reverse.mp member))
  rw [List.length_reverse, ← length, four] at bound
  exact bound

theorem Coded.valid {text : List Char} {codes : List Nat} (coded : Coded text codes) :
    ∀ code ∈ codes, code < 0x110000 := by
  have point (c : Char) : c.toNat < 0x110000 := by
    have range := toNat_range c
    omega
  induction coded with
  | nil => simp
  | @plain c text codes printable notQuote notBackslash later ih =>
      simpa using ⟨point c, ih⟩
  | @short mark c text codes escape later ih => simpa using ⟨point c, ih⟩
  | hexadecimal four spelled later ih =>
      have bound := spells_hexadecimal_lt four spelled
      simpa using ⟨by omega, ih⟩

theorem foldlM_step_code (tokens : List Token) (codes : List Nat) (digits : List Char)
    (nonempty : digits ≠ []) (value : Nat) :
    digits.foldlM Scan.step ⟨tokens, .code codes digits.length value⟩ =
      (digits.foldlM
          (fun total c => (Text.digitValue? 16 c).map fun digit => 16 * total + digit) value).map
        fun code => ⟨tokens, .string (code :: codes)⟩ := by
  induction digits generalizing value with
  | nil => exact absurd rfl nonempty
  | cons c rest ih =>
      simp only [List.foldlM_cons, Scan.step]
      cases Text.digitValue? 16 c with
      | none => rfl
      | some digit =>
          cases rest with
          | nil => rfl
          | cons next others => exact ih (by simp) _

theorem foldlM_step_coded {text : List Char} {codes : List Nat} (coded : Coded text codes)
    (tokens : List Token) (before : List Nat) :
    text.foldlM Scan.step ⟨tokens, .string before⟩ =
      some ⟨tokens, .string (codes.reverse ++ before)⟩ := by
  induction coded generalizing before with
  | nil => rfl
  | @plain c text codes printable notQuote notBackslash later ih =>
      have stepped : Scan.step ⟨tokens, .string before⟩ c =
          some ⟨tokens, .string (c.toNat :: before)⟩ := by
        simp [Scan.step, notQuote, notBackslash, Nat.not_lt.mpr printable]
      rw [List.foldlM_cons, stepped, List.reverse_cons, List.append_assoc]
      exact ih (c.toNat :: before)
  | @short mark c text codes escape later ih =>
      have stepped : Scan.step ⟨tokens, .escape before⟩ mark =
          some ⟨tokens, .string (c.toNat :: before)⟩ := by
        cases escape <;> rfl
      rw [List.foldlM_cons, List.reverse_cons, List.append_assoc]
      change (mark :: text).foldlM Scan.step ⟨tokens, .escape before⟩ = _
      rw [List.foldlM_cons, stepped]
      exact ih (c.toNat :: before)
  | @hexadecimal digits text code codes four spelled later ih =>
      have read : Text.number? 16 digits = some code :=
        (Text.number?_eq_some_iff (by decide) digits code).mpr spelled
      have nonempty : digits ≠ [] := spelled.1
      rw [Text.number?, if_neg (by simpa using nonempty)] at read
      have stepped := foldlM_step_code tokens before digits nonempty 0
      rw [read, four, Option.map_some] at stepped
      change (digits ++ text).foldlM Scan.step ⟨tokens, .code before 4 0⟩ = _
      rw [List.foldlM_append, stepped, List.reverse_cons, List.append_assoc]
      exact ih (code :: before)

theorem foldlM_step_stringText {text : Option String} {spelling : List Char}
    (spelled : StringText text spelling) (tokens : List Token) :
    spelling.foldlM Scan.step ⟨tokens, .between⟩ =
      some ⟨.string text :: tokens, .between⟩ := by
  have scanned {inner : List Char} {codes : List Nat} (coded : Coded inner codes) :
      ('"' :: (inner ++ ['"'])).foldlM Scan.step ⟨tokens, .between⟩ =
        some ⟨.string (textOfUnits codes) :: tokens, .between⟩ := by
    change (inner ++ ['"']).foldlM Scan.step ⟨tokens, .string []⟩ = _
    rw [List.foldlM_append, foldlM_step_coded coded, List.append_nil]
    change some (⟨.string (textOfUnits codes.reverse.reverse) :: tokens, .between⟩ : Scan) = _
    rw [List.reverse_reverse]
  cases spelled with
  | @text inner codes text coded spelled =>
      rw [scanned coded, (textOfUnits_eq_some_iff coded.valid text).mpr spelled]
  | @unpaired inner codes coded unspelled =>
      have nothing : textOfUnits codes = none := by
        apply Option.eq_none_iff_forall_ne_some.mpr
        intro text read
        exact unspelled _ ((textOfUnits_eq_some_iff coded.valid text).mp read)
      rw [scanned coded, nothing]

theorem Coded.append {first second : List Char} {codes others : List Nat}
    (coded : Coded first codes) (later : Coded second others) :
    Coded (first ++ second) (codes ++ others) := by
  induction coded with
  | nil => exact later
  | plain printable notQuote notBackslash _ ih => exact .plain printable notQuote notBackslash ih
  | short escape _ ih => exact .short escape ih
  | hexadecimal four spelled _ ih =>
      rw [List.cons_append, List.cons_append, List.append_assoc]
      exact .hexadecimal four spelled ih

theorem Coded.stringText {inner : List Char} {codes : List Nat} (coded : Coded inner codes) :
    StringText (textOfUnits codes) ('"' :: (inner ++ ['"'])) := by
  cases read : textOfUnits codes with
  | some text => exact .text coded ((textOfUnits_eq_some_iff coded.valid text).mp read)
  | none =>
      refine .unpaired coded fun text spelled => ?_
      have spells := (textOfUnits_eq_some_iff coded.valid (String.ofList text)).mpr
        (by rwa [String.toList_ofList])
      simp [read] at spells

theorem exists_shortEscape {mark : Char} {code : Nat} (read : Scan.escapedCode? mark = some code) :
    ∃ c, ShortEscape mark c ∧ c.toNat = code := by
  unfold Scan.escapedCode? at read
  split at read
  · exact ⟨_, .quote, Option.some.inj read⟩
  · exact ⟨_, .backslash, Option.some.inj read⟩
  · exact ⟨_, .slash, Option.some.inj read⟩
  · exact ⟨_, .backspace, Option.some.inj read⟩
  · exact ⟨_, .formFeed, Option.some.inj read⟩
  · exact ⟨_, .lineFeed, Option.some.inj read⟩
  · exact ⟨_, .carriageReturn, Option.some.inj read⟩
  · exact ⟨_, .tab, Option.some.inj read⟩
  · simp at read

theorem coded_escape (c : Char) {text : List Char} {codes : List Nat} (later : Coded text codes) :
    Coded (escape c ++ text) (c.toNat :: codes) := by
  unfold escape
  split
  case h_1 => exact .short .quote later
  case h_2 => exact .short .backslash later
  case h_3 => exact .short .backspace later
  case h_4 => exact .short .formFeed later
  case h_5 => exact .short .lineFeed later
  case h_6 => exact .short .carriageReturn later
  case h_7 => exact .short .tab later
  case h_8 =>
    rename_i notQuote notBackslash _ _ _ _ _
    split
    · rename_i control
      refine .hexadecimal (by simp) ?_ later
      rw [← Text.number?_eq_some_iff (by decide)]
      apply Text.number?_map_fixedDigits _ (by decide) (by decide)
      · change c.toNat < 0x10000
        omega
      · exact fun digit small => Text.digitValue?_digitChar 16 digit small (by decide)
    · rename_i printable
      exact .plain (by omega) notQuote notBackslash later

theorem coded_flatMap_escape (text : List Char) :
    Coded (text.flatMap escape) (text.map Char.toNat) := by
  induction text with
  | nil => exact .nil
  | cons c rest ih => exact coded_escape c ih

theorem codesOf_map_toNat (text : List Char) : CodesOf text (text.map Char.toNat) := by
  induction text with
  | nil => exact .nil
  | cons c rest ih => exact .point c ih

theorem not_codesOf_high (text : List Char) : ¬CodesOf text [0xD800] := by
  intro spelled
  generalize alone : [0xD800] = codes at spelled
  cases spelled with
  | nil => simp at alone
  | point c later =>
      have range := toNat_range c
      have code := (List.cons.inj alone).1
      omega
  | pair wide later => simp at alone

theorem stringText_quote (text : Option String) : StringText text (quote text) := by
  cases text with
  | some text =>
      exact .text (coded_flatMap_escape text.toList) (codesOf_map_toNat text.toList)
  | none =>
      have spelled : Text.Spells 16 ['d', '8', '0', '0'] 0xD800 :=
        (Text.number?_eq_some_iff (by decide) _ _).mp rfl
      exact .unpaired (.hexadecimal rfl spelled .nil) not_codesOf_high

end TwoPass.Json
