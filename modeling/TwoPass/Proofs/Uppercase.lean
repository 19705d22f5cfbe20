import TwoPass.Text.Uppercase
import TwoPass.Text.Words

/-!
What capital letters are not. No capital form has a capital form other than itself, and none of them
separates words or ends a part of a line. Both are facts about the table of case runs; they are
checked at once for all codes, with a set of codes as the bits of a number.
-/

namespace TwoPass.Text

def codeSet (codes : List Nat) : Nat :=
  codes.foldr (fun code set => set ||| 1 <<< code) 0

theorem testBit_codeSet_iff (codes : List Nat) (code : Nat) :
    (codeSet codes).testBit code = true ↔ code ∈ codes := by
  induction codes with
  | nil => simp [codeSet]
  | cons head tail ih =>
      change (codeSet tail ||| 1 <<< head).testBit code = true ↔ _
      rw [Nat.testBit_or, Nat.one_shiftLeft, Nat.testBit_two_pow, Bool.or_eq_true, ih,
        decide_eq_true_eq, List.mem_cons, or_comm, eq_comm]

theorem not_mem_of_codeSet_disjoint {codes others : List Nat}
    (disjoint : codeSet codes &&& codeSet others = 0) {code : Nat} (member : code ∈ others) :
    code ∉ codes := by
  intro inside
  have both : (codeSet codes &&& codeSet others).testBit code = true := by
    rw [Nat.testBit_and, (testBit_codeSet_iff codes code).mpr inside,
      (testBit_codeSet_iff others code).mpr member]
    rfl
  rw [disjoint] at both
  simp at both

def CaseRun.size (run : CaseRun) : Nat :=
  (run.last - run.first) / run.stride + 1

def letterCodes : List Nat :=
  caseRuns.flatMap fun run => List.range' run.first run.size run.stride

def capitalCodes : List Nat :=
  caseRuns.flatMap fun run =>
    List.range' run.capital run.size run.stride ++ run.tail.map Char.toNat

def markCodes : List Nat :=
  [','.toNat, ':'.toNat, ';'.toNat] ++
    blankRanges.flatMap fun range => List.range' range.1 (range.2 + 1 - range.1)

theorem capitalCodes_disjoint :
    codeSet (letterCodes ++ markCodes) &&& codeSet capitalCodes = 0 := by
  decide +kernel

theorem capitalCodes_valid : ∀ code ∈ capitalCodes, code.isValidChar := by
  have checked : (capitalCodes.all fun code =>
      code.blt 0xD800 || Nat.blt 0xDFFF code && code.blt 0x110000) = true := by
    decide +kernel
  intro code member
  have valid := List.all_eq_true.mp checked code member
  simpa [Nat.isValidChar] using valid

theorem CaseRun.exists_of_covers {run : CaseRun} {code : Nat} (covers : run.covers code = true) :
    ∃ index < run.size, code = run.first + run.stride * index := by
  simp only [CaseRun.covers, Bool.and_eq_true, Nat.ble_eq, Nat.beq_eq] at covers
  obtain ⟨⟨lower, upper⟩, aligned⟩ := covers
  have split := Nat.div_add_mod (code - run.first) run.stride
  have below : (code - run.first) / run.stride ≤ (run.last - run.first) / run.stride :=
    Nat.div_le_div_right (by omega)
  exact ⟨(code - run.first) / run.stride, Nat.lt_succ_of_le below, by omega⟩

theorem capitals_of_not_mem {c : Char} (plain : c.toNat ∉ letterCodes) : capitals c = [c] := by
  unfold capitals
  cases found : caseRuns.find? (·.covers c.toNat) with
  | none => rfl
  | some run =>
      have covers := List.find?_some found
      obtain ⟨index, below, code⟩ := CaseRun.exists_of_covers covers
      have letter : c.toNat ∈ letterCodes :=
        List.mem_flatMap.mpr ⟨run, List.mem_of_find?_eq_some found,
          List.mem_range'.mpr ⟨index, below, code⟩⟩
      exact absurd letter plain

theorem mem_capitals_cases {c d : Char} (member : d ∈ capitals c) :
    d = c ∧ capitals c = [c] ∨ d.toNat ∈ capitalCodes := by
  cases found : caseRuns.find? (·.covers c.toNat) with
  | none =>
      left
      have same : capitals c = [c] := by simp [capitals, found]
      rw [same, List.mem_singleton] at member
      exact ⟨member, same⟩
  | some run =>
      right
      have known := List.mem_of_find?_eq_some found
      have covers := List.find?_some found
      obtain ⟨index, below, code⟩ := CaseRun.exists_of_covers covers
      have image : capitals c = run.image c.toNat := by simp [capitals, found]
      rw [image, CaseRun.image, List.mem_cons] at member
      rcases member with rfl | inTail
      · have capital : run.capital + (c.toNat - run.first) ∈ capitalCodes := by
          refine List.mem_flatMap.mpr ⟨run, known, List.mem_append_left _ ?_⟩
          exact List.mem_range'.mpr ⟨index, below, by omega⟩
        rw [toNat_ofNat (capitalCodes_valid _ capital)]
        exact capital
      · exact List.mem_flatMap.mpr
          ⟨run, known, List.mem_append_right _ (List.mem_map_of_mem inTail)⟩

theorem capitals_of_mem_capitals {c d : Char} (member : d ∈ capitals c) : capitals d = [d] := by
  rcases mem_capitals_cases member with ⟨rfl, same⟩ | capital
  · exact same
  · have apart := not_mem_of_codeSet_disjoint capitalCodes_disjoint capital
    rw [List.mem_append, not_or] at apart
    exact capitals_of_not_mem apart.1

theorem uppercase_of_capitals_eq {text : List Char} (fixed : ∀ c ∈ text, capitals c = [c]) :
    uppercase text = text := by
  induction text with
  | nil => rfl
  | cons head tail ih =>
      have rest := ih fun c member => fixed c (List.mem_cons_of_mem _ member)
      rw [uppercase, List.flatMap_cons, fixed head List.mem_cons_self]
      exact congrArg (head :: ·) rest

theorem uppercase_uppercase (text : List Char) : uppercase (uppercase text) = uppercase text := by
  apply uppercase_of_capitals_eq
  intro d member
  obtain ⟨c, _, inCapitals⟩ := List.mem_flatMap.mp member
  exact capitals_of_mem_capitals inCapitals

theorem uppercase_ne_nil {text : List Char} (nonempty : text ≠ []) : uppercase text ≠ [] := by
  cases text with
  | nil => exact absurd rfl nonempty
  | cons head tail =>
      have capital : capitals head ≠ [] := by
        unfold capitals
        split <;> simp [CaseRun.image]
      simp [uppercase, capital]

theorem toNat_mem_markCodes {c : Char} (mark : isSeparator c = true ∨ c = ':' ∨ c = ';') :
    c.toNat ∈ markCodes := by
  rcases mark with separator | rfl | rfl
  · simp only [isSeparator, Bool.or_eq_true, beq_iff_eq] at separator
    rcases separator with rfl | blank
    · exact List.mem_append_left _ (by decide)
    · obtain ⟨range, known, inside⟩ := List.any_eq_true.mp blank
      simp only [Bool.and_eq_true, Nat.ble_eq] at inside
      refine List.mem_append_right _ (List.mem_flatMap.mpr ⟨range, known, ?_⟩)
      exact List.mem_range'.mpr ⟨c.toNat - range.1, by omega, by omega⟩
  · exact List.mem_append_left _ (by decide)
  · exact List.mem_append_left _ (by decide)

theorem mem_of_mem_uppercase {text : List Char} {c : Char}
    (mark : isSeparator c = true ∨ c = ':' ∨ c = ';') (member : c ∈ uppercase text) : c ∈ text := by
  obtain ⟨letter, inText, inCapitals⟩ := List.mem_flatMap.mp member
  rcases mem_capitals_cases inCapitals with ⟨rfl, _⟩ | capital
  · exact inText
  · have apart := not_mem_of_codeSet_disjoint capitalCodes_disjoint capital
    exact absurd (List.mem_append_right _ (toNat_mem_markCodes mark)) apart

end TwoPass.Text
