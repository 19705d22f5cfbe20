import Mathlib.Data.List.Forall2
import Mathlib.Data.Nat.Digits.Defs
import TwoPass.Literal
import TwoPass.Proofs.TextShape

/-!
The grammar of literals and the numbers that they denote. A numeral has the value of its digits by
their places, and is read up to the greatest signed integer of 64 bits, so its negation is such an
integer too and the least one is never read.
-/

namespace TwoPass

namespace Text

def IsDigit (base : Nat) (c : Char) (value : Nat) : Prop :=
  value < base ∧ (c = value.digitChar ∨ c = value.digitChar.toUpper)

/-- The digits spell a number, the digit of the highest place first. -/
def Spells (base : Nat) (digits : List Char) (number : Nat) : Prop :=
  digits ≠ [] ∧ ∃ values, List.Forall₂ (IsDigit base) digits values ∧
    number = Nat.ofDigits base values.reverse

end Text

namespace Literal

inductive Body : List Char → List Char → Prop where
  | bracketed {inner body : List Char} (trimmed : Text.Trimmed inner body) :
      Body ('[' :: (inner ++ [']'])) body
  | bare {token : List Char} (unbracketed : ∀ inner, token ≠ '[' :: (inner ++ [']'])) :
      Body token token

inductive Marks : Char → Nat → Prop where
  | lowerX : Marks 'x' 16
  | upperX : Marks 'X' 16
  | lowerB : Marks 'b' 2
  | upperB : Marks 'B' 2

inductive Numeral : List Char → Nat → Prop where
  | marked {mark : Char} {base number : Nat} {digits : List Char} (marks : Marks mark base)
      (spelled : Text.Spells base digits number) : Numeral ('0' :: mark :: digits) number
  | decimal {digits : List Char} {number : Nat} (spelled : Text.Spells 10 digits number) :
      Numeral digits number

inductive Denotes : List Char → Int → Prop where
  | negative {numeral : List Char} {magnitude : Nat} (spelled : Numeral numeral magnitude)
      (fits : magnitude ≤ 2 ^ 63 - 1) : Denotes ('-' :: numeral) (-magnitude)
  | plain {numeral : List Char} {magnitude : Nat} (spelled : Numeral numeral magnitude)
      (fits : magnitude ≤ 2 ^ 63 - 1) : Denotes numeral magnitude

def sign (value : Int) : List Char :=
  if value < 0 then ['-'] else []

inductive Spelling (value : Int) : List Char → Prop where
  | decimal : Spelling value (sign value ++ Nat.toDigits 10 value.natAbs)
  | marked {mark : Char} {base : Nat} {digits : List Char} (marks : Marks mark base)
      (cased : List.Forall₂ (fun digit c => c = digit ∨ c = digit.toUpper)
        (Nat.toDigits base value.natAbs) digits) :
      Spelling value (sign value ++ '0' :: mark :: digits)

structure ReadByGrammar (token : String) (result : Option Int) : Prop where
  value : ∀ value, result = some value ↔ ∃ body, Body token.toList body ∧ Denotes body value
  bounded : ∀ value, result = some value → -(2 ^ 63 - 1) ≤ value ∧ value ≤ 2 ^ 63 - 1
  spelling : ∀ value text, Spelling value text → value.natAbs ≤ 2 ^ 63 - 1 →
    token.toList = text ∨ token.toList = '[' :: (text ++ [']']) → result = some value

end Literal

namespace Text

theorem foldlM_digitValue?_eq_some_iff {base : Nat} (bound : base ≤ 16) (digits : List Char)
    (total number : Nat) :
    digits.foldlM (fun total c => (digitValue? base c).map fun value => base * total + value)
        total = some number ↔
      ∃ values, List.Forall₂ (IsDigit base) digits values ∧
        number = base ^ digits.length * total + Nat.ofDigits base values.reverse := by
  -- The digits on the left are in `total` already, so it varies along the induction.
  induction digits generalizing total with
  | nil => simp [eq_comm]
  | cons c rest ih =>
      rw [List.foldlM_cons]
      constructor
      · intro read
        obtain ⟨next, first, later⟩ := Option.bind_eq_some_iff.mp read
        obtain ⟨value, digit, rfl⟩ := Option.map_eq_some_iff.mp first
        obtain ⟨values, spelled, rfl⟩ := (ih _).mp later
        rw [digitValue?_eq_some_iff bound] at digit
        refine ⟨value :: values, .cons digit spelled, ?_⟩
        rw [Nat.ofDigits_reverse_cons, ← spelled.length_eq, List.length_cons]
        ring
      · rintro ⟨values, spelled, rfl⟩
        cases spelled with
        | @cons _ value _ values digit spelled =>
            have first := (digitValue?_eq_some_iff bound c value).mpr digit
            refine Option.bind_eq_some_iff.mpr ⟨base * total + value, by rw [first]; rfl, ?_⟩
            refine (ih _).mpr ⟨values, spelled, ?_⟩
            rw [Nat.ofDigits_reverse_cons, ← spelled.length_eq, List.length_cons]
            ring

theorem number?_eq_some_iff {base : Nat} (bound : base ≤ 16) (digits : List Char) (number : Nat) :
    number? base digits = some number ↔ Spells base digits number := by
  unfold number? Spells
  by_cases empty : digits = []
  · simp [empty]
  · rw [if_neg (by simpa using empty), foldlM_digitValue?_eq_some_iff bound]
    simp [empty]

theorem not_isDigit {base : Nat} (bound : base ≤ 16) {c : Char} (unread : digitValue? base c = none)
    (value : Nat) : ¬IsDigit base c value := by
  intro digit
  rw [IsDigit, ← digitValue?_eq_some_iff bound, unread] at digit
  simp at digit

namespace IsDigit

variable {base : Nat} {c : Char} {value : Nat}

theorem isBlank_eq_false (bound : base ≤ 16) (digit : IsDigit base c value) :
    isBlank c = false := by
  have letters : ∀ value < 16,
      isBlank value.digitChar = false ∧ isBlank value.digitChar.toUpper = false := by
    decide
  obtain ⟨lower, upper⟩ := letters value (Nat.lt_of_lt_of_le digit.1 bound)
  rcases digit.2 with rfl | rfl
  · exact lower
  · exact upper

theorem toUpper (bound : base ≤ 16) (digit : IsDigit base c value) :
    IsDigit base c.toUpper value := by
  have twice : ∀ value < 16, value.digitChar.toUpper.toUpper = value.digitChar.toUpper := by
    decide
  refine ⟨digit.1, .inr ?_⟩
  rcases digit.2 with rfl | rfl
  · rfl
  · exact twice value (Nat.lt_of_lt_of_le digit.1 bound)

end IsDigit

namespace Spells

variable {base : Nat} {digits : List Char} {number : Nat}

theorem exists_isDigit (spelled : Spells base digits number) :
    ∀ c ∈ digits, ∃ value, IsDigit base c value := by
  obtain ⟨_, values, pairs, _⟩ := spelled
  clear * - pairs
  induction pairs with
  | nil => simp
  | cons digit _ ih =>
      intro c member
      rcases List.mem_cons.mp member with rfl | later
      · exact ⟨_, digit⟩
      · exact ih c later

theorem isBlank_eq_false (bound : base ≤ 16) (spelled : Spells base digits number) :
    ∀ c ∈ digits, isBlank c = false := by
  intro c member
  obtain ⟨value, digit⟩ := spelled.exists_isDigit c member
  exact digit.isBlank_eq_false bound

theorem of_toDigits (base number : Nat) (lower : 1 < base) (upper : base ≤ 16) :
    Spells base (Nat.toDigits base number) number :=
  (number?_eq_some_iff upper _ number).mp (number?_toDigits base number lower upper)

theorem of_toUpper (bound : base ≤ 16) (spelled : Spells base digits number) {other : List Char}
    (cased : List.Forall₂ (fun digit c => c = digit ∨ c = digit.toUpper) digits other) :
    Spells base other number := by
  obtain ⟨nonempty, values, pairs, rfl⟩ := spelled
  refine ⟨?_, values, ?_, rfl⟩
  · rintro rfl
    exact nonempty (List.forall₂_nil_right_iff.mp cased)
  · clear nonempty
    induction cased generalizing values with
    | nil => exact pairs
    | cons same _ ih =>
        cases pairs with
        | cons digit pairs =>
            refine .cons ?_ (ih _ pairs)
            rcases same with rfl | rfl
            · exact digit
            · exact digit.toUpper bound

end Spells

end Text

namespace Literal

theorem body_of_brackets (inner : List Char) :
    body ('[' :: (inner ++ [']'])) = Text.trim inner := by
  simp [body]

theorem body_of_unbracketed {token : List Char}
    (unbracketed : ∀ inner, token ≠ '[' :: (inner ++ [']'])) : body token = token := by
  unfold body
  split
  · rename_i rest
    rw [if_neg]
    intro closed
    apply unbracketed rest.dropLast
    rw [List.dropLast_append_getLast? ']' closed]
  · rfl

theorem body_eq_iff (token text : List Char) : body token = text ↔ Body token text := by
  constructor
  · rintro rfl
    by_cases bracketed : ∃ inner, token = '[' :: (inner ++ [']'])
    · obtain ⟨inner, rfl⟩ := bracketed
      rw [body_of_brackets]
      exact .bracketed ((Text.trim_eq_iff inner _).mp rfl)
    · have unbracketed := not_exists.mp bracketed
      rw [body_of_unbracketed unbracketed]
      exact .bare unbracketed
  · intro said
    cases said with
    | bracketed trimmed =>
        rw [body_of_brackets]
        exact (Text.trim_eq_iff _ text).mpr trimmed
    | bare unbracketed => exact body_of_unbracketed unbracketed

namespace Marks

variable {mark : Char} {base : Nat}

theorem one_lt (marks : Marks mark base) : 1 < base := by
  cases marks <;> decide

theorem le (marks : Marks mark base) : base ≤ 16 := by
  cases marks <;> decide

theorem isBlank_eq_false (marks : Marks mark base) : Text.isBlank mark = false := by
  cases marks <;> rfl

theorem not_isDigit (marks : Marks mark base) (value : Nat) : ¬Text.IsDigit 10 mark value := by
  apply Text.not_isDigit (by decide)
  cases marks <;> rfl

theorem base_unique (marks : Marks mark base) {other : Nat} (again : Marks mark other) :
    base = other := by
  cases marks <;> cases again <;> rfl

end Marks

namespace Numeral

variable {numeral : List Char} {number : Nat}

theorem exists_isDigit_head {c : Char} {rest : List Char} (spelled : Numeral (c :: rest) number) :
    ∃ value, Text.IsDigit 10 c value := by
  cases spelled with
  | marked => exact ⟨0, by decide, .inl rfl⟩
  | decimal spelled => exact spelled.exists_isDigit c List.mem_cons_self

theorem isBlank_eq_false (spelled : Numeral numeral number) :
    ∀ c ∈ numeral, Text.isBlank c = false := by
  cases spelled with
  | marked marks spelled =>
      refine List.forall_mem_cons.mpr ⟨rfl, List.forall_mem_cons.mpr ⟨?_, ?_⟩⟩
      · exact marks.isBlank_eq_false
      · exact spelled.isBlank_eq_false marks.le
  | decimal spelled => exact spelled.isBlank_eq_false (by decide)

theorem iff_of_marks {mark : Char} {base : Nat} (marks : Marks mark base) (digits : List Char)
    (number : Nat) : Numeral ('0' :: mark :: digits) number ↔ Text.Spells base digits number := by
  constructor
  · intro spelled
    cases spelled with
    | marked again spelled => exact marks.base_unique again ▸ spelled
    | decimal spelled =>
        obtain ⟨value, digit⟩ := spelled.exists_isDigit mark (by simp)
        exact absurd digit (marks.not_isDigit value)
  · exact .marked marks

theorem iff_of_unmarked
    (unmarked : ∀ mark base digits, Marks mark base → numeral ≠ '0' :: mark :: digits)
    (number : Nat) : Numeral numeral number ↔ Text.Spells 10 numeral number := by
  constructor
  · intro spelled
    cases spelled with
    | marked marks _ => exact absurd rfl (unmarked _ _ _ marks)
    | decimal spelled => exact spelled
  · exact .decimal

end Numeral

/-- A number that starts with a digit has no sign of its own, so its digits are all there is. -/
theorem unsigned?_eq_some_iff (base : Nat) (text : List Char) (value : Int) :
    unsigned? base text = some value ↔
      ∃ magnitude : Nat, Text.number? base text = some magnitude ∧ magnitude ≤ 2 ^ 63 - 1 ∧
        (magnitude : Int) = value := by
  cases text with
  | nil => simp [unsigned?, Text.number?]
  | cons c rest =>
      cases digit : Text.digitValue? base c with
      | none => simp [unsigned?, Text.number?, digit]
      | some first =>
          have notMinus : c ≠ '-' := by
            rintro rfl
            simp [Text.digitValue?] at digit
          have notPlus : c ≠ '+' := by
            rintro rfl
            simp [Text.digitValue?] at digit
          have least : Int64.minValue.toInt = -2 ^ 63 := by decide
          have greatest : Int64.maxValue.toInt = 2 ^ 63 - 1 := by decide
          have bare : integer? base (c :: rest) =
              ((Text.number? base (c :: rest)).map fun number : Nat => (number : Int)).filter
                fun value => Int64.minValue.toInt ≤ value ∧ value ≤ Int64.maxValue.toInt := by
            unfold integer?
            split
            · rename_i same
              exact absurd (List.cons.inj same).1 notMinus
            · rename_i same
              exact absurd (List.cons.inj same).1 notPlus
            · rfl
          simp only [unsigned?, List.head?_cons, Option.bind_some, digit, bare, least, greatest,
            Option.filter_eq_some_iff, decide_eq_true_eq, Option.map_eq_some_iff]
          constructor
          · rintro ⟨⟨magnitude, read, rfl⟩, _, fits⟩
            exact ⟨magnitude, read, by omega, rfl⟩
          · rintro ⟨magnitude, read, fits, rfl⟩
            exact ⟨⟨magnitude, read, rfl⟩, by omega, by omega⟩

theorem magnitude?_eq_some_iff (numeral : List Char) (value : Int) :
    magnitude? numeral = some value ↔
      ∃ magnitude : Nat, Numeral numeral magnitude ∧ magnitude ≤ 2 ^ 63 - 1 ∧
        (magnitude : Int) = value := by
  unfold magnitude?
  split
  · simp only [unsigned?_eq_some_iff, Numeral.iff_of_marks .lowerX,
      Text.number?_eq_some_iff (by decide : 16 ≤ 16)]
  · simp only [unsigned?_eq_some_iff, Numeral.iff_of_marks .upperX,
      Text.number?_eq_some_iff (by decide : 16 ≤ 16)]
  · simp only [unsigned?_eq_some_iff, Numeral.iff_of_marks .lowerB,
      Text.number?_eq_some_iff (by decide : 2 ≤ 16)]
  · simp only [unsigned?_eq_some_iff, Numeral.iff_of_marks .upperB,
      Text.number?_eq_some_iff (by decide : 2 ≤ 16)]
  · rename_i lowerX upperX lowerB upperB
    have unmarked : ∀ mark base digits, Marks mark base → numeral ≠ '0' :: mark :: digits := by
      intro mark base digits marks
      cases marks with
      | lowerX => exact lowerX digits
      | upperX => exact upperX digits
      | lowerB => exact lowerB digits
      | upperB => exact upperB digits
    simp only [unsigned?_eq_some_iff, Numeral.iff_of_unmarked unmarked,
      Text.number?_eq_some_iff (by decide : 10 ≤ 16)]

namespace Denotes

variable {text : List Char} {value : Int}

theorem iff_of_minus (numeral : List Char) (value : Int) :
    Denotes ('-' :: numeral) value ↔
      ∃ magnitude, magnitude? numeral = some magnitude ∧ -magnitude = value := by
  simp only [magnitude?_eq_some_iff]
  constructor
  · intro denotes
    cases denotes with
    | negative spelled fits => exact ⟨_, ⟨_, spelled, fits, rfl⟩, rfl⟩
    | plain spelled _ =>
        -- No numeral starts with a sign, so a minus sign is never part of the magnitude.
        obtain ⟨digit, isDigit⟩ := spelled.exists_isDigit_head
        exact absurd isDigit (Text.not_isDigit (by decide) rfl digit)
  · rintro ⟨_, ⟨magnitude, spelled, fits, rfl⟩, rfl⟩
    exact .negative spelled fits

theorem iff_of_not_minus (unsigned : ∀ numeral, text ≠ '-' :: numeral) (value : Int) :
    Denotes text value ↔ magnitude? text = some value := by
  rw [magnitude?_eq_some_iff]
  constructor
  · intro denotes
    cases denotes with
    | negative => exact absurd rfl (unsigned _)
    | plain spelled fits => exact ⟨_, spelled, fits, rfl⟩
  · rintro ⟨magnitude, spelled, fits, rfl⟩
    exact .plain spelled fits

theorem bounds (denotes : Denotes text value) :
    -(2 ^ 63 - 1) ≤ value ∧ value ≤ 2 ^ 63 - 1 := by
  cases denotes <;> omega

theorem isBlank_eq_false (denotes : Denotes text value) : ∀ c ∈ text, Text.isBlank c = false := by
  cases denotes with
  | negative spelled _ => exact List.forall_mem_cons.mpr ⟨rfl, spelled.isBlank_eq_false⟩
  | plain spelled _ => exact spelled.isBlank_eq_false

theorem ne_bracket_cons (denotes : Denotes text value) (rest : List Char) : text ≠ '[' :: rest := by
  rintro rfl
  cases denotes with
  | plain spelled _ =>
      obtain ⟨digit, isDigit⟩ := spelled.exists_isDigit_head
      exact Text.not_isDigit (by decide) rfl digit isDigit

theorem body_bare (denotes : Denotes text value) : Body text text :=
  .bare fun _ => denotes.ne_bracket_cons _

theorem body_bracketed (denotes : Denotes text value) : Body ('[' :: (text ++ [']'])) text :=
  .bracketed ((Text.trim_eq_iff text text).mp (Text.trim_of_no_blank denotes.isBlank_eq_false))

theorem of_sign {numeral : List Char} (spelled : Numeral numeral value.natAbs)
    (fits : value.natAbs ≤ 2 ^ 63 - 1) : Denotes (sign value ++ numeral) value := by
  by_cases negative : value < 0
  · have same : -(value.natAbs : Int) = value := by omega
    rw [sign, if_pos negative]
    exact same ▸ .negative spelled fits
  · have same : (value.natAbs : Int) = value := by omega
    rw [sign, if_neg negative]
    exact same ▸ .plain spelled fits

end Denotes

theorem value?_eq_some_iff (token : String) (value : Int) :
    value? token = some value ↔ ∃ text, Body token.toList text ∧ Denotes text value := by
  simp only [← body_eq_iff, exists_eq_left']
  unfold value?
  split
  · rename_i numeral same
    rw [same, Denotes.iff_of_minus, Option.map_eq_some_iff]
  · rename_i unsigned
    rw [Denotes.iff_of_not_minus unsigned]

theorem Spelling.denotes {value : Int} {text : List Char} (spelling : Spelling value text)
    (fits : value.natAbs ≤ 2 ^ 63 - 1) : Denotes text value := by
  cases spelling with
  | decimal =>
      have spelled := Text.Spells.of_toDigits 10 value.natAbs (by decide) (by decide)
      exact .of_sign (.decimal spelled) fits
  | @marked _ base _ marks cased =>
      have spelled := Text.Spells.of_toDigits base value.natAbs marks.one_lt marks.le
      exact .of_sign (.marked marks (spelled.of_toUpper marks.le cased)) fits

/-- A token is read exactly if the grammar gives it a number, and then as that number. -/
theorem value?_readByGrammar (token : String) : ReadByGrammar token (value? token) where
  value := value?_eq_some_iff token
  bounded value read := by
    obtain ⟨_, _, denotes⟩ := (value?_eq_some_iff token value).mp read
    exact denotes.bounds
  spelling value text spelling fits written := by
    have denotes := spelling.denotes fits
    refine (value?_eq_some_iff token value).mpr ⟨text, ?_, denotes⟩
    rcases written with bare | bracketed
    · rw [bare]
      exact denotes.body_bare
    · rw [bracketed]
      exact denotes.body_bracketed

example : value? "[ -0X0fF\t]" = some (-255) := by decide

end Literal

end TwoPass
