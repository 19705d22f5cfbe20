import Mathlib.Data.List.Induction
import TwoPass.Json.Token
import TwoPass.Proofs.LiteralGrammar

/-!
Numbers in JSON text: a sign, digits without a zero in front, a fraction and an exponent. Of these
the natural numbers are spelled in one way only, with their decimal digits.
-/

namespace TwoPass.Json

def AllDigits (text : List Char) : Prop :=
  ∀ c ∈ text, c.isDigit = true

inductive WholePart : List Char → Prop where
  | zero : WholePart ['0']
  | positive {first : Char} {rest : List Char} (digit : first.isDigit = true)
      (notZero : first ≠ '0') (digits : AllDigits rest) : WholePart (first :: rest)

inductive FractionPart : List Char → Prop where
  | absent : FractionPart []
  | point {first : Char} {rest : List Char} (digit : first.isDigit = true)
      (digits : AllDigits rest) : FractionPart ('.' :: first :: rest)

inductive ExponentPart : List Char → Prop where
  | absent : ExponentPart []
  | marked {mark first : Char} {sign rest : List Char} (known : mark = 'e' ∨ mark = 'E')
      (signed : sign = [] ∨ sign = ['+'] ∨ sign = ['-']) (digit : first.isDigit = true)
      (digits : AllDigits rest) : ExponentPart (mark :: (sign ++ first :: rest))

inductive NumberText : List Char → Prop where
  | parts {sign whole fraction exponent : List Char} (signed : sign = [] ∨ sign = ['-'])
      (isWhole : WholePart whole) (isFraction : FractionPart fraction)
      (isExponent : ExponentPart exponent) :
      NumberText (sign ++ (whole ++ (fraction ++ exponent)))

theorem AllDigits.cons {first : Char} {rest : List Char} (digit : first.isDigit = true)
    (digits : AllDigits rest) : AllDigits (first :: rest) :=
  List.forall_mem_cons.mpr ⟨digit, digits⟩

theorem isExponent_of_digits {first : Char} {rest : List Char} (digit : first.isDigit = true)
    (digits : AllDigits rest) : isExponent (first :: rest) = true := by
  have allDigits := List.all_eq_true.mpr (AllDigits.cons digit digits)
  unfold isExponent
  split
  · rename_i same
    rw [(List.cons.inj same).1] at digit
    exact absurd digit (by decide)
  · rename_i same
    rw [(List.cons.inj same).1] at digit
    exact absurd digit (by decide)
  · simpa using allDigits

theorem isExponentPart_of_exponentPart {text : List Char} (exponent : ExponentPart text) :
    isExponentPart text = true := by
  cases exponent with
  | absent => rfl
  | @marked mark first sign rest known signed digit digits =>
      have allDigits := List.all_eq_true.mpr (AllDigits.cons digit digits)
      have isExponent : isExponent (sign ++ first :: rest) = true := by
        rcases signed with rfl | rfl | rfl
        · exact isExponent_of_digits digit digits
        · simpa [Json.isExponent] using allDigits
        · simpa [Json.isExponent] using allDigits
      rcases known with rfl | rfl
      · exact isExponent
      · exact isExponent

theorem ExponentPart.head {text : List Char} (exponent : ExponentPart text) :
    ∀ c ∈ text.head?, c = 'e' ∨ c = 'E' := by
  cases exponent with
  | absent => simp
  | marked known signed digit digits => simpa using known

theorem ExponentPart.not_isDigit {text : List Char} (exponent : ExponentPart text) :
    ∀ c ∈ text.head?, c.isDigit = false := by
  intro c head
  rcases exponent.head c head with rfl | rfl <;> rfl

theorem isFractionPart_of_parts {fraction exponent : List Char} (isFraction : FractionPart fraction)
    (isExponent : ExponentPart exponent) : isFractionPart (fraction ++ exponent) = true := by
  have isExponentPart := isExponentPart_of_exponentPart isExponent
  cases isFraction with
  | absent =>
      rw [List.nil_append]
      unfold isFractionPart
      split
      · exact absurd (isExponent.head '.' rfl) (by decide)
      · exact isExponentPart
  | @point first rest digit digits =>
      simp only [List.cons_append, isFractionPart, digit, Bool.true_and,
        Text.dropWhile_append_of_stop digits isExponent.not_isDigit, isExponentPart]

theorem not_isDigit_of_parts {fraction exponent : List Char} (isFraction : FractionPart fraction)
    (isExponent : ExponentPart exponent) :
    ∀ c ∈ (fraction ++ exponent).head?, c.isDigit = false := by
  cases isFraction with
  | absent => exact isExponent.not_isDigit
  | point digit digits =>
      rintro c ⟨⟩
      rfl

theorem isUnsignedNumber_of_parts {whole fraction exponent : List Char} (isWhole : WholePart whole)
    (isFraction : FractionPart fraction) (isExponent : ExponentPart exponent) :
    isUnsignedNumber (whole ++ (fraction ++ exponent)) = true := by
  have later := isFractionPart_of_parts isFraction isExponent
  cases isWhole with
  | zero => exact later
  | @positive first rest digit notZero digits =>
      rw [List.cons_append]
      unfold isUnsignedNumber
      split
      · rename_i same
        exact absurd (List.cons.inj same).1 notZero
      · rename_i same
        obtain ⟨rfl, rfl⟩ := List.cons.inj same
        rw [digit, Text.dropWhile_append_of_stop digits
          (not_isDigit_of_parts isFraction isExponent), later]
        rfl
      · rename_i same
        simp at same

theorem WholePart.exists_cons {text : List Char} (whole : WholePart text) :
    ∃ first rest, text = first :: rest ∧ first.isDigit = true ∧ AllDigits rest := by
  cases whole with
  | zero => exact ⟨'0', [], rfl, rfl, by simp [AllDigits]⟩
  | positive digit notZero digits => exact ⟨_, _, rfl, digit, digits⟩

theorem isNumber_of_numberText {text : List Char} (number : NumberText text) :
    isNumber text = true := by
  obtain @⟨sign, whole, fraction, exponent, signed, isWhole, isFraction, isExponent⟩ := number
  have unsigned := isUnsignedNumber_of_parts isWhole isFraction isExponent
  rcases signed with rfl | rfl
  · rw [List.nil_append]
    unfold isNumber
    split
    · rename_i same
      obtain ⟨first, rest, rfl, digit, _⟩ := isWhole.exists_cons
      rw [(List.cons.inj same).1] at digit
      exact absurd digit (by decide)
    · exact unsigned
  · exact unsigned

theorem exists_cons_of_digits {digits : List Char}
    (read : (!digits.isEmpty && digits.all Char.isDigit) = true) :
    ∃ first rest, digits = first :: rest ∧ first.isDigit = true ∧ AllDigits rest := by
  cases digits with
  | nil => simp at read
  | cons first rest =>
      simp only [List.isEmpty_cons, Bool.not_false, Bool.true_and, List.all_eq_true] at read
      obtain ⟨digit, digits⟩ := List.forall_mem_cons.mp read
      exact ⟨first, rest, rfl, digit, digits⟩

theorem exponentPart_of_isExponentPart {text : List Char} (read : isExponentPart text = true) :
    ExponentPart text := by
  have marked {mark : Char} {exponent : List Char} (known : mark = 'e' ∨ mark = 'E')
      (read : isExponent exponent = true) : ExponentPart (mark :: exponent) := by
    unfold isExponent at read
    split at read
    · obtain ⟨first, rest, rfl, digit, digits⟩ := exists_cons_of_digits read
      exact .marked known (.inr (.inl rfl)) digit digits
    · obtain ⟨first, rest, rfl, digit, digits⟩ := exists_cons_of_digits read
      exact .marked known (.inr (.inr rfl)) digit digits
    · obtain ⟨first, rest, rfl, digit, digits⟩ := exists_cons_of_digits read
      exact .marked known (.inl rfl) digit digits
  unfold isExponentPart at read
  split at read
  · exact .absent
  · exact marked (.inl rfl) read
  · exact marked (.inr rfl) read
  · simp at read

theorem allDigits_takeWhile (text : List Char) : AllDigits (text.takeWhile Char.isDigit) :=
  List.all_eq_true.mp List.all_takeWhile

theorem exists_parts_of_isFractionPart {text : List Char} (read : isFractionPart text = true) :
    ∃ fraction exponent, text = fraction ++ exponent ∧ FractionPart fraction ∧
      ExponentPart exponent := by
  unfold isFractionPart at read
  split at read
  · rename_i digit rest
    rw [Bool.and_eq_true] at read
    refine ⟨'.' :: digit :: rest.takeWhile Char.isDigit, rest.dropWhile Char.isDigit, ?_,
      .point read.1 (allDigits_takeWhile rest), exponentPart_of_isExponentPart read.2⟩
    rw [List.cons_append, List.cons_append, List.takeWhile_append_dropWhile]
  · exact ⟨[], text, rfl, .absent, exponentPart_of_isExponentPart read⟩

theorem exists_parts_of_isUnsignedNumber {text : List Char}
    (read : isUnsignedNumber text = true) :
    ∃ whole later, text = whole ++ later ∧ WholePart whole ∧ isFractionPart later = true := by
  unfold isUnsignedNumber at read
  split at read
  · exact ⟨['0'], _, rfl, .zero, read⟩
  · rename_i digit rest notZero
    rw [Bool.and_eq_true] at read
    refine ⟨digit :: rest.takeWhile Char.isDigit, rest.dropWhile Char.isDigit, ?_,
      .positive read.1 notZero (allDigits_takeWhile rest), read.2⟩
    rw [List.cons_append, List.takeWhile_append_dropWhile]
  · simp at read

theorem numberText_of_isNumber {text : List Char} (read : isNumber text = true) :
    NumberText text := by
  have signed {sign unsigned : List Char} (known : sign = [] ∨ sign = ['-'])
      (read : isUnsignedNumber unsigned = true) : NumberText (sign ++ unsigned) := by
    obtain ⟨whole, later, rfl, isWhole, read⟩ := exists_parts_of_isUnsignedNumber read
    obtain ⟨fraction, exponent, rfl, isFraction, isExponent⟩ :=
      exists_parts_of_isFractionPart read
    exact .parts known isWhole isFraction isExponent
  unfold isNumber at read
  split at read
  · exact signed (.inr rfl) read
  · exact signed (.inl rfl) read

theorem NumberText.exists_cons {text : List Char} (number : NumberText text) :
    ∃ first rest, text = first :: rest ∧ (first.isDigit = true ∨ first = '-') := by
  obtain @⟨sign, whole, fraction, exponent, signed, isWhole, isFraction, isExponent⟩ := number
  obtain ⟨first, rest, rfl, digit, _⟩ := isWhole.exists_cons
  rcases signed with rfl | rfl
  · exact ⟨first, _, rfl, .inl digit⟩
  · exact ⟨'-', _, rfl, .inr rfl⟩

theorem AllDigits.isNumberChar {text : List Char} (digits : AllDigits text) :
    ∀ c ∈ text, isNumberChar c = true := by
  intro c member
  simp [Json.isNumberChar, digits c member]

theorem isNumberChar_of_numberText {text : List Char} (number : NumberText text) :
    ∀ c ∈ text, isNumberChar c = true := by
  obtain @⟨sign, whole, fraction, exponent, signed, isWhole, isFraction, isExponent⟩ := number
  refine List.forall_mem_append.mpr ⟨?_, List.forall_mem_append.mpr ⟨?_,
    List.forall_mem_append.mpr ⟨?_, ?_⟩⟩⟩
  · rcases signed with rfl | rfl
    · simp
    · exact List.forall_mem_singleton.mpr rfl
  · obtain ⟨first, rest, rfl, digit, digits⟩ := isWhole.exists_cons
    exact (AllDigits.cons digit digits).isNumberChar
  · cases isFraction with
    | absent => simp
    | point digit digits =>
        exact List.forall_mem_cons.mpr ⟨rfl, (AllDigits.cons digit digits).isNumberChar⟩
  · cases isExponent with
    | absent => simp
    | marked known signed digit digits =>
        refine List.forall_mem_cons.mpr ⟨?_, List.forall_mem_append.mpr
          ⟨?_, (AllDigits.cons digit digits).isNumberChar⟩⟩
        · rcases known with rfl | rfl <;> rfl
        · rcases signed with rfl | rfl | rfl
          · simp
          · exact List.forall_mem_singleton.mpr rfl
          · exact List.forall_mem_singleton.mpr rfl

theorem toDigits_of_foldlM {digits : List Char} {number : Nat} (nonempty : digits ≠ [])
    (first : digits.head? ≠ some '0')
    (read : digits.foldlM
      (fun total c => (Text.digitValue? 10 c).map fun value => 10 * total + value) 0 =
        some number) : Nat.toDigits 10 number = digits := by
  -- The last digit is the remainder, and the digits before it spell the quotient.
  induction digits using List.reverseRecOn generalizing number with
  | nil => exact absurd rfl nonempty
  | append_singleton before last ih =>
      rw [List.foldlM_append] at read
      obtain ⟨total, readBefore, readLast⟩ := Option.bind_eq_some_iff.mp read
      rw [List.foldlM_cons] at readLast
      obtain ⟨_, stepped, ended⟩ := Option.bind_eq_some_iff.mp readLast
      cases ended
      obtain ⟨value, digit, rfl⟩ := Option.map_eq_some_iff.mp stepped
      obtain ⟨small, spelled⟩ := (Text.digitValue?_eq_some_iff (by decide) last value).mp digit
      have caseless : ∀ value < 10, value.digitChar.toUpper = value.digitChar := by decide
      rw [caseless value small, or_self] at spelled
      by_cases empty : before = []
      · subst before
        cases readBefore
        rw [Nat.mul_zero, Nat.zero_add, Nat.toDigits_of_lt_base small, spelled]
        rfl
      · have same := ih empty (List.head?_append_of_ne_nil before empty ▸ first) readBefore
        have positive : total ≠ 0 := by
          rintro rfl
          rw [← same] at first
          exact first rfl
        rw [Nat.toDigits_of_base_le (by decide) (by omega),
          show (10 * total + value) / 10 = total by omega,
          show (10 * total + value) % 10 = value by omega, same, spelled]

theorem wholePart_of_digits {text : List Char} {value : Nat} (number : NumberText text)
    (spelled : Text.Spells 10 text value) : WholePart text := by
  obtain @⟨sign, whole, fraction, exponent, signed, isWhole, isFraction, isExponent⟩ := number
  have foreign {c : Char} (unread : Text.digitValue? 10 c = none) :
      c ∉ sign ++ (whole ++ (fraction ++ exponent)) := by
    intro member
    obtain ⟨value, digit⟩ := spelled.exists_isDigit c member
    exact Text.not_isDigit (by decide) unread value digit
  have unsigned : sign = [] := by
    rcases signed with rfl | rfl
    · rfl
    · exact absurd (by simp) (foreign (c := '-') rfl)
  have noFraction : fraction = [] := by
    cases isFraction with
    | absent => rfl
    | point digit digits => exact absurd (by simp) (foreign (c := '.') rfl)
  have noExponent : exponent = [] := by
    cases isExponent with
    | absent => rfl
    | marked known signed digit digits =>
        rcases known with rfl | rfl
        · exact absurd (by simp) (foreign (c := 'e') rfl)
        · exact absurd (by simp) (foreign (c := 'E') rfl)
  subst sign fraction exponent
  simpa using isWhole

theorem number?_eq_some_iff_decimal {spelling : String} (number : NumberText spelling.toList)
    (value : Nat) :
    Text.number? 10 spelling.toList = some value ↔ spelling = Text.decimal value := by
  constructor
  · intro read
    have whole := wholePart_of_digits number ((Text.number?_eq_some_iff (by decide) _ _).mp read)
    have digits : spelling.toList = Nat.toDigits 10 value := by
      cases text : spelling.toList with
      | nil =>
          rw [text] at whole
          cases whole
      | cons first rest =>
          rw [text] at whole read
          cases whole with
          | zero =>
              cases read
              rfl
          | positive digit notZero digits =>
              exact (toDigits_of_foldlM (by simp) (by simpa using notZero) read).symm
    rw [Text.decimal, ← digits, String.ofList_toList]
  · rintro rfl
    rw [Text.decimal, String.toList_ofList]
    exact Text.number?_toDigits 10 value (by decide) (by decide)

theorem natBelow?_number {spelling : String} (number : NumberText spelling.toList)
    (bound value : Nat) :
    natBelow? bound (.number spelling) = some value ↔
      value < bound ∧ spelling = Text.decimal value := by
  rw [natBelow?, Option.filter_eq_some_iff, number?_eq_some_iff_decimal number,
    decide_eq_true_eq, and_comm]

theorem head?_toDigits {value : Nat} (positive : 0 < value) :
    (Nat.toDigits 10 value).head? ≠ some '0' := by
  induction value using Nat.strongRecOn with
  | ind value ih =>
      by_cases small : value < 10
      · have cases : ∀ value < 10, 0 < value → some value.digitChar ≠ some '0' := by decide
        rw [Nat.toDigits_of_lt_base small]
        exact cases value small positive
      · rw [Nat.toDigits_of_base_le (by decide) (by omega),
          List.head?_append_of_ne_nil _ Nat.toDigits_ne_nil]
        exact ih (value / 10) (by omega) (by omega)

theorem numberText_decimal (value : Nat) : NumberText (Text.decimal value).toList := by
  have whole : WholePart (Nat.toDigits 10 value) := by
    by_cases positive : 0 < value
    · have first := head?_toDigits positive
      have digits : AllDigits (Nat.toDigits 10 value) := fun c member =>
        Nat.isDigit_of_mem_toDigits (by decide) (by decide) member
      cases text : Nat.toDigits 10 value with
      | nil => exact absurd text Nat.toDigits_ne_nil
      | cons c rest =>
          rw [text] at first digits
          obtain ⟨digit, later⟩ := List.forall_mem_cons.mp digits
          exact .positive digit (by simpa using first) later
    · rw [show value = 0 by omega]
      exact .zero
  rw [Text.decimal, String.toList_ofList]
  simpa using NumberText.parts (.inl rfl) whole .absent .absent

theorem natBelow?_ofNat {value bound : Nat} (small : value < bound) :
    natBelow? bound (.ofNat value) = some value :=
  (natBelow?_number (numberText_decimal value) bound value).mpr ⟨small, rfl⟩

theorem ofNat_injective : Function.Injective ofNat := by
  intro left right same
  have readLeft : natBelow? (left + right + 1) (ofNat left) = some left :=
    natBelow?_ofNat (by omega)
  have readRight : natBelow? (left + right + 1) (ofNat right) = some right :=
    natBelow?_ofNat (by omega)
  rw [same, readRight, Option.some.injEq] at readLeft
  exact readLeft.symm

end TwoPass.Json
