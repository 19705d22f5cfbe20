/-!
Numerals: digits in a base of at most sixteen, read and written. Reading takes letters of either
case as digits; nothing but digits is read, so neither a sign nor a gap between them.
-/

namespace TwoPass.Text

def digitValue? (base : Nat) (c : Char) : Option Nat :=
  let value :=
    if '0' ≤ c ∧ c ≤ '9' then c.toNat - '0'.toNat
    else if 'a' ≤ c ∧ c ≤ 'f' then c.toNat - 'a'.toNat + 10
    else if 'A' ≤ c ∧ c ≤ 'F' then c.toNat - 'A'.toNat + 10
    else base
  if value < base then some value else none

def number? (base : Nat) (digits : List Char) : Option Nat :=
  if digits.isEmpty then none
  else digits.foldlM (fun total c => (digitValue? base c).map fun value => base * total + value) 0

/-- The last `width` digits of a number, zeros in front included. -/
def fixedDigits (base : Nat) : Nat → Nat → List Nat
  | 0, _ => []
  | width + 1, number => fixedDigits base width (number / base) ++ [number % base]

def hexWord (word : UInt16) : String :=
  String.ofList ((fixedDigits 16 4 word.toNat).map fun digit => digit.digitChar.toUpper)

def binaryWord (word : UInt16) : String :=
  String.ofList ((fixedDigits 2 16 word.toNat).map Nat.digitChar)

def decimal (number : Nat) : String :=
  String.ofList (Nat.toDigits 10 number)

def paddedDecimal (width number : Nat) : String :=
  String.ofList ((Nat.toDigits 10 number).leftpad width ' ')

def signedDecimal : Int → String
  | .ofNat number => decimal number
  | .negSucc number => "-" ++ decimal (number + 1)

@[simp] theorem length_fixedDigits (base width number : Nat) :
    (fixedDigits base width number).length = width := by
  induction width generalizing number with
  | zero => rfl
  | succ width ih => simp [fixedDigits, ih]

theorem foldl_fixedDigits (base width number : Nat) :
    (fixedDigits base width number).foldl (fun total digit => base * total + digit) 0 =
      number % base.pow width := by
  induction width generalizing number with
  | zero => simp [fixedDigits, Nat.mod_one]
  | succ width ih =>
      simp only [fixedDigits, List.foldl_append, ih, List.foldl_cons, List.foldl_nil]
      rw [Nat.pow_eq, Nat.pow_eq, Nat.pow_succ', Nat.mod_mul, Nat.add_comm]

theorem digitValue?_digitChar (base value : Nat) (small : value < base) (bound : base ≤ 16) :
    digitValue? base value.digitChar = some value := by
  have cases : ∀ value < 16, ∀ base ≤ 16, value < base →
      digitValue? base value.digitChar = some value := by
    decide +kernel
  exact cases value (by omega) base bound small

theorem toNat_digitChar {value : Nat} (small : value < 16) :
    value.digitChar.toNat = (if value < 10 then 48 + value else 87 + value) ∧
      value.digitChar.toUpper.toNat = (if value < 10 then 48 + value else 55 + value) := by
  have cases : ∀ value < 16,
      value.digitChar.toNat = (if value < 10 then 48 + value else 87 + value) ∧
        value.digitChar.toUpper.toNat = (if value < 10 then 48 + value else 55 + value) := by
    decide
  exact cases value small

theorem digitValue?_eq_some_iff {base : Nat} (bound : base ≤ 16) (c : Char) (value : Nat) :
    digitValue? base c = some value ↔
      value < base ∧ (c = value.digitChar ∨ c = value.digitChar.toUpper) := by
  constructor
  · intro read
    have zero : '0'.toNat = 48 := rfl
    have small : 'a'.toNat = 97 := rfl
    have capital : 'A'.toNat = 65 := rfl
    simp only [digitValue?, Option.ite_none_right_eq_some, Option.some.injEq] at read
    obtain ⟨below, same⟩ := read
    rw [same] at below
    refine ⟨below, ?_⟩
    obtain ⟨lower, upper⟩ := toNat_digitChar (Nat.lt_of_lt_of_le below bound)
    rw [← Char.toNat_inj, ← Char.toNat_inj, lower, upper]
    split at same
    · rename_i range
      have least : 48 ≤ c.toNat := range.1
      have greatest : c.toNat ≤ 57 := range.2
      rw [if_pos (by omega)]
      omega
    · split at same
      · rename_i range
        have least : 97 ≤ c.toNat := range.1
        rw [if_neg (by omega)]
        omega
      · split at same
        · rename_i range
          have least : 65 ≤ c.toNat := range.1
          rw [if_neg (by omega), if_neg (by omega)]
          omega
        · omega
  · rintro ⟨small, rfl | rfl⟩
    · exact digitValue?_digitChar base value small bound
    · have cases : ∀ value < 16, ∀ base ≤ 16, value < base →
          digitValue? base value.digitChar.toUpper = some value := by
        decide +kernel
      exact cases value (by omega) base bound small

theorem number?_toDigits (base number : Nat) (lower : 1 < base) (upper : base ≤ 16) :
    number? base (Nat.toDigits base number) = some number := by
  have digits : ∀ number, (Nat.toDigits base number).foldlM
      (fun total c => (digitValue? base c).map fun value => base * total + value) 0 =
        some number := by
    intro number
    induction number using Nat.strongRecOn with
    | ind number ih =>
        by_cases small : number < base
        · simp [Nat.toDigits_of_lt_base small, digitValue?_digitChar base number small upper]
        · have smaller : number / base < number := Nat.div_lt_self (by omega) lower
          have digit : number % base < base := Nat.mod_lt _ (by omega)
          rw [Nat.toDigits_of_base_le lower (by omega), List.foldlM_append, ih _ smaller]
          simp [digitValue?_digitChar base _ digit upper, Nat.div_add_mod]
  simp [number?, digits]

end TwoPass.Text
