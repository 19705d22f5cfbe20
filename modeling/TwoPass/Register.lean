import TwoPass.Text.Digits

/-!
Registers. The machine has eight of them, and a token names one as `R0` to `R7` or `r0` to `r7`. A
register that is read as data may hold any byte as its index.
-/

namespace TwoPass

structure Register where
  index : UInt8
deriving DecidableEq

namespace Register

def count : UInt8 := 8

def Valid (register : Register) : Prop := register.index < count

instance (register : Register) : Decidable register.Valid :=
  inferInstanceAs (Decidable (register.index < count))

def ofIndex? (index : UInt8) : Option Register :=
  if index < count then some ⟨index⟩ else none

theorem valid_iff_toNat_lt (register : Register) : register.Valid ↔ register.index.toNat < 8 :=
  UInt8.lt_iff_toNat_lt

theorem ofIndex?_eq_some_iff (index : UInt8) (register : Register) :
    ofIndex? index = some register ↔ register.index = index ∧ register.Valid := by
  simp only [ofIndex?, Option.ite_none_right_eq_some, Option.some.injEq, Valid]
  constructor
  · rintro ⟨below, rfl⟩
    exact ⟨rfl, below⟩
  · rintro ⟨rfl, below⟩
    exact ⟨below, rfl⟩

def ofToken? (token : String) : Option Register :=
  match token.toList with
  | [letter, digit] =>
      if letter = 'R' ∨ letter = 'r' then
        (Text.digitValue? 10 digit).bind fun index => ofIndex? index.toUInt8
      else none
  | _ => none

def name (register : Register) : String :=
  "R" ++ Text.decimal register.index.toNat

end Register

end TwoPass
