import TwoPass.Proofs.Reading

/-!
Operand tokens by how they are spelled. A register token has two characters, the letter in either
case and the number; any other token may have a value, that of a label or that of a literal.
-/

namespace TwoPass

def NamesRegister (token : String) (number : Nat) : Prop :=
  number < 8 ∧
    (token.toList = ['R', number.digitChar] ∨ token.toList = ['r', number.digitChar])

/-- The value of a token that is no register: the address of a label comes before the number that
the token spells. -/
inductive HasValue (table : SymbolTable) (token : String) : Int → Prop where
  | label {address : UInt32} (bound : table.resolve? token = some address) :
      HasValue table token address.toNat
  | literal {value : Int} (unbound : table.resolve? token = none)
      (spelled : Literal.value? token = some value) : HasValue table token value

structure HasLowValue (table : SymbolTable) (token : String) (low : Nat) : Prop where
  notRegister : ∀ number, ¬NamesRegister token number
  value : HasValue table token low
  fits : low ≤ 63

theorem Text.digitValue?_ten_eq_some_iff (c : Char) (value : Nat) :
    digitValue? 10 c = some value ↔ value < 10 ∧ c = value.digitChar := by
  rw [digitValue?_eq_some_iff (by decide)]
  constructor
  · rintro ⟨small, spelled⟩
    have uncased : ∀ value < 10, value.digitChar.toUpper = value.digitChar := by decide
    rw [uncased value small, or_self] at spelled
    exact ⟨small, spelled⟩
  · rintro ⟨small, spelled⟩
    exact ⟨small, .inl spelled⟩

namespace Register

theorem ofIndex?_toUInt8_eq_some_iff {number : Nat} (small : number < 10) (register : Register) :
    ofIndex? number.toUInt8 = some register ↔ number < 8 ∧ register.index.toNat = number := by
  have kept : number.toUInt8.toNat = number :=
    UInt8.toNat_ofNat_of_lt' (Nat.lt_of_lt_of_le small (by decide))
  rw [ofIndex?_eq_some_iff, ← UInt8.toNat_inj, kept, valid_iff_toNat_lt]
  constructor
  · rintro ⟨rfl, valid⟩
    exact ⟨valid, rfl⟩
  · rintro ⟨valid, rfl⟩
    exact ⟨rfl, valid⟩

theorem ofToken?_eq_some_iff (token : String) (register : Register) :
    ofToken? token = some register ↔ NamesRegister token register.index.toNat := by
  constructor
  · intro named
    unfold ofToken? at named
    split at named
    · rename_i letter digit spelled
      split at named
      · rename_i letters
        obtain ⟨number, read, found⟩ := Option.bind_eq_some_iff.mp named
        obtain ⟨small, rfl⟩ := (Text.digitValue?_ten_eq_some_iff digit number).mp read
        obtain ⟨valid, same⟩ := (ofIndex?_toUInt8_eq_some_iff small register).mp found
        rw [NamesRegister, same, spelled]
        refine ⟨valid, ?_⟩
        rcases letters with rfl | rfl
        · exact .inl rfl
        · exact .inr rfl
      · simp at named
    · simp at named
  · rintro ⟨valid, spelled⟩
    have small : register.index.toNat < 10 := by omega
    have read := (Text.digitValue?_ten_eq_some_iff _ _).mpr ⟨small, rfl⟩
    have found := (ofIndex?_toUInt8_eq_some_iff small register).mpr ⟨valid, rfl⟩
    rcases spelled with spelled | spelled <;>
      simp only [ofToken?, spelled, read, Option.bind_some, found, or_true, true_or,
        if_true]

theorem exists_ofToken?_of_namesRegister {token : String} {number : Nat}
    (named : NamesRegister token number) :
    ∃ register, ofToken? token = some register ∧ register.index.toNat = number := by
  have small : number < 10 := by
    have valid := named.1
    omega
  have kept : number.toUInt8.toNat = number :=
    UInt8.toNat_ofNat_of_lt' (Nat.lt_of_lt_of_le small (by decide))
  refine ⟨⟨number.toUInt8⟩, (ofToken?_eq_some_iff token _).mpr ?_, kept⟩
  change NamesRegister token number.toUInt8.toNat
  rw [kept]
  exact named

theorem ofToken?_eq_none_iff (token : String) :
    ofToken? token = none ↔ ∀ number, ¬NamesRegister token number := by
  constructor
  · intro unnamed number named
    obtain ⟨register, found, _⟩ := exists_ofToken?_of_namesRegister named
    rw [unnamed] at found
    simp at found
  · intro others
    cases named : ofToken? token with
    | none => rfl
    | some register => exact absurd ((ofToken?_eq_some_iff token register).mp named) (others _)

end Register

namespace Operand

variable {table : SymbolTable} {token : String}

theorem lowValue_of_value {value : Int} (notRegister : Register.ofToken? token = none)
    (valued : HasValue table token value) :
    lowValue table token =
      if 0 ≤ value ∧ value ≤ Word.lowMax then .ok value.toNat.toUInt8
      else .error (.outOfRange value Word.lowMax) := by
  cases valued with
  | label bound => simp only [lowValue, resolve, notRegister, bound, asValue, bind, Except.bind]
  | literal unbound spelled =>
      simp only [lowValue, resolve, notRegister, unbound, spelled, asValue, bind, Except.bind]

theorem exists_value_or_error (notRegister : Register.ofToken? token = none) :
    (∃ value, HasValue table token value) ∨
      (∀ value, ¬HasValue table token value) ∧ ∃ error, lowValue table token = .error error := by
  cases bound : table.resolve? token with
  | some address => exact .inl ⟨_, .label bound⟩
  | none =>
      cases spelled : Literal.value? token with
      | some value => exact .inl ⟨value, .literal bound spelled⟩
      | none =>
          right
          constructor
          · intro value valued
            cases valued with
            | label other => simp [bound] at other
            | literal _ other => simp [spelled] at other
          · simp only [lowValue, resolve, notRegister, bound, spelled, bind, Except.bind]
            cases looksLikeName token with
            | true => exact ⟨_, rfl⟩
            | false => exact ⟨_, rfl⟩

theorem lowValue_eq_ok_iff (low : UInt8) :
    lowValue table token = .ok low ↔ HasLowValue table token low.toNat := by
  have room : Word.lowMax = 63 := rfl
  cases named : Register.ofToken? token with
  | some register =>
      have spelled := (Register.ofToken?_eq_some_iff token register).mp named
      rw [lowValue_of_register named]
      constructor
      · intro success
        simp at success
      · intro valued
        exact absurd spelled (valued.notRegister _)
  | none =>
      have notRegister := (Register.ofToken?_eq_none_iff token).mp named
      constructor
      · intro success
        rcases exists_value_or_error named with ⟨value, valued⟩ | ⟨_, error, failed⟩
        · rw [lowValue_of_value named valued] at success
          split at success
          · rename_i range
            have small : value.toNat ≤ Word.lowMax := by omega
            rw [Except.ok.injEq] at success
            rw [← success, Statement.toNat_toUInt8_of_le small]
            have same : (value.toNat : Int) = value := Int.toNat_of_nonneg range.1
            exact ⟨notRegister, same.symm ▸ valued, small⟩
          · simp at success
        · rw [failed] at success
          simp at success
      · rintro ⟨_, valued, fits⟩
        rw [lowValue_of_value named valued, if_pos (by omega), Except.ok.injEq, Int.toNat_natCast]
        exact UInt8.ofNat_toNat

end Operand

end TwoPass
