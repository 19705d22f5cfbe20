import Mathlib.Data.Nat.Find
import TwoPass.Proofs.Operands

/-!
Which error a statement without a word has. Its name comes first, then a surplus of operands, and
then the operands from the left: the first place whose operand is missing or unfit decides.
-/

namespace TwoPass

inductive OperandKind where
  | register
  | value
deriving DecidableEq

def Mnemonic.operandKinds : Mnemonic → List OperandKind
  | loadi | store | load | jz | jnz => [.register, .value]
  | add | sub | mul => [.register, .register, .register]
  | jump => [.value]
  | push | pop => [.register]
  | halt | reti => []
  | and | or | xor | shl | shr | mov | cmp | not | div | input | output => []

/-- A letter or an underscore stands first, or first after opening brackets. -/
def ReadsLikeName (token : String) : Prop :=
  ∃ count first rest, token.toList = List.replicate count '[' ++ first :: rest ∧
    (first.isAlpha = true ∨ first = '_')

inductive TokenFault (table : SymbolTable) (token : String) : OperandKind → EncodeError → Prop where
  | notRegister (unnamed : ∀ number, ¬NamesRegister token number) :
      TokenFault table token .register (.expectedRegister token)
  | register {number : Nat} {register : Register} (named : NamesRegister token number)
      (canonical : register.name = String.ofList ['R', number.digitChar]) :
      TokenFault table token .value (.expectedValue register)
  | outOfRange {value : Int} (unnamed : ∀ number, ¬NamesRegister token number)
      (valued : HasValue table token value) (outside : value < 0 ∨ 63 < value) :
      TokenFault table token .value (.outOfRange value 63)
  | undefined (unnamed : ∀ number, ¬NamesRegister token number)
      (unvalued : ∀ value, ¬HasValue table token value) (like : ReadsLikeName token) :
      TokenFault table token .value (.undefinedLabel token)
  | malformed (unnamed : ∀ number, ¬NamesRegister token number)
      (unvalued : ∀ value, ¬HasValue table token value) (unlike : ¬ReadsLikeName token) :
      TokenFault table token .value (.malformedOperand token)

inductive PlaceFault (table : SymbolTable) (mnemonic : Mnemonic) (tokens : List String)
    (place : Nat) : EncodeError → Prop where
  | missing (asked : place < mnemonic.operandKinds.length) (absent : tokens.length ≤ place) :
      PlaceFault table mnemonic tokens place
        (.missingOperand mnemonic mnemonic.operandKinds.length (place + 1))
  | unfit {kind : OperandKind} {token : String} {error : EncodeError}
      (asked : mnemonic.operandKinds[place]? = some kind) (found : tokens[place]? = some token)
      (fault : TokenFault table token kind error) : PlaceFault table mnemonic tokens place error

/-- The operand at a place is missing or unfit, and all operands before it are fit. -/
def FirstPlaceFault (table : SymbolTable) (mnemonic : Mnemonic) (tokens : List String)
    (place : Nat) (error : EncodeError) : Prop :=
  PlaceFault table mnemonic tokens place error ∧
    ∀ earlier < place, ∀ other, ¬PlaceFault table mnemonic tokens earlier other

inductive StatementFault (table : SymbolTable) (name : String) (tokens : List String) :
    EncodeError → Prop where
  | unknown (unlisted : ∀ mnemonic : Mnemonic, mnemonic.name ≠ name) :
      StatementFault table name tokens (.unknownInstruction name)
  | notImplemented {mnemonic : Mnemonic} (named : mnemonic.name = name)
      (unmarked : mnemonic.isImplemented = false) :
      StatementFault table name tokens (.notImplemented mnemonic)
  | surplus {mnemonic : Mnemonic} (named : mnemonic.name = name)
      (marked : mnemonic.isImplemented = true)
      (more : mnemonic.operandKinds.length < tokens.length) :
      StatementFault table name tokens
        (.unexpectedOperand mnemonic mnemonic.operandKinds.length tokens.length)
  | operand {mnemonic : Mnemonic} {place : Nat} {error : EncodeError}
      (named : mnemonic.name = name) (marked : mnemonic.isImplemented = true)
      (few : tokens.length ≤ mnemonic.operandKinds.length)
      (first : FirstPlaceFault table mnemonic tokens place error) :
      StatementFault table name tokens error

/-- The result of a statement names its first fault, and is a word if there is none. -/
structure NamesFirstFault (table : SymbolTable) (name : String) (tokens : List String)
    (result : Except EncodeError UInt16) : Prop where
  failed : ∀ error, result = .error error ↔ StatementFault table name tokens error
  accepted : (∃ word, result = .ok word) ↔
    ∃ mnemonic : Mnemonic, mnemonic.name = name ∧ mnemonic.isImplemented = true ∧
      tokens.length ≤ mnemonic.operandKinds.length ∧
      ∀ place error, ¬PlaceFault table mnemonic tokens place error
  unknown : ∀ other, result = .error (.unknownInstruction other) ↔
    other = name ∧ ∀ mnemonic : Mnemonic, mnemonic.name ≠ name
  notImplemented : ∀ mnemonic, result = .error (.notImplemented mnemonic) ↔
    mnemonic.name = name ∧ mnemonic.isImplemented = false

theorem Register.name_eq_iff {number : Nat} (small : number < 8) (register : Register) :
    register.name = String.ofList ['R', number.digitChar] ↔ register.index.toNat = number := by
  have chars : register.name.toList = 'R' :: Nat.toDigits 10 register.index.toNat := by
    simp [name, Text.decimal]
  rw [← String.toList_inj, chars, String.toList_ofList, List.cons.injEq]
  constructor
  · rintro ⟨_, digits⟩
    have read := Text.number?_toDigits 10 register.index.toNat (by decide) (by decide)
    have digit : [number.digitChar] = Nat.toDigits 10 number :=
      (Nat.toDigits_of_lt_base (by omega)).symm
    rw [digits, digit, Text.number?_toDigits 10 number (by decide) (by decide)] at read
    exact (Option.some.inj read).symm
  · rintro rfl
    exact ⟨rfl, Nat.toDigits_of_lt_base (by omega)⟩

theorem HasValue.unique {table : SymbolTable} {token : String} {first second : Int}
    (left : HasValue table token first) (right : HasValue table token second) :
    first = second := by
  cases left <;> cases right <;> simp_all

namespace Operand

theorem looksLikeName_eq_true_iff (token : String) :
    looksLikeName token = true ↔ ReadsLikeName token := by
  have notBracket {first : Char} (letter : first.isAlpha = true ∨ first = '_') :
      (first == '[') = false := by
    rw [beq_eq_false_iff_ne]
    rintro rfl
    rcases letter with letter | letter <;> simp at letter
  constructor
  · intro looks
    unfold looksLikeName at looks
    have split := List.takeWhile_append_dropWhile (p := (· == '[')) (l := token.toList)
    cases remainder : token.toList.dropWhile (· == '[') with
    | nil => simp [remainder] at looks
    | cons first rest =>
        rw [remainder] at split looks
        have brackets : ∀ c ∈ token.toList.takeWhile (· == '['), c = '[' := by
          intro c member
          simpa using List.all_eq_true.mp List.all_takeWhile c member
        rw [List.eq_replicate_of_mem brackets] at split
        exact ⟨_, first, rest, split.symm, by simpa using looks⟩
  · rintro ⟨count, first, rest, spelled, letter⟩
    have remainder : token.toList.dropWhile (· == '[') = first :: rest := by
      rw [spelled, List.dropWhile_append_of_pos (by simp), List.dropWhile_cons_of_neg]
      simp [notBracket letter]
    unfold looksLikeName
    rw [remainder]
    simpa using letter

theorem lowValue_of_unvalued {table : SymbolTable} {token : String}
    (notRegister : Register.ofToken? token = none)
    (unvalued : ∀ value, ¬HasValue table token value) :
    lowValue table token =
      if looksLikeName token then .error (.undefinedLabel token)
      else .error (.malformedOperand token) := by
  have unbound : table.resolve? token = none := by
    cases bound : table.resolve? token with
    | none => rfl
    | some address => exact absurd (.label bound) (unvalued address.toNat)
  have unspelled : Literal.value? token = none := by
    cases spelled : Literal.value? token with
    | none => rfl
    | some value => exact absurd (.literal unbound spelled) (unvalued value)
  simp only [lowValue, resolve, notRegister, unbound, unspelled, bind, Except.bind]
  cases looksLikeName token <;> rfl

end Operand

namespace TokenFault

variable {table : SymbolTable} {token : String} {error : EncodeError}

theorem register_iff (table : SymbolTable) (token : String) (error : EncodeError) :
    TokenFault table token .register error ↔
      Register.ofToken? token = none ∧ error = .expectedRegister token := by
  rw [Register.ofToken?_eq_none_iff]
  constructor
  · intro fault
    cases fault with
    | notRegister unnamed => exact ⟨unnamed, rfl⟩
  · rintro ⟨unnamed, rfl⟩
    exact .notRegister unnamed

theorem value_iff_of_register {register : Register}
    (read : Register.ofToken? token = some register) :
    TokenFault table token .value error ↔ error = .expectedValue register := by
  have named := (Register.ofToken?_eq_some_iff token register).mp read
  constructor
  · intro fault
    cases fault with
    | @register number other otherNamed canonical =>
        have index := (Register.name_eq_iff otherNamed.1 other).mp canonical
        have again := (Register.ofToken?_eq_some_iff token other).mpr (index ▸ otherNamed)
        rw [read, Option.some.injEq] at again
        rw [again]
    | outOfRange unnamed | undefined unnamed | malformed unnamed => exact absurd named (unnamed _)
  · rintro rfl
    exact .register named ((Register.name_eq_iff named.1 register).mpr rfl)

theorem value_iff_of_value {value : Int} (unnamed : ∀ number, ¬NamesRegister token number)
    (valued : HasValue table token value) :
    TokenFault table token .value error ↔
      (value < 0 ∨ 63 < value) ∧ error = .outOfRange value 63 := by
  constructor
  · intro fault
    cases fault with
    | register named => exact absurd named (unnamed _)
    | outOfRange _ other outside =>
        obtain rfl := valued.unique other
        exact ⟨outside, rfl⟩
    | undefined _ unvalued | malformed _ unvalued => exact absurd valued (unvalued value)
  · rintro ⟨outside, rfl⟩
    exact .outOfRange unnamed valued outside

theorem value_iff_of_unvalued (unnamed : ∀ number, ¬NamesRegister token number)
    (unvalued : ∀ value, ¬HasValue table token value) :
    TokenFault table token .value error ↔
      error = if Operand.looksLikeName token then .undefinedLabel token
        else .malformedOperand token := by
  constructor
  · intro fault
    cases fault with
    | register named => exact absurd named (unnamed _)
    | outOfRange _ valued => exact absurd valued (unvalued _)
    | undefined _ _ like => rw [if_pos ((Operand.looksLikeName_eq_true_iff token).mpr like)]
    | malformed _ _ unlike => rw [if_neg (mt (Operand.looksLikeName_eq_true_iff token).mp unlike)]
  · rintro rfl
    split
    · rename_i looks
      exact .undefined unnamed unvalued ((Operand.looksLikeName_eq_true_iff token).mp looks)
    · rename_i looks
      exact .malformed unnamed unvalued (mt (Operand.looksLikeName_eq_true_iff token).mpr looks)

end TokenFault

theorem Operand.lowValue_eq_error_iff (table : SymbolTable) (token : String)
    (error : EncodeError) :
    lowValue table token = .error error ↔ TokenFault table token .value error := by
  cases read : Register.ofToken? token with
  | some register =>
      rw [lowValue_of_register read, TokenFault.value_iff_of_register read, Except.error.injEq,
        eq_comm]
  | none =>
      have unnamed := (Register.ofToken?_eq_none_iff token).mp read
      by_cases valued : ∃ value, HasValue table token value
      · obtain ⟨value, known⟩ := valued
        have room : Word.lowMax = 63 := rfl
        rw [lowValue_of_value read known, TokenFault.value_iff_of_value unnamed known]
        by_cases inside : 0 ≤ value ∧ value ≤ Word.lowMax
        · rw [if_pos inside]
          constructor
          · intro failed
            simp at failed
          · rintro ⟨outside, _⟩
            omega
        · rw [if_neg inside, Except.error.injEq]
          constructor
          · rintro rfl
            exact ⟨by omega, rfl⟩
          · rintro ⟨_, rfl⟩
            rfl
      · have unvalued := not_exists.mp valued
        rw [lowValue_of_unvalued read unvalued, TokenFault.value_iff_of_unvalued unnamed unvalued]
        split <;> rw [Except.error.injEq, eq_comm]

namespace OperandTokens

variable {operands : OperandTokens} {place : Nat} {token : String}

def check (operands : OperandTokens) (table : SymbolTable) :
    OperandKind × Nat → Except EncodeError Unit
  | (.register, place) => (operands.register table place).map fun _ => ()
  | (.value, place) => (operands.value table place).map fun _ => ()

theorem check_of_absent (absent : operands.tokens[place]? = none) (table : SymbolTable)
    (kind : OperandKind) :
    operands.check table (kind, place) =
      .error (.missingOperand operands.mnemonic operands.arity (place + 1)) := by
  have missing : operands.token place =
      .error (.missingOperand operands.mnemonic operands.arity (place + 1)) := by
    simp [OperandTokens.token, absent]
  cases kind with
  | register => simp only [check, register, missing]; rfl
  | value => simp only [check, value, missing]; rfl

theorem check_eq_error_iff (found : operands.tokens[place]? = some token) (table : SymbolTable)
    (kind : OperandKind) (error : EncodeError) :
    operands.check table (kind, place) = .error error ↔ TokenFault table token kind error := by
  have present : operands.token place = .ok token := by simp [OperandTokens.token, found]
  cases kind with
  | register =>
      rw [check, Result.map_eq_error_iff, TokenFault.register_iff, register_eq_namedRegister,
        namedRegister, present]
      cases named : Register.ofToken? token with
      | some register => simp [bind, Except.bind, named]
      | none => simp [bind, Except.bind, named, eq_comm]
  | value =>
      rw [check, Result.map_eq_error_iff, Reading.value_eq_lowValue, present]
      exact Operand.lowValue_eq_error_iff table token error

end OperandTokens

def EncodingRule.operandKinds : EncodingRule → List OperandKind
  | bare _ => []
  | value _ => [.value]
  | register _ => [.register]
  | registerValue _ => [.register, .value]
  | registers _ => [.register, .register, .register]

theorem EncodingRule.length_operandKinds (rule : EncodingRule) :
    rule.operandKinds.length = rule.arity := by
  cases rule <;> rfl

theorem Mnemonic.operandKinds_of_rule? {mnemonic : Mnemonic} {rule : EncodingRule}
    (ruled : mnemonic.rule? = some rule) : rule.operandKinds = mnemonic.operandKinds := by
  cases mnemonic <;> cases ruled <;> rfl

theorem Mnemonic.exists_rule {mnemonic : Mnemonic} (marked : mnemonic.isImplemented = true) :
    ∃ rule, mnemonic.rule? = some rule ∧ rule.operandKinds = mnemonic.operandKinds ∧
      rule.arity = mnemonic.operandKinds.length := by
  rw [← isSome_rule?, Option.isSome_iff_exists] at marked
  obtain ⟨rule, ruled⟩ := marked
  have kinds := operandKinds_of_rule? ruled
  exact ⟨rule, ruled, kinds, by rw [← kinds, rule.length_operandKinds]⟩

namespace Instruction

variable {table : SymbolTable} {mnemonic : Mnemonic} {tokens : List String}

theorem bind_eq_error_iff_mapM_cons {α : Type} {read : Except EncodeError α}
    {next : α → Except EncodeError Instruction} {operands : OperandTokens}
    {place : OperandKind × Nat} {places : List (OperandKind × Nat)} {error : EncodeError}
    (checked : operands.check table place = read.map fun _ => ())
    (later : ∀ value, next value = .error error ↔
      places.mapM (operands.check table) = .error error) :
    (read >>= next) = .error error ↔
      (place :: places).mapM (operands.check table) = .error error := by
  rw [Result.mapM_cons_eq, checked]
  cases read with
  | error fault => simp [bind, Except.bind, Except.map]
  | ok value =>
      exact (later value).trans Result.map_eq_error_iff.symm

theorem build_eq_error_iff_mapM {rule : EncodingRule} (ruled : mnemonic.rule? = some rule)
    (few : tokens.length ≤ rule.arity) (error : EncodeError) :
    build table mnemonic tokens = .error error ↔
      rule.operandKinds.zipIdx.mapM (OperandTokens.check ⟨mnemonic, rule.arity, tokens⟩ table) =
        .error error := by
  simp only [build, ruled, if_neg (Nat.not_lt.mpr few)]
  generalize (⟨mnemonic, rule.arity, tokens⟩ : OperandTokens) = operands
  have made (instruction : Instruction) :
      (pure instruction : Except EncodeError Instruction) = .error error ↔
        [].mapM (operands.check table) = .error error := by
    simp [pure, Except.pure]
  cases rule with
  | bare instruction => exact made instruction
  | value make =>
      refine bind_eq_error_iff_mapM_cons rfl fun low => ?_
      exact made (make low)
  | register make =>
      refine bind_eq_error_iff_mapM_cons rfl fun only => ?_
      exact made (make only)
  | registerValue make =>
      refine bind_eq_error_iff_mapM_cons rfl fun only => ?_
      refine bind_eq_error_iff_mapM_cons rfl fun low => ?_
      exact made (make only low)
  | registers make =>
      refine bind_eq_error_iff_mapM_cons rfl fun target => ?_
      refine bind_eq_error_iff_mapM_cons rfl fun left => ?_
      refine bind_eq_error_iff_mapM_cons rfl fun right => ?_
      exact made (make target left right)

end Instruction

theorem placeFault_iff_check {table : SymbolTable} {mnemonic : Mnemonic} {tokens : List String}
    {place : Nat} {error : EncodeError} :
    PlaceFault table mnemonic tokens place error ↔
      ∃ kind, mnemonic.operandKinds[place]? = some kind ∧
        OperandTokens.check ⟨mnemonic, mnemonic.operandKinds.length, tokens⟩ table (kind, place) =
          .error error := by
  constructor
  · intro fault
    cases fault with
    | missing asked absent =>
        refine ⟨_, List.getElem?_eq_getElem asked, ?_⟩
        exact OperandTokens.check_of_absent (List.getElem?_eq_none absent) table _
    | unfit asked found fault =>
        exact ⟨_, asked, (OperandTokens.check_eq_error_iff found table _ error).mpr fault⟩
  · rintro ⟨kind, asked, failed⟩
    cases found : tokens[place]? with
    | none =>
        rw [OperandTokens.check_of_absent found, Except.error.injEq] at failed
        subst failed
        exact .missing (List.getElem?_eq_some_iff.mp asked).1 (List.getElem?_eq_none_iff.mp found)
    | some token =>
        have fault := (OperandTokens.check_eq_error_iff found table kind error).mp failed
        exact .unfit asked found fault

theorem firstFailure_check_iff (table : SymbolTable) (mnemonic : Mnemonic) (tokens : List String)
    (place : Nat) (error : EncodeError) :
    (∃ item, Result.FirstFailure
      (OperandTokens.check ⟨mnemonic, mnemonic.operandKinds.length, tokens⟩ table)
      mnemonic.operandKinds.zipIdx place item error) ↔
      FirstPlaceFault table mnemonic tokens place error := by
  simp only [Result.FirstFailure, List.getElem?_zipIdx, Nat.zero_add, Option.map_eq_some_iff]
  constructor
  · rintro ⟨_, ⟨kind, asked, rfl⟩, failed, before⟩
    refine ⟨placeFault_iff_check.mpr ⟨kind, asked, failed⟩, ?_⟩
    intro earlier below other fault
    obtain ⟨kind, asked, failed⟩ := placeFault_iff_check.mp fault
    obtain ⟨_, passed⟩ := before earlier below _ ⟨kind, asked, rfl⟩
    rw [failed] at passed
    simp at passed
  · rintro ⟨fault, first⟩
    obtain ⟨kind, asked, failed⟩ := placeFault_iff_check.mp fault
    refine ⟨_, ⟨kind, asked, rfl⟩, failed, ?_⟩
    rintro earlier below _ ⟨other, otherAsked, rfl⟩
    cases ended : OperandTokens.check ⟨mnemonic, mnemonic.operandKinds.length, tokens⟩ table
        (other, earlier) with
    | ok value => exact ⟨value, rfl⟩
    | error cause =>
        have fault := placeFault_iff_check.mpr ⟨other, otherAsked, ended⟩
        exact absurd fault (first earlier below cause)

namespace Instruction

variable {table : SymbolTable} {mnemonic : Mnemonic} {tokens : List String}

theorem build_eq_error_iff_placeFault (marked : mnemonic.isImplemented = true)
    (few : tokens.length ≤ mnemonic.operandKinds.length) (error : EncodeError) :
    build table mnemonic tokens = .error error ↔
      ∃ place, FirstPlaceFault table mnemonic tokens place error := by
  obtain ⟨rule, ruled, kinds, arity⟩ := Mnemonic.exists_rule marked
  rw [build_eq_error_iff_mapM ruled (by omega), kinds, arity, Result.mapM_eq_error_iff]
  simp only [firstFailure_check_iff]

theorem build_of_surplus (marked : mnemonic.isImplemented = true)
    (more : mnemonic.operandKinds.length < tokens.length) :
    build table mnemonic tokens =
      .error (.unexpectedOperand mnemonic mnemonic.operandKinds.length tokens.length) := by
  obtain ⟨rule, ruled, _, arity⟩ := Mnemonic.exists_rule marked
  simp only [build, ruled, arity, if_pos more]

theorem build_of_unmarked (unmarked : mnemonic.isImplemented = false) :
    build table mnemonic tokens = .error (.notImplemented mnemonic) := by
  rw [← mnemonic.isSome_rule?, Option.isSome_eq_false_iff, Option.isNone_iff_eq_none] at unmarked
  simp only [build, unmarked]

theorem ofTokens_name (table : SymbolTable) (mnemonic : Mnemonic) (tokens : List String) :
    ofTokens table mnemonic.name tokens = build table mnemonic tokens := by
  simp only [ofTokens, Mnemonic.ofName?_name]

theorem ofTokens_of_unlisted {name : String}
    (unlisted : ∀ mnemonic : Mnemonic, mnemonic.name ≠ name) :
    ofTokens table name tokens = .error (.unknownInstruction name) := by
  cases named : Mnemonic.ofName? name with
  | none => simp only [ofTokens, named]
  | some mnemonic =>
      have same := List.find?_some named
      exact absurd (beq_iff_eq.mp same) (unlisted mnemonic)

end Instruction

namespace PlaceFault

variable {table : SymbolTable} {mnemonic : Mnemonic} {tokens : List String} {place : Nat}
  {error : EncodeError}

theorem exists_first (fault : PlaceFault table mnemonic tokens place error) :
    ∃ first cause, FirstPlaceFault table mnemonic tokens first cause := by
  classical
  have faulty : ∃ place error, PlaceFault table mnemonic tokens place error := ⟨_, _, fault⟩
  obtain ⟨cause, first⟩ := Nat.find_spec faulty
  refine ⟨Nat.find faulty, cause, first, ?_⟩
  intro earlier below other otherFault
  exact Nat.find_min faulty below ⟨other, otherFault⟩

theorem kind_eq (fault : PlaceFault table mnemonic tokens place error) :
    error.kind = .operand ∨ error.kind = .range := by
  cases fault with
  | missing => exact .inl rfl
  | unfit _ _ fault =>
      cases fault with
      | outOfRange => exact .inr rfl
      | notRegister | register | undefined | malformed => exact .inl rfl

end PlaceFault

theorem Mnemonic.name_inj {first second : Mnemonic} (same : first.name = second.name) :
    first = second := by
  have found := ofName?_name first
  rw [same, ofName?_name second, Option.some.injEq] at found
  exact found.symm

theorem statementFault_name_iff (table : SymbolTable) (mnemonic : Mnemonic) (tokens : List String)
    (error : EncodeError) :
    StatementFault table mnemonic.name tokens error ↔
      if mnemonic.isImplemented then
        if mnemonic.operandKinds.length < tokens.length then
          error = .unexpectedOperand mnemonic mnemonic.operandKinds.length tokens.length
        else
          ∃ place, FirstPlaceFault table mnemonic tokens place error
      else error = .notImplemented mnemonic := by
  constructor
  · intro fault
    cases fault with
    | unknown unlisted => exact absurd rfl (unlisted mnemonic)
    | notImplemented named unmarked =>
        obtain rfl := Mnemonic.name_inj named
        rw [if_neg (by simp [unmarked])]
    | surplus named marked more =>
        obtain rfl := Mnemonic.name_inj named
        rw [if_pos marked, if_pos more]
    | operand named marked few first =>
        obtain rfl := Mnemonic.name_inj named
        rw [if_pos marked, if_neg (by omega)]
        exact ⟨_, first⟩
  · intro fault
    split at fault
    · rename_i marked
      split at fault
      · rename_i more
        subst fault
        exact .surplus rfl marked more
      · rename_i few
        obtain ⟨place, first⟩ := fault
        exact .operand rfl marked (by omega) first
    · rename_i unmarked
      subst fault
      exact .notImplemented rfl (by simpa using unmarked)

namespace Instruction

theorem ofTokens_eq_error_iff (table : SymbolTable) (name : String) (tokens : List String)
    (error : EncodeError) :
    ofTokens table name tokens = .error error ↔ StatementFault table name tokens error := by
  by_cases listed : ∃ mnemonic : Mnemonic, mnemonic.name = name
  · obtain ⟨mnemonic, rfl⟩ := listed
    rw [ofTokens_name, statementFault_name_iff]
    cases marked : mnemonic.isImplemented with
    | false => rw [build_of_unmarked marked, if_neg (by decide), Except.error.injEq, eq_comm]
    | true =>
        rw [if_pos rfl]
        by_cases more : mnemonic.operandKinds.length < tokens.length
        · rw [build_of_surplus marked more, if_pos more, Except.error.injEq, eq_comm]
        · rw [build_eq_error_iff_placeFault marked (by omega), if_neg more]
  · have unlisted := not_exists.mp listed
    rw [ofTokens_of_unlisted unlisted, Except.error.injEq]
    constructor
    · rintro rfl
      exact .unknown unlisted
    · intro fault
      cases fault with
      | unknown => rfl
      | notImplemented named | surplus named | operand named => exact absurd named (unlisted _)

theorem exists_ofTokens_eq_ok_iff (table : SymbolTable) (name : String) (tokens : List String) :
    (∃ instruction, ofTokens table name tokens = .ok instruction) ↔
      ∃ mnemonic : Mnemonic, mnemonic.name = name ∧ mnemonic.isImplemented = true ∧
        tokens.length ≤ mnemonic.operandKinds.length ∧
        ∀ place error, ¬PlaceFault table mnemonic tokens place error := by
  constructor
  · rintro ⟨instruction, built⟩
    have faultless (error : EncodeError) : ¬StatementFault table name tokens error := by
      rw [← ofTokens_eq_error_iff, built]
      simp
    by_cases listed : ∃ mnemonic : Mnemonic, mnemonic.name = name
    · obtain ⟨mnemonic, named⟩ := listed
      have marked : mnemonic.isImplemented = true := by
        by_contra unmarked
        exact faultless _ (.notImplemented named (by simpa using unmarked))
      have few : tokens.length ≤ mnemonic.operandKinds.length := by
        by_contra more
        exact faultless _ (.surplus named marked (by omega))
      refine ⟨mnemonic, named, marked, few, ?_⟩
      intro place error fault
      obtain ⟨_, cause, first⟩ := fault.exists_first
      exact faultless cause (.operand named marked few first)
    · exact absurd (.unknown (not_exists.mp listed)) (faultless _)
  · rintro ⟨mnemonic, rfl, marked, few, faultless⟩
    cases ended : ofTokens table mnemonic.name tokens with
    | ok instruction => exact ⟨instruction, rfl⟩
    | error error =>
        rw [ofTokens_name, build_eq_error_iff_placeFault marked few] at ended
        obtain ⟨place, fault, _⟩ := ended
        exact absurd fault (faultless place error)

/-- A statement without a word is answered with its first fault. -/
theorem word_ofTokens_names_first_fault (table : SymbolTable) (name : String)
    (tokens : List String) :
    NamesFirstFault table name tokens ((ofTokens table name tokens).map Instruction.word) := by
  have failed (error : EncodeError) :
      (ofTokens table name tokens).map Instruction.word = .error error ↔
        StatementFault table name tokens error := by
    rw [Result.map_eq_error_iff, ofTokens_eq_error_iff]
  refine ⟨failed, ?_, ?_, ?_⟩
  · rw [← exists_ofTokens_eq_ok_iff]
    simp only [Result.map_eq_ok_iff]
    constructor
    · rintro ⟨word, instruction, built, _⟩
      exact ⟨instruction, built⟩
    · rintro ⟨instruction, built⟩
      exact ⟨instruction.word, instruction, built, rfl⟩
  · intro other
    rw [failed]
    constructor
    · intro fault
      cases fault with
      | unknown unlisted => exact ⟨rfl, unlisted⟩
      | operand _ _ _ first => exact absurd first.1.kind_eq (by simp [EncodeError.kind])
    · rintro ⟨rfl, unlisted⟩
      exact .unknown unlisted
  · intro mnemonic
    rw [failed]
    constructor
    · intro fault
      cases fault with
      | notImplemented named unmarked => exact ⟨named, unmarked⟩
      | operand _ _ _ first => exact absurd first.1.kind_eq (by simp [EncodeError.kind])
    · rintro ⟨named, unmarked⟩
      exact .notImplemented named unmarked

-- Neither `R9` at the second place nor the missing third operand is told.
example : ofTokens ⟨[⟨"far", 64, 1⟩], by decide⟩ "ADD" ["far", "R9"] =
    .error (.expectedRegister "far") := rfl

end Instruction

end TwoPass
