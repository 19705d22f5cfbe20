import TwoPass.Proofs.SecondPass

/-!
Renaming labels. A token is a register, else a label, else a literal, so a renaming that keeps
names apart, and keeps every register and every operand that is no label as it is, leaves each token
in its class. The run then goes the same way, up to the names that it carries.
-/

namespace TwoPass

namespace Statement

def rename (change : String → String) (statement : Statement) : Statement :=
  { statement with
    operands := statement.operands.map change
    label := statement.label.map change }

end Statement

def Symbol.rename (change : String → String) (symbol : Symbol) : Symbol :=
  { symbol with label := change symbol.label }

def SymbolTable.rename (table : SymbolTable) (change : String → String)
    (injective : Function.Injective change) : SymbolTable where
  symbols := table.symbols.map (Symbol.rename change)
  distinct := by
    have apart := List.pairwise_map.mp table.distinct
    rw [List.map_map, List.nodup_iff_pairwise_ne, List.pairwise_map]
    exact apart.imp fun different same => different (injective same)

def Program.rename (program : Program) (change : String → String)
    (injective : Function.Injective change) : Program :=
  { program with symbols := program.symbols.rename change injective }

/-- The same error about the renamed token. Names of mnemonics and of registers stay. -/
def EncodeError.rename (change : String → String) : EncodeError → EncodeError
  | expectedRegister token => expectedRegister (change token)
  | malformedOperand token => malformedOperand (change token)
  | undefinedLabel token => undefinedLabel (change token)
  | error => error

def AssemblyError.rename (change : String → String) : AssemblyError → AssemblyError
  | duplicateLabel label line firstLine => duplicateLabel (change label) line firstLine
  | encode address line cause => encode address line (cause.rename change)
  | error => error

def Reading.rename (change : String → String) : Reading → Reading
  | complete instruction => complete instruction
  | pending token make => pending (change token) make

theorem OperandTokens.token_rename (operands : OperandTokens) (change : String → String)
    (index : Nat) :
    ({ operands with tokens := operands.tokens.map change } : OperandTokens).token index =
      ((operands.token index).map change).mapError (EncodeError.rename change) := by
  unfold token
  cases found : operands.tokens[index]? with
  | none => simp [found, Except.map, EncodeError.rename]
  | some token => simp [found, Except.map]

section

variable {change : String → String} (injective : Function.Injective change)

include injective

theorem SymbolTable.find?_rename (table : SymbolTable) (label : String) :
    (table.rename change injective).find? (change label) =
      (table.find? label).map (Symbol.rename change) := by
  have sameName (symbol : Symbol) :
      ((symbol.rename change).label == change label) = (symbol.label == label) := by
    rw [Bool.eq_iff_iff, beq_iff_eq, beq_iff_eq]
    exact ⟨fun same => injective same, fun same => congrArg change same⟩
  simp only [find?, rename, List.find?_map, Function.comp_def, sameName]

theorem SymbolTable.resolve?_rename (table : SymbolTable) (label : String) :
    (table.rename change injective).resolve? (change label) = table.resolve? label := by
  rw [resolve?, table.find?_rename injective, Option.map_map, resolve?]
  rfl

theorem SymbolTable.bind_rename (table : SymbolTable) (label : String) (address : UInt32)
    (line : Nat) :
    (table.rename change injective).bind (change label) address line =
      ((table.bind label address line).map (·.rename change injective)).mapError
        (AssemblyError.rename change) := by
  have renamed := table.find?_rename injective label
  cases found : table.find? label with
  | some first =>
      rw [found] at renamed
      rw [bind_of_find?_eq_some found, bind_of_find?_eq_some renamed]
      rfl
  | none =>
      rw [found] at renamed
      obtain ⟨extended, success, symbols⟩ := bind_of_find?_eq_none found address line
      obtain ⟨other, otherSuccess, otherSymbols⟩ := bind_of_find?_eq_none renamed address line
      rw [success, otherSuccess]
      change Except.ok other = Except.ok (extended.rename change injective)
      rw [Except.ok.injEq]
      apply eq_of_symbols_eq
      simp [otherSymbols, rename, symbols, Symbol.rename]

theorem Layout.bindLabels_rename (table : SymbolTable) (address : UInt32)
    (statements : List Statement) :
    bindLabels (table.rename change injective) address
        (statements.map (Statement.rename change)) =
      ((bindLabels table address statements).map (·.rename change injective)).mapError
        (AssemblyError.rename change) := by
  induction statements generalizing table address with
  | nil => rfl
  | cons statement rest ih =>
      have placed : (statement.rename change).isPlaced = statement.isPlaced := rfl
      rw [List.map_cons, bindLabels, bindLabels, placed]
      cases named : statement.label with
      | none =>
          simp only [Statement.rename, named, Option.map_none]
          exact ih table _
      | some label =>
          simp only [Statement.rename, named, Option.map_some, table.bind_rename injective]
          cases table.bind label address statement.line with
          | error error => rfl
          | ok extended => exact ih extended _

variable (registers : ∀ token, (Register.ofToken? token).isSome → change token = token)

include registers

theorem Register.ofToken?_rename (token : String) :
    Register.ofToken? (change token) = Register.ofToken? token := by
  cases named : Register.ofToken? token with
  | some register => rw [registers token (by simp [named]), named]
  | none =>
      cases renamed : Register.ofToken? (change token) with
      | none => rfl
      | some register =>
          have fixed := registers (change token) (by simp [renamed])
          rw [injective fixed, named] at renamed
          simp at renamed

theorem OperandTokens.namedRegister_rename (operands : OperandTokens) (index : Nat) :
    ({ operands with tokens := operands.tokens.map change } : OperandTokens).namedRegister index =
      (operands.namedRegister index).mapError (EncodeError.rename change) := by
  unfold namedRegister token
  cases found : operands.tokens[index]? with
  | none => simp [found, bind, Except.bind, EncodeError.rename]
  | some token =>
      simp only [List.getElem?_map, found, Option.map_some, bind, Except.bind,
        Register.ofToken?_rename injective registers]
      cases Register.ofToken? token <;> rfl

theorem Reading.ofRule_rename (operands : OperandTokens) (rule : EncodingRule) :
    ofRule { operands with tokens := operands.tokens.map change } rule =
      ((ofRule operands rule).map (Reading.rename change)).mapError
        (EncodeError.rename change) := by
  have register := operands.namedRegister_rename injective registers
  have token := operands.token_rename change
  cases rule with
  | bare instruction => rfl
  | value make =>
      simp only [ofRule, token]
      cases operands.token 0 <;> rfl
  | register make =>
      simp only [ofRule, register]
      cases operands.namedRegister 0 <;> rfl
  | registerValue make =>
      simp only [ofRule, register, token]
      cases operands.namedRegister 0 with
      | error error => rfl
      | ok target => cases operands.token 1 <;> rfl
  | registers make =>
      simp only [ofRule, register]
      cases operands.namedRegister 0 with
      | error error => rfl
      | ok target =>
          cases operands.namedRegister 1 with
          | error error => rfl
          | ok left => cases operands.namedRegister 2 <;> rfl

theorem Reading.ofTokens_rename (name : String) (tokens : List String) :
    ofTokens name (tokens.map change) =
      ((ofTokens name tokens).map (Reading.rename change)).mapError
        (EncodeError.rename change) := by
  unfold ofTokens
  cases Mnemonic.ofName? name with
  | none => rfl
  | some mnemonic =>
      simp only
      cases mnemonic.rule? with
      | none => rfl
      | some rule =>
          simp only [List.length_map]
          split
          · rfl
          · exact ofRule_rename injective registers ⟨mnemonic, rule.arity, tokens⟩ rule

theorem Operand.lowValue_rename (table : SymbolTable) (token : String)
    (kept : table.resolve? token = none → change token = token) :
    lowValue (table.rename change injective) (change token) =
      (lowValue table token).mapError (EncodeError.rename change) := by
  have sameRegister := Register.ofToken?_rename injective registers token
  have sameAddress := table.resolve?_rename injective token
  cases named : Register.ofToken? token with
  | some register =>
      rw [named] at sameRegister
      rw [lowValue_of_register named, lowValue_of_register sameRegister]
      rfl
  | none =>
      rw [named] at sameRegister
      cases bound : table.resolve? token with
      | some address =>
          rw [bound] at sameAddress
          rw [lowValue_of_label named bound, lowValue_of_label sameRegister sameAddress]
          split <;> rfl
      | none =>
          have fixed := kept bound
          rw [bound, fixed] at sameAddress
          have same : lowValue (table.rename change injective) token = lowValue table token :=
            lowValue_congr fun _ => sameAddress.trans bound.symm
          rw [fixed, same]
          simp only [lowValue, resolve, named, bound, bind, Except.bind]
          cases Literal.value? token with
          | none =>
              cases looksLikeName token with
              | true => simp [EncodeError.rename, fixed]
              | false => simp [EncodeError.rename, fixed]
          | some value =>
              simp only [asValue]
              split <;> rfl

theorem Statement.encode_rename (table : SymbolTable) (statement : Statement)
    (kept : ∀ token ∈ statement.operands, table.resolve? token = none → change token = token) :
    (statement.rename change).encode (table.rename change injective) =
      (statement.encode table).mapError (EncodeError.rename change) := by
  have renamed : (statement.rename change).read =
      (statement.read.map (Reading.rename change)).mapError (EncodeError.rename change) :=
    Reading.ofTokens_rename injective registers statement.name statement.operands
  cases read : statement.read with
  | error error =>
      rw [read] at renamed
      rw [encode_eq_read, encode_eq_read, renamed, read]
      rfl
  | ok reading =>
      rw [read] at renamed
      cases reading with
      | complete instruction =>
          rw [encode_of_complete read, encode_of_complete renamed]
          rfl
      | pending token make =>
          have operand := mem_operands_of_valueToken? (valueToken?_of_pending read)
          have value := Operand.lowValue_rename injective registers table token (kept token operand)
          rw [encode_of_pending read, encode_of_pending renamed, value]
          cases Operand.lowValue table token <;> rfl

theorem PlacedStatement.encode_rename (table : SymbolTable) (placed : PlacedStatement)
    (kept : ∀ token ∈ placed.statement.operands,
      table.resolve? token = none → change token = token) :
    PlacedStatement.encode (table.rename change injective)
        ⟨placed.address, placed.statement.rename change⟩ =
      (placed.encode table).mapError (AssemblyError.rename change) := by
  have encoded := placed.statement.encode_rename injective registers table kept
  rw [encode_eq, encode_eq]
  simp only [encoded]
  cases placed.statement.encode table <;> rfl

end

namespace Assembler

/-- A renaming of labels leaves every word, address and line as it is, and renames the labels in
the table. A run that fails fails in the same way, about the renamed token. -/
theorem assembleStatements_rename (config : Config) (change : String → String)
    (statements : List Statement) (injective : Function.Injective change)
    (registers : ∀ token, (Register.ofToken? token).isSome → change token = token)
    (others : ∀ statement ∈ statements, ∀ token ∈ statement.operands,
      token ∉ labels statements → change token = token) :
    ({ config } : Assembler).assembleStatements (statements.map (Statement.rename change)) =
      ((({ config } : Assembler).assembleStatements statements).map
        (·.rename change injective)).mapError (AssemblyError.rename change) := by
  have lowers : ({ config } : Assembler).frontEnd statements = .ok statements := rfl
  have lowersRenamed : ({ config } : Assembler).frontEnd
      (statements.map (Statement.rename change)) =
        .ok (statements.map (Statement.rename change)) := rfl
  have bound := Layout.bindLabels_rename injective .empty 0 statements
  change Layout.bindLabels .empty 0 _ = _ at bound
  rw [assembleStatements_of_frontEnd lowers, assembleStatements_of_frontEnd lowersRenamed, bound]
  cases ended : Layout.bindLabels .empty 0 statements with
  | error error => rfl
  | ok table =>
      have symbols := (Layout.bindLabels_eq_ok_iff statements table).mp ended
      have encoded := Result.mapM_map_eq_mapError (PlacedStatement.encode table)
        (PlacedStatement.encode (table.rename change injective))
        (fun placed => ⟨placed.address, placed.statement.rename change⟩)
        (AssemblyError.rename change) (Layout.place statements) ?_
      · simp only [Except.map, Result.mapError_ok]
        rw [Layout.place_map (Statement.rename change) rfl, encoded]
        cases (Layout.place statements).mapM (PlacedStatement.encode table) <;> rfl
      · intro placed member
        apply PlacedStatement.encode_rename injective registers table placed
        intro token operand unbound
        apply others placed.statement (Layout.mem_of_mem_place member) token operand
        rw [SymbolTable.resolve?_eq_none_iff, symbols, map_label_definitions] at unbound
        exact unbound

theorem assembleStatements_rename_to_numeral :
    ({} : Assembler).assembleStatements
      ([⟨1, some "JUMP", ["loop"], some "loop"⟩, ⟨2, some "LOADI", ["R1", "7"], none⟩].map
        (Statement.rename fun token =>
          if token = "loop" then "5" else if token = "5" then "loop" else token)) =
      .ok ⟨⟨[⟨"5", 0, 1⟩], by decide⟩, [⟨0, 0xC000, 1⟩, ⟨1, 0x0207, 2⟩]⟩ := by
  refine (assembleStatements_rename {} _ _ ?_ ?_ ?_).trans rfl
  · intro left right same
    grind
  · intro token named
    have label : token ≠ "loop" := by
      rintro rfl
      simp [show Register.ofToken? "loop" = none from rfl] at named
    have numeral : token ≠ "5" := by
      rintro rfl
      simp [show Register.ofToken? "5" = none from rfl] at named
    simp [label, numeral]
  · decide

end Assembler

end TwoPass
