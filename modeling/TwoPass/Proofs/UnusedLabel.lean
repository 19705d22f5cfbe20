import TwoPass.Proofs.SecondPass

/-!
A label that no operand means. One more label among the statements moves no address, and an operand
means it only if it is spelled alike and names no register. Without such an operand the run goes the
same way, and its table has one symbol more.
-/

namespace TwoPass

def SymbolTable.Gains (table larger : SymbolTable) (symbol : Symbol) : Prop :=
  ∃ earlier later, table.symbols = earlier ++ later ∧ larger.symbols = earlier ++ symbol :: later

namespace SymbolTable.Gains

variable {table larger : SymbolTable} {symbol : Symbol} {label : String}

theorem find?_eq (gains : table.Gains larger symbol) (other : label ≠ symbol.label) :
    larger.find? label = table.find? label := by
  obtain ⟨earlier, later, symbols, largerSymbols⟩ := gains
  simp [find?, symbols, largerSymbols, List.find?_append, Ne.symm other]

theorem resolve?_eq (gains : table.Gains larger symbol) (other : label ≠ symbol.label) :
    larger.resolve? label = table.resolve? label := by
  rw [resolve?, resolve?, gains.find?_eq other]

theorem bind_alike (gains : table.Gains larger symbol) (other : label ≠ symbol.label)
    (address : UInt32) (line : Nat) :
    Result.Alike (fun next largerNext => Gains next largerNext symbol)
      (table.bind label address line) (larger.bind label address line) := by
  have same := gains.find?_eq other
  cases found : table.find? label with
  | some first =>
      rw [found] at same
      rw [bind_of_find?_eq_some found, bind_of_find?_eq_some same]
      exact .error _
  | none =>
      rw [found] at same
      obtain ⟨next, bound, nextSymbols⟩ := bind_of_find?_eq_none found address line
      obtain ⟨largerNext, largerBound, largerNextSymbols⟩ :=
        bind_of_find?_eq_none same address line
      obtain ⟨earlier, later, symbols, largerSymbols⟩ := gains
      rw [bound, largerBound]
      refine .ok ⟨earlier, later ++ [⟨label, address, line⟩], ?_, ?_⟩
      · rw [nextSymbols, symbols, List.append_assoc]
      · rw [largerNextSymbols, largerSymbols, List.append_assoc, List.cons_append]

end SymbolTable.Gains

namespace Layout

theorem bindLabels_append (table : SymbolTable) (before : Nat) (first second : List Statement) :
    bindLabels table before.toUInt32 (first ++ second) =
      (bindLabels table before.toUInt32 first).bind fun reached =>
        bindLabels reached (before + addressCount first).toUInt32 second := by
  induction first generalizing table before with
  | nil => rfl
  | cons statement rest ih =>
      have count : addressCount (statement :: rest) =
          addressCount [statement] + addressCount rest := addressCount_append [statement] rest
      rcases bindLabels_step table before statement with ⟨next, _, goesOn⟩ | ⟨_, _, _, _, ends⟩
      · rw [List.cons_append, goesOn, goesOn, ih, count, Nat.add_assoc]
      · rw [List.cons_append, ends, ends]
        rfl

theorem bindLabels_alike {table larger : SymbolTable} {symbol : Symbol}
    {statements : List Statement} (gains : table.Gains larger symbol)
    (fresh : symbol.label ∉ labels statements) (address : UInt32) :
    Result.Alike (fun reached largerReached => SymbolTable.Gains reached largerReached symbol)
      (bindLabels table address statements) (bindLabels larger address statements) := by
  induction statements generalizing table larger address with
  | nil => exact .ok gains
  | cons statement rest ih =>
      rw [bindLabels, bindLabels]
      cases named : statement.label with
      | none =>
          have freshRest : symbol.label ∉ labels rest := by
            simpa [labels, named] using fresh
          exact ih gains freshRest _
      | some label =>
          obtain ⟨other, freshRest⟩ : symbol.label ≠ label ∧ symbol.label ∉ labels rest := by
            simpa [labels, named] using fresh
          have step := gains.bind_alike other.symm address statement.line
          simp only
          generalize table.bind label address statement.line = bound at step ⊢
          generalize larger.bind label address statement.line = largerBound at step ⊢
          cases step with
          | error error => exact .error error
          | ok gainsNext => exact ih gainsNext freshRest _

theorem bindLabels_labelOnly (table : SymbolTable) (address : UInt32) (line : Nat) (label : String)
    (rest : List Statement) :
    bindLabels table address (Statement.labelOnly line label :: rest) =
      (table.bind label address line).bind fun next => bindLabels next address rest := by
  rw [bindLabels]
  simp only [Statement.labelOnly]
  cases table.bind label address line <;> rfl

theorem bindLabels_insert_labelOnly {first second : List Statement} {label : String}
    (fresh : label ∉ labels (first ++ second)) (line : Nat) :
    Result.Alike
      (fun table larger => SymbolTable.Gains table larger
        ⟨label, (addressCount first).toUInt32, line⟩)
      (bindLabels .empty 0 (first ++ second))
      (bindLabels .empty 0 (first ++ Statement.labelOnly line label :: second)) := by
  obtain ⟨freshFirst, freshSecond⟩ : label ∉ labels first ∧ label ∉ labels second := by
    simpa [labels] using fresh
  have split (rest : List Statement) : bindLabels .empty 0 (first ++ rest) =
      (bindLabels .empty 0 first).bind fun reached =>
        bindLabels reached (addressCount first).toUInt32 rest := by
    simpa using bindLabels_append .empty 0 first rest
  rw [split, split]
  cases ended : bindLabels .empty 0 first with
  | error error => exact .error error
  | ok reached =>
      have symbols := (bindLabels_eq_ok_iff first reached).mp ended
      have unbound : reached.find? label = none := by
        rw [SymbolTable.find?_eq_none_iff, symbols, map_label_definitions]
        exact freshFirst
      obtain ⟨next, bound, nextSymbols⟩ :=
        SymbolTable.bind_of_find?_eq_none unbound (addressCount first).toUInt32 line
      have gains : reached.Gains next ⟨label, (addressCount first).toUInt32, line⟩ :=
        ⟨reached.symbols, [], by simp, nextSymbols⟩
      simp only [Except.bind, bindLabels_labelOnly, bound]
      exact bindLabels_alike gains freshSecond _

theorem place_insert_labelOnly (first second : List Statement) (line : Nat) (label : String) :
    place (first ++ Statement.labelOnly line label :: second) = place (first ++ second) := by
  simp [place, code, Statement.labelOnly, Statement.isPlaced]

end Layout

theorem PlacedStatement.encode_congr {placed : PlacedStatement} {table other : SymbolTable}
    (agree : ∀ token, placed.statement.valueToken? = some token → Register.ofToken? token = none →
      table.resolve? token = other.resolve? token) :
    placed.encode table = placed.encode other := by
  rw [encode_eq, encode_eq, Statement.encode_congr agree]

namespace Assembler

/-- One more label, which is not taken yet and which no operand means, changes no instruction and no
error. On success the table has it besides, at the number of addresses taken before it. -/
theorem assembleStatements_insert_labelOnly (config : Config) (first second : List Statement)
    (line : Nat) (label : String) (fresh : label ∉ labels (first ++ second))
    (unused : (Register.ofToken? label).isSome ∨
      ∀ statement ∈ first ++ second, label ∉ statement.operands) :
    Result.Alike
      (fun program larger => larger.instructions = program.instructions ∧
        program.symbols.Gains larger.symbols ⟨label, (addressCount first).toUInt32, line⟩)
      (({ config } : Assembler).assembleStatements (first ++ second))
      (({ config } : Assembler).assembleStatements
        (first ++ Statement.labelOnly line label :: second)) := by
  have bound := Layout.bindLabels_insert_labelOnly fresh line
  rw [assembleStatements_default, assembleStatements_default, Layout.place_insert_labelOnly]
  generalize Layout.bindLabels .empty 0 (first ++ second) = result at bound ⊢
  generalize Layout.bindLabels .empty 0
    (first ++ Statement.labelOnly line label :: second) = largerResult at bound ⊢
  cases bound with
  | error error => exact .error error
  | @ok table larger gains =>
      have encodes : (Layout.place (first ++ second)).mapM (PlacedStatement.encode larger) =
          (Layout.place (first ++ second)).mapM (PlacedStatement.encode table) := by
        apply Result.mapM_congr
        intro placed member
        apply PlacedStatement.encode_congr
        intro token operand notRegister
        apply gains.resolve?_eq
        rintro rfl
        -- An operand spelled like the label is excluded, unless it stands for a register.
        rcases unused with register | absent
        · simp [notRegister] at register
        · exact absent placed.statement (Layout.mem_of_mem_place member)
            (Statement.mem_operands_of_valueToken? operand)
      simp only [encodes]
      cases (Layout.place (first ++ second)).mapM (PlacedStatement.encode table) with
      | error error => exact .error error
      | ok instructions => exact .ok ⟨rfl, gains⟩

theorem assembleStatements_insert_labelOnly_register :
    ∃ larger,
      ({} : Assembler).assembleStatements
        ([⟨1, some "LOADI", ["R1", "7"], none⟩] ++ Statement.labelOnly 9 "R1" ::
          [⟨2, some "JUMP", ["end"], none⟩, ⟨3, some "HALT", [], some "end"⟩]) = .ok larger ∧
      larger.instructions = [⟨0, 0x0207, 1⟩, ⟨1, 0xC002, 2⟩, ⟨2, 0xF000, 3⟩] ∧
      SymbolTable.Gains ⟨[⟨"end", 2, 3⟩], by decide⟩ larger.symbols ⟨"R1", 1, 9⟩ :=
  (assembleStatements_insert_labelOnly {} [⟨1, some "LOADI", ["R1", "7"], none⟩]
    [⟨2, some "JUMP", ["end"], none⟩, ⟨3, some "HALT", [], some "end"⟩] 9 "R1" (by decide)
    (.inl rfl)).exists_of_ok

end Assembler

end TwoPass
