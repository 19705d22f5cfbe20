import TwoPass.Layout

/-!
What the first pass makes of any statements. Its one loop is taken apart into the labels that it
binds and the statements that it places, which share no more than the counter of addresses. Every
label stands for the number of addresses taken before its statement, and the pass ends early exactly
at the first label that has been used before.
-/

namespace TwoPass

namespace SymbolTable

theorem eq_of_symbols_eq {left right : SymbolTable} (same : left.symbols = right.symbols) :
    left = right := by
  cases left
  cases right
  simpa using same

theorem find?_eq_some_iff (table : SymbolTable) (label : String) (symbol : Symbol) :
    table.find? label = some symbol ↔ symbol ∈ table.symbols ∧ symbol.label = label := by
  constructor
  · intro found
    exact ⟨List.mem_of_find?_eq_some found, by simpa using List.find?_some found⟩
  · rintro ⟨member, named⟩
    cases found : table.find? label with
    | none =>
        have absent := (table.find?_eq_none_iff label).mp found
        exact (absent (List.mem_map.mpr ⟨symbol, member, named⟩)).elim
    | some other =>
        have otherMember : other ∈ table.symbols := List.mem_of_find?_eq_some found
        have otherNamed : other.label = label := by simpa using List.find?_some found
        obtain ⟨first, firstFound⟩ := List.mem_iff_getElem?.mp member
        obtain ⟨second, secondFound⟩ := List.mem_iff_getElem?.mp otherMember
        have sameLabel : (table.symbols.map Symbol.label)[first]? =
            (table.symbols.map Symbol.label)[second]? := by
          simp [firstFound, secondFound, named, otherNamed]
        have inside : first < (table.symbols.map Symbol.label).length := by
          rw [List.length_map]
          exact (List.getElem?_eq_some_iff.mp firstFound).1
        have same := (List.getElem?_inj inside table.distinct).mp sameLabel
        rw [← secondFound, ← same]
        exact firstFound

theorem resolve?_eq_some_iff (table : SymbolTable) (label : String) (address : UInt32) :
    table.resolve? label = some address ↔
      ∃ symbol ∈ table.symbols, symbol.label = label ∧ symbol.address = address := by
  simp only [resolve?, Option.map_eq_some_iff, find?_eq_some_iff, and_assoc]

theorem resolve?_eq_none_iff (table : SymbolTable) (label : String) :
    table.resolve? label = none ↔ label ∉ table.symbols.map Symbol.label := by
  rw [resolve?, Option.map_eq_none_iff, find?_eq_none_iff]

end SymbolTable

def labels (statements : List Statement) : List String :=
  statements.filterMap Statement.label

def code (statements : List Statement) : List Statement :=
  statements.filter Statement.isPlaced

theorem length_code (statements : List Statement) :
    (code statements).length = addressCount statements := by
  simp [code, addressCount, List.countP_eq_length_filter]

theorem addressCount_append (first second : List Statement) :
    addressCount (first ++ second) = addressCount first + addressCount second :=
  List.countP_append

theorem code_append (first second : List Statement) :
    code (first ++ second) = code first ++ code second :=
  List.filter_append first second

theorem getElem?_code_append_right (first second : List Statement) (index : Nat) :
    (code (first ++ second))[addressCount first + index]? = (code second)[index]? := by
  rw [code_append, ← length_code first, List.getElem?_append_right (by omega),
    Nat.add_sub_cancel_left]

/-- The symbols that statements define, if `before` addresses are taken before them. -/
def definitions (before : Nat) : List Statement → List Symbol
  | [] => []
  | statement :: rest =>
      (statement.label.map fun label => ⟨label, before.toUInt32, statement.line⟩).toList
        ++ definitions (before + addressCount [statement]) rest

theorem definitions_append (before : Nat) (first second : List Statement) :
    definitions before (first ++ second) =
      definitions before first ++ definitions (before + addressCount first) second := by
  induction first generalizing before with
  | nil => simp [definitions, addressCount]
  | cons statement rest ih =>
      have count : addressCount (statement :: rest) =
          addressCount [statement] + addressCount rest := addressCount_append [statement] rest
      simp only [List.cons_append, definitions, ih, count, List.append_assoc, Nat.add_assoc]

theorem map_label_definitions (before : Nat) (statements : List Statement) :
    (definitions before statements).map Symbol.label = labels statements := by
  induction statements generalizing before with
  | nil => rfl
  | cons statement rest ih =>
      cases named : statement.label with
      | none => simp [definitions, labels, named, ih]
      | some label => simp [definitions, labels, named, ih]

theorem mem_definitions_iff (before : Nat) (statements : List Statement) (symbol : Symbol) :
    symbol ∈ definitions before statements ↔
      ∃ (index : Nat) (statement : Statement), statements[index]? = some statement ∧
        statement.label = some symbol.label ∧ statement.line = symbol.line ∧
        symbol.address = (before + addressCount (statements.take index)).toUInt32 := by
  induction statements generalizing before with
  | nil => simp [definitions]
  | cons first rest ih =>
      have count (index : Nat) : addressCount (first :: rest.take index) =
          addressCount [first] + addressCount (rest.take index) :=
        addressCount_append [first] (rest.take index)
      simp only [definitions, List.mem_append, ih]
      constructor
      · rintro (head | ⟨index, statement, found, named, line, address⟩)
        · simp only [Option.mem_toList, Option.map_eq_some_iff] at head
          obtain ⟨label, named, rfl⟩ := head
          exact ⟨0, first, rfl, named, rfl, by simp [addressCount]⟩
        · refine ⟨index + 1, statement, by simpa using found, named, line, ?_⟩
          rw [List.take_succ_cons, count, ← Nat.add_assoc]
          exact address
      · rintro ⟨index, statement, found, named, line, address⟩
        cases index with
        | zero =>
            left
            simp only [List.getElem?_cons_zero, Option.some.injEq] at found
            subst statement
            simp only [Option.mem_toList, Option.map_eq_some_iff]
            refine ⟨symbol.label, named, ?_⟩
            cases symbol
            simp_all [addressCount]
        | succ index =>
            right
            refine ⟨index, statement, by simpa using found, named, line, ?_⟩
            rw [List.take_succ_cons, count, ← Nat.add_assoc] at address
            exact address

theorem position_unique {statements : List Statement} {label : String} {left right : Nat}
    {first second : Statement} (distinct : (labels statements).Nodup)
    (leftFound : statements[left]? = some first) (leftNamed : first.label = some label)
    (rightFound : statements[right]? = some second) (rightNamed : second.label = some label) :
    left = right := by
  rw [labels, List.nodup_iff_pairwise_ne, List.pairwise_filterMap, List.pairwise_iff_getElem]
    at distinct
  obtain ⟨leftBound, leftEq⟩ := List.getElem?_eq_some_iff.mp leftFound
  obtain ⟨rightBound, rightEq⟩ := List.getElem?_eq_some_iff.mp rightFound
  rcases Nat.lt_trichotomy left right with before | same | after
  · exact (distinct left right leftBound rightBound before label (leftEq ▸ leftNamed) label
      (rightEq ▸ rightNamed) rfl).elim
  · exact same
  · exact (distinct right left rightBound leftBound after label (rightEq ▸ rightNamed) label
      (leftEq ▸ leftNamed) rfl).elim

theorem addressCount_take_le (statements : List Statement) (index : Nat) :
    addressCount (statements.take index) ≤ addressCount statements :=
  (List.take_sublist index statements).countP_le

theorem resolve?_of_label {statements : List Statement} {table : SymbolTable}
    (symbols : table.symbols = definitions 0 statements) {position : Nat} {carrier : Statement}
    {label : String} (found : statements[position]? = some carrier)
    (named : carrier.label = some label) :
    table.resolve? label = some (addressCount (statements.take position)).toUInt32 := by
  rw [SymbolTable.resolve?_eq_some_iff]
  refine ⟨⟨label, (addressCount (statements.take position)).toUInt32, carrier.line⟩, ?_, rfl, rfl⟩
  rw [symbols, mem_definitions_iff]
  exact ⟨position, carrier, found, named, rfl, by simp⟩

theorem address_le_of_resolve? {statements : List Statement} {table : SymbolTable}
    (symbols : table.symbols = definitions 0 statements) {label : String} {address : UInt32}
    (bound : table.resolve? label = some address) : address.toNat ≤ addressCount statements := by
  obtain ⟨symbol, member, _, rfl⟩ := (table.resolve?_eq_some_iff label address).mp bound
  rw [symbols, mem_definitions_iff] at member
  obtain ⟨index, _, _, _, _, same⟩ := member
  have below := addressCount_take_le statements index
  rw [same, Nat.zero_add]
  exact Nat.le_trans (Nat.mod_le _ _) below

theorem labels_nodup_of_symbols {statements : List Statement} {table : SymbolTable}
    (symbols : table.symbols = definitions 0 statements) : (labels statements).Nodup := by
  rw [← map_label_definitions 0, ← symbols]
  exact table.distinct

def RepeatsLabel (statements : List Statement) (position : Nat) : Prop :=
  ∃ statement label, statements[position]? = some statement ∧ statement.label = some label ∧
    label ∈ labels (statements.take position)

/-- The first statement that repeats a label stands on `line`, and the one statement before it with
that label on `firstLine`. -/
def FirstRepeat (statements : List Statement) (label : String) (line firstLine : Nat) : Prop :=
  ∃ earlier position first second,
    earlier < position ∧ statements[earlier]? = some first ∧ first.label = some label ∧
    first.line = firstLine ∧ statements[position]? = some second ∧ second.label = some label ∧
    second.line = line ∧ (∀ before < position, ¬RepeatsLabel statements before) ∧
    ∀ other < position, ∀ third, statements[other]? = some third → third.label = some label →
      other = earlier

theorem mem_labels_take_iff (statements : List Statement) (position : Nat) (label : String) :
    label ∈ labels (statements.take position) ↔
      ∃ earlier < position, ∃ first, statements[earlier]? = some first ∧
        first.label = some label := by
  rw [labels, List.mem_filterMap]
  constructor
  · rintro ⟨first, member, named⟩
    obtain ⟨earlier, found⟩ := List.mem_iff_getElem?.mp member
    rw [List.getElem?_take] at found
    split at found
    · exact ⟨earlier, by assumption, first, found, named⟩
    · simp at found
  · rintro ⟨earlier, below, first, found, named⟩
    refine ⟨first, List.mem_iff_getElem?.mpr ⟨earlier, ?_⟩, named⟩
    rw [List.getElem?_take, if_pos below]
    exact found

theorem not_repeatsLabel_of_nodup {statements later : List Statement}
    (distinct : (labels statements).Nodup) {position : Nat}
    (inside : position < statements.length) : ¬RepeatsLabel (statements ++ later) position := by
  rintro ⟨second, label, found, named, before⟩
  obtain ⟨earlier, below, first, firstFound, firstNamed⟩ :=
    (mem_labels_take_iff _ _ _).mp before
  rw [List.getElem?_append_left (by omega)] at found firstFound
  have same := position_unique distinct firstFound firstNamed found named
  omega

theorem FirstRepeat.unique {statements : List Statement} {label other : String}
    {line firstLine otherLine otherFirst : Nat}
    (left : FirstRepeat statements label line firstLine)
    (right : FirstRepeat statements other otherLine otherFirst) :
    label = other ∧ line = otherLine ∧ firstLine = otherFirst := by
  obtain ⟨earlier, position, first, second, below, firstFound, firstNamed, rfl, found, named, rfl,
    least, only⟩ := left
  obtain ⟨start, place, third, fourth, startBelow, thirdFound, thirdNamed, rfl, fourthFound,
    fourthNamed, rfl, placeLeast, _⟩ := right
  have repeats : RepeatsLabel statements position :=
    ⟨second, label, found, named, (mem_labels_take_iff _ _ _).mpr
      ⟨earlier, below, first, firstFound, firstNamed⟩⟩
  have placeRepeats : RepeatsLabel statements place :=
    ⟨fourth, other, fourthFound, fourthNamed, (mem_labels_take_iff _ _ _).mpr
      ⟨start, startBelow, third, thirdFound, thirdNamed⟩⟩
  have same : position = place := by
    rcases Nat.lt_trichotomy position place with before | same | after
    · exact (placeLeast position before repeats).elim
    · exact same
    · exact (least place after placeRepeats).elim
  subst place
  rw [found, Option.some.injEq] at fourthFound
  subst fourth
  rw [named, Option.some.injEq] at fourthNamed
  subst other
  have sameFirst := only start startBelow third thirdFound thirdNamed
  rw [sameFirst, firstFound, Option.some.injEq] at thirdFound
  exact ⟨rfl, rfl, by rw [thirdFound]⟩

theorem FirstRepeat.labels_not_nodup {statements : List Statement} {label : String}
    {line firstLine : Nat} (repeats : FirstRepeat statements label line firstLine) :
    ¬(labels statements).Nodup := by
  intro distinct
  obtain ⟨earlier, position, _, _, below, firstFound, firstNamed, _, found, named, _⟩ := repeats
  have same := position_unique distinct firstFound firstNamed found named
  omega

theorem FirstRepeat.line_lt {statements : List Statement} {label : String} {line firstLine : Nat}
    (repeats : FirstRepeat statements label line firstLine)
    (increasing : statements.Pairwise fun first second => first.line < second.line) :
    firstLine < line := by
  obtain ⟨earlier, position, first, second, below, firstFound, _, rfl, found, _, rfl, _⟩ := repeats
  obtain ⟨firstInside, rfl⟩ := List.getElem?_eq_some_iff.mp firstFound
  obtain ⟨inside, rfl⟩ := List.getElem?_eq_some_iff.mp found
  exact List.pairwise_iff_getElem.mp increasing earlier position firstInside inside below

def placedFrom (first : Nat) (statements : List Statement) : List PlacedStatement :=
  (statements.zipIdx first).map fun (statement, index) => ⟨index.toUInt32, statement⟩

theorem placedFrom_append (first : Nat) (earlier later : List Statement) :
    placedFrom first (earlier ++ later) =
      placedFrom first earlier ++ placedFrom (first + earlier.length) later := by
  simp [placedFrom, List.zipIdx_append]

theorem placedFrom_map (change : Statement → Statement) (first : Nat)
    (statements : List Statement) :
    placedFrom first (statements.map change) =
      (placedFrom first statements).map fun placed =>
        ⟨placed.address, change placed.statement⟩ := by
  simp only [placedFrom, List.zipIdx_map, List.map_map, Function.comp_def, Prod.map_fst,
    Prod.map_snd, id_eq]

namespace Layout

def bindLabels (table : SymbolTable) (address : UInt32) :
    List Statement → Except AssemblyError SymbolTable
  | [] => .ok table
  | statement :: rest =>
      let next := if statement.isPlaced then address + 1 else address
      match statement.label with
      | none => bindLabels table next rest
      | some label =>
          match table.bind label address statement.line with
          | .error error => .error error
          | .ok extended => bindLabels extended next rest

def place (statements : List Statement) : List PlacedStatement :=
  placedFrom 0 (code statements)

theorem length_place (statements : List Statement) :
    (place statements).length = addressCount statements := by
  simp [place, placedFrom, length_code]

theorem map_statement_place (statements : List Statement) :
    (place statements).map PlacedStatement.statement = statements.filter Statement.isPlaced := by
  simp [place, placedFrom, code, Function.comp_def]

theorem next_address (before : Nat) (statement : Statement) :
    (if statement.isPlaced then before.toUInt32 + 1 else before.toUInt32) =
      (before + addressCount [statement]).toUInt32 := by
  cases placed : statement.isPlaced with
  | true => simp [addressCount, placed]
  | false => simp [addressCount, placed]

theorem bindLabels_cons (pass : FirstPass) (statement : Statement) (rest : List Statement) :
    bindLabels pass.symbols pass.next (statement :: rest) =
      (pass.bindLabel statement).bind fun symbols =>
        bindLabels symbols (if statement.isPlaced then pass.next + 1 else pass.next) rest := by
  rw [bindLabels, FirstPass.bindLabel]
  cases statement.label with
  | none => rfl
  | some label =>
      simp only
      cases pass.symbols.bind label pass.next statement.line <;> rfl

end Layout

namespace FirstPass

theorem step_eq (symbols : SymbolTable) (placed : Array PlacedStatement) (before : Nat)
    (statement : Statement) :
    step ⟨symbols, placed, before.toUInt32⟩ statement =
      (bindLabel ⟨symbols, placed, before.toUInt32⟩ statement).map fun extended =>
        ⟨extended, placed ++ (placedFrom before (code [statement])).toArray,
         (before + addressCount [statement]).toUInt32⟩ := by
  rw [step, ← Layout.next_address]
  cases bindLabel ⟨symbols, placed, before.toUInt32⟩ statement with
  | error error => rfl
  | ok extended =>
      cases isPlaced : statement.isPlaced with
      | true => simp [Except.map, bind, Except.bind, pure, Except.pure, code, placedFrom, isPlaced]
      | false => simp [Except.map, bind, Except.bind, pure, Except.pure, code, placedFrom, isPlaced]

/-- The loop, from any state on: it binds the labels of the statements that it has not seen yet, and
places these statements behind those that it has. -/
theorem foldlM_step (statements : List Statement) (symbols : SymbolTable)
    (placed : Array PlacedStatement) (before : Nat) :
    statements.foldlM step ⟨symbols, placed, before.toUInt32⟩ =
      (Layout.bindLabels symbols before.toUInt32 statements).map fun extended =>
        ⟨extended, placed ++ (placedFrom before (code statements)).toArray,
         (before + addressCount statements).toUInt32⟩ := by
  induction statements generalizing symbols placed before with
  | nil => simp [Layout.bindLabels, Except.map, pure, Except.pure, placedFrom, code, addressCount]
  | cons statement rest ih =>
      have labelled :=
        Layout.bindLabels_cons ⟨symbols, placed, before.toUInt32⟩ statement rest
      rw [Layout.next_address] at labelled
      rw [List.foldlM_cons, step_eq, labelled]
      cases bindLabel ⟨symbols, placed, before.toUInt32⟩ statement with
      | error error => rfl
      | ok extended =>
          have counted : addressCount (statement :: rest) =
              addressCount [statement] + addressCount rest := addressCount_append [statement] rest
          have split : code (statement :: rest) = code [statement] ++ code rest :=
            code_append [statement] rest
          change rest.foldlM step _ = _
          rw [ih, counted, split, placedFrom_append, length_code, ← List.append_toArray,
            ← Array.append_assoc, ← Nat.add_assoc]
          rfl

theorem ofStatements_eq (statements : List Statement) :
    ofStatements statements =
      (Layout.bindLabels .empty 0 statements).map fun symbols =>
        ⟨symbols, (Layout.place statements).toArray, (addressCount statements).toUInt32⟩ := by
  have run := foldlM_step statements .empty #[] 0
  rw [Nat.zero_add, Array.empty_append] at run
  exact run

end FirstPass

namespace Layout

theorem ofStatements_eq (statements : List Statement) :
    ofStatements statements =
      (bindLabels .empty 0 statements).map fun symbols => ⟨symbols, place statements⟩ := by
  rw [ofStatements, FirstPass.ofStatements_eq]
  cases bindLabels .empty 0 statements <;> rfl

/-- One step of the pass: it takes the next statement with its definition, if there is one, or ends
at a label that the table holds already. -/
theorem bindLabels_step (table : SymbolTable) (before : Nat) (statement : Statement) :
    (∃ next : SymbolTable, next.symbols = table.symbols ++ definitions before [statement] ∧
      ∀ rest, bindLabels table before.toUInt32 (statement :: rest) =
        bindLabels next (before + addressCount [statement]).toUInt32 rest) ∨
    ∃ label first, statement.label = some label ∧ table.find? label = some first ∧
      ∀ rest, bindLabels table before.toUInt32 (statement :: rest) =
        .error (.duplicateLabel label statement.line first.line) := by
  cases named : statement.label with
  | none =>
      left
      refine ⟨table, by simp [definitions, named], fun rest => ?_⟩
      simp only [bindLabels, named, ← next_address]
  | some label =>
      cases found : table.find? label with
      | none =>
          left
          obtain ⟨next, success, symbols⟩ :=
            SymbolTable.bind_of_find?_eq_none found before.toUInt32 statement.line
          refine ⟨next, by simp [symbols, definitions, named], fun rest => ?_⟩
          simp only [bindLabels, named, success, ← next_address]
      | some first =>
          right
          refine ⟨label, first, rfl, found, fun rest => ?_⟩
          simp only [bindLabels, named, SymbolTable.bind_of_find?_eq_some found]

theorem symbols_bindLabels {table extended : SymbolTable} {before : Nat}
    {statements : List Statement}
    (bound : bindLabels table before.toUInt32 statements = .ok extended) :
    extended.symbols = table.symbols ++ definitions before statements := by
  induction statements generalizing table before with
  | nil =>
      simp only [bindLabels, Except.ok.injEq] at bound
      simp [bound, definitions]
  | cons statement rest ih =>
      rcases bindLabels_step table before statement with
        ⟨next, symbols, goesOn⟩ | ⟨label, first, _, _, ends⟩
      · rw [goesOn] at bound
        rw [ih bound, symbols, List.append_assoc, ← definitions_append]
        rfl
      · rw [ends] at bound
        simp at bound

theorem exists_of_bindLabels_eq_error {table : SymbolTable} {before : Nat}
    {statements : List Statement} {error : AssemblyError}
    (failed : bindLabels table before.toUInt32 statements = .error error) :
    ∃ earlier statement later reached label first,
      statements = earlier ++ statement :: later ∧
      bindLabels table before.toUInt32 earlier = .ok reached ∧
      statement.label = some label ∧ reached.find? label = some first ∧
      error = .duplicateLabel label statement.line first.line := by
  induction statements generalizing table before with
  | nil => simp [bindLabels] at failed
  | cons statement rest ih =>
      rcases bindLabels_step table before statement with
        ⟨next, _, goesOn⟩ | ⟨label, first, named, found, ends⟩
      · rw [goesOn] at failed
        obtain ⟨earlier, fault, later, reached, label, first, split, bound, facts⟩ := ih failed
        refine ⟨statement :: earlier, fault, later, reached, label, first, by simp [split], ?_,
          facts⟩
        rw [goesOn]
        exact bound
      · rw [ends, Except.error.injEq] at failed
        exact ⟨[], statement, rest, table, label, first, rfl, rfl, named, found, failed.symm⟩

theorem firstRepeat_of_bindLabels {statements : List Statement} {error : AssemblyError}
    (failed : bindLabels .empty 0 statements = .error error) :
    ∃ label line firstLine, FirstRepeat statements label line firstLine ∧
      error = .duplicateLabel label line firstLine := by
  obtain ⟨earlier, second, later, reached, label, symbol, rfl, bound, named, found, rfl⟩ :=
    @exists_of_bindLabels_eq_error .empty 0 _ _ failed
  have symbols : reached.symbols = definitions 0 earlier := symbols_bindLabels bound
  have distinct := labels_nodup_of_symbols symbols
  obtain ⟨member, rfl⟩ := (reached.find?_eq_some_iff label symbol).mp found
  rw [symbols, mem_definitions_iff] at member
  obtain ⟨index, first, firstFound, firstNamed, line, _⟩ := member
  have inside := (List.getElem?_eq_some_iff.mp firstFound).1
  refine ⟨symbol.label, second.line, symbol.line, ⟨index, earlier.length, first, second, inside, ?_,
    firstNamed, line, ?_, named, rfl, ?_, ?_⟩, rfl⟩
  · rw [List.getElem?_append_left inside]
    exact firstFound
  · rw [List.getElem?_append_right (Nat.le_refl _), Nat.sub_self]
    rfl
  · exact fun before below => not_repeatsLabel_of_nodup distinct below
  · intro other below third thirdFound thirdNamed
    rw [List.getElem?_append_left below] at thirdFound
    exact position_unique distinct thirdFound thirdNamed firstFound firstNamed

theorem bindLabels_eq_ok_iff (statements : List Statement) (table : SymbolTable) :
    bindLabels .empty 0 statements = .ok table ↔ table.symbols = definitions 0 statements := by
  constructor
  · intro bound
    exact symbols_bindLabels bound
  · intro symbols
    cases ended : bindLabels .empty 0 statements with
    | ok other =>
        have otherSymbols : other.symbols = definitions 0 statements := symbols_bindLabels ended
        rw [SymbolTable.eq_of_symbols_eq (otherSymbols.trans symbols.symm)]
    | error error =>
        obtain ⟨label, line, firstLine, repeats, _⟩ := firstRepeat_of_bindLabels ended
        exact (repeats.labels_not_nodup (labels_nodup_of_symbols symbols)).elim

theorem bindLabels_eq_error_iff (statements : List Statement) (error : AssemblyError) :
    bindLabels .empty 0 statements = .error error ↔
      ∃ label line firstLine, FirstRepeat statements label line firstLine ∧
        error = .duplicateLabel label line firstLine := by
  constructor
  · exact firstRepeat_of_bindLabels
  · rintro ⟨label, line, firstLine, repeats, rfl⟩
    cases ended : bindLabels .empty 0 statements with
    | ok table =>
        have symbols := (bindLabels_eq_ok_iff statements table).mp ended
        exact (repeats.labels_not_nodup (labels_nodup_of_symbols symbols)).elim
    | error cause =>
        obtain ⟨other, otherLine, otherFirst, repeated, rfl⟩ := firstRepeat_of_bindLabels ended
        obtain ⟨rfl, rfl, rfl⟩ := repeats.unique repeated
        rfl

theorem getElem?_place (statements : List Statement) (index : Nat) :
    (place statements)[index]? =
      (code statements)[index]?.map fun statement => ⟨index.toUInt32, statement⟩ := by
  simp [place, placedFrom, List.getElem?_map, List.getElem?_zipIdx, Option.map_map,
    Function.comp_def]

theorem place_map (change : Statement → Statement)
    (keeps : Statement.isPlaced ∘ change = Statement.isPlaced) (statements : List Statement) :
    place (statements.map change) =
      (place statements).map fun placed => ⟨placed.address, change placed.statement⟩ := by
  rw [place, code, List.filter_map, keeps, placedFrom_map]
  rfl

theorem mem_of_mem_place {statements : List Statement} {placed : PlacedStatement}
    (member : placed ∈ place statements) : placed.statement ∈ statements := by
  have inCode : placed.statement ∈ (place statements).map PlacedStatement.statement :=
    List.mem_map_of_mem member
  rw [map_statement_place] at inCode
  exact (List.mem_filter.mp inCode).1

end Layout

theorem exists_firstRepeat {statements : List Statement} (twice : ¬(labels statements).Nodup) :
    ∃ label line firstLine, FirstRepeat statements label line firstLine := by
  cases ended : Layout.bindLabels .empty 0 statements with
  | ok table =>
      have symbols := (Layout.bindLabels_eq_ok_iff statements table).mp ended
      exact (twice (labels_nodup_of_symbols symbols)).elim
  | error error =>
      obtain ⟨label, line, firstLine, repeats, _⟩ := Layout.firstRepeat_of_bindLabels ended
      exact ⟨label, line, firstLine, repeats⟩

end TwoPass
