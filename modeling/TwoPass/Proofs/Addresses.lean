import TwoPass.Proofs.FirstPass
import TwoPass.Proofs.Result

/-!
The addresses that the first pass gives. It succeeds on exactly the statements without a repeated
label; then every label leads to the next statement that takes an address, its own statement
included, and a label after all of them to the end.
-/

namespace TwoPass

def SilentBetween (statements : List Statement) (start stop : Nat) : Prop :=
  ∀ position statement, start ≤ position → position < stop →
    statements[position]? = some statement → statement.isPlaced = false

def CarriesLabel (statements : List Statement) (position : Nat) (label : String) : Prop :=
  ∃ statement, statements[position]? = some statement ∧ statement.label = some label

def Layout.Leads (layout : Layout) (label : String) (address : Nat) : Prop :=
  (layout.symbols.resolve? label).map UInt32.toNat = some address

/-- The layout has all statements that take addresses, and all labels at the right ones. -/
structure LaysOut (statements : List Statement) (layout : Layout) : Prop where
  label : ∀ position label, CarriesLabel statements position label →
    layout.Leads label (addressCount (statements.take position))
  onlyLabels : layout.symbols.symbols.map Symbol.label = labels statements
  next : ∀ position stop label statement, CarriesLabel statements position label →
    position ≤ stop → SilentBetween statements position stop →
    statements[stop]? = some statement → statement.isPlaced = true →
      ∃ address, layout.symbols.resolve? label = some address ∧
        layout.placed[address.toNat]? = some ⟨address, statement⟩
  last : ∀ position label, CarriesLabel statements position label →
    SilentBetween statements position statements.length →
      layout.Leads label (addressCount statements)
  ordered : ∀ first second left right leftAddress rightAddress, first ≤ second →
    CarriesLabel statements first left → CarriesLabel statements second right →
    layout.Leads left leftAddress → layout.Leads right rightAddress → leftAddress ≤ rightAddress
  bounded : ∀ label address, layout.Leads label address → address ≤ addressCount statements
  kept : layout.placed.map PlacedStatement.statement =
    statements.filter fun statement => statement.mnemonic.isSome
  addresses : layout.placed.map (fun placed => placed.address.toNat) =
    List.range (addressCount statements)

structure FirstPassEnds (statements : List Statement) (result : Except AssemblyError Layout) :
    Prop where
  succeeds : (∃ layout, result = .ok layout) ↔ (labels statements).Nodup
  laysOut : ∀ layout, result = .ok layout → LaysOut statements layout
  fails : ∀ error, result = .error error ↔
    ∃ label line firstLine, FirstRepeat statements label line firstLine ∧
      error = .duplicateLabel label line firstLine

theorem addressCount_take_mono (statements : List Statement) {first second : Nat}
    (le : first ≤ second) :
    addressCount (statements.take first) ≤ addressCount (statements.take second) := by
  have shorter := addressCount_take_le (statements.take second) first
  rwa [List.take_take, Nat.min_eq_left le] at shorter

theorem addressCount_take_of_silent {statements : List Statement} {start stop : Nat}
    (le : start ≤ stop) (silent : SilentBetween statements start stop) :
    addressCount (statements.take stop) = addressCount (statements.take start) := by
  induction le with
  | refl => rfl
  | @step stop le ih =>
      have before := ih fun position statement lower upper =>
        silent position statement lower (by omega)
      cases found : statements[stop]? with
      | none => rw [List.take_add_one, found, Option.toList_none, List.append_nil, before]
      | some statement =>
          have unplaced := silent stop statement le (by omega) found
          rw [List.take_add_one, found, addressCount_append, before]
          simp [addressCount, unplaced]

theorem getElem?_code_of_isPlaced {statements : List Statement} {position : Nat}
    {statement : Statement} (found : statements[position]? = some statement)
    (placed : statement.isPlaced = true) :
    (code statements)[addressCount (statements.take position)]? = some statement := by
  obtain ⟨inside, rfl⟩ := List.getElem?_eq_some_iff.mp found
  have split : statements = statements.take position ++ statements.drop position :=
    (List.take_append_drop position statements).symm
  have entry := getElem?_code_append_right (statements.take position) (statements.drop position) 0
  rw [← split, Nat.add_zero] at entry
  rw [entry, List.drop_eq_getElem_cons inside, code, List.filter_cons_of_pos placed]
  rfl

namespace Layout

theorem ofStatements_eq_ok_iff (statements : List Statement) (layout : Layout) :
    ofStatements statements = .ok layout ↔
      layout.symbols.symbols = definitions 0 statements ∧ layout.placed = place statements := by
  rw [ofStatements_eq, Result.map_eq_ok_iff]
  simp only [bindLabels_eq_ok_iff]
  constructor
  · rintro ⟨table, symbols, rfl⟩
    exact ⟨symbols, rfl⟩
  · rintro ⟨symbols, placed⟩
    exact ⟨layout.symbols, symbols, by rw [← placed]⟩

theorem exists_ofStatements_eq_ok_iff (statements : List Statement) :
    (∃ layout, ofStatements statements = .ok layout) ↔ (labels statements).Nodup := by
  constructor
  · rintro ⟨layout, success⟩
    exact labels_nodup_of_symbols ((ofStatements_eq_ok_iff statements layout).mp success).1
  · intro distinct
    rw [← map_label_definitions 0] at distinct
    refine ⟨⟨⟨definitions 0 statements, distinct⟩, place statements⟩, ?_⟩
    exact (ofStatements_eq_ok_iff statements _).mpr ⟨rfl, rfl⟩

theorem map_address_place {statements : List Statement}
    (small : addressCount statements < UInt32.size) :
    (place statements).map (fun placed => placed.address.toNat) =
      List.range (addressCount statements) := by
  apply List.ext_getElem?
  intro index
  rw [List.getElem?_map, getElem?_place]
  by_cases inside : index < addressCount statements
  · have kept : index.toUInt32.toNat = index :=
      UInt32.toNat_ofNat_of_lt' (Nat.lt_trans inside small)
    rw [← length_code] at inside
    simp [kept, ← length_code, inside]
  · rw [← length_code] at inside ⊢
    rw [List.getElem?_eq_none (by omega), List.getElem?_eq_none (by simpa using inside)]
    rfl

section

variable {statements : List Statement} {layout : Layout}
  (symbols : layout.symbols.symbols = definitions 0 statements)
  (small : addressCount statements < UInt32.size)

include symbols small

theorem leads_of_carriesLabel {position : Nat} {label : String}
    (carries : CarriesLabel statements position label) :
    layout.Leads label (addressCount (statements.take position)) := by
  obtain ⟨carrier, found, named⟩ := carries
  have bound := addressCount_take_le statements position
  rw [Leads, resolve?_of_label symbols found named, Option.map_some, Option.some.injEq]
  exact UInt32.toNat_ofNat_of_lt' (by omega)

theorem exists_placed_of_carriesLabel (placed : layout.placed = place statements)
    {position stop : Nat} {label : String} {statement : Statement}
    (carries : CarriesLabel statements position label) (le : position ≤ stop)
    (silent : SilentBetween statements position stop)
    (found : statements[stop]? = some statement) (isPlaced : statement.isPlaced = true) :
    ∃ address, layout.symbols.resolve? label = some address ∧
      layout.placed[address.toNat]? = some ⟨address, statement⟩ := by
  obtain ⟨address, resolved, toNat⟩ :=
    Option.map_eq_some_iff.mp (leads_of_carriesLabel symbols small carries)
  refine ⟨address, resolved, ?_⟩
  have same : address.toNat = addressCount (statements.take stop) := by
    rw [toNat, addressCount_take_of_silent le silent]
  rw [placed, getElem?_place, same, getElem?_code_of_isPlaced found isPlaced, Option.map_some,
    ← same]
  simp

theorem laysOut_of_symbols (placed : layout.placed = place statements) :
    LaysOut statements layout where
  label position label carries := leads_of_carriesLabel symbols small carries
  onlyLabels := by rw [symbols, map_label_definitions]
  next position stop label statement carries le silent found isPlaced :=
    exists_placed_of_carriesLabel symbols small placed carries le silent found isPlaced
  last position label carries silent := by
    obtain ⟨carrier, found, _⟩ := id carries
    have inside := (List.getElem?_eq_some_iff.mp found).1
    have count := addressCount_take_of_silent (by omega) silent
    rw [List.take_length] at count
    rw [count]
    exact leads_of_carriesLabel symbols small carries
  ordered first second left right leftAddress rightAddress le carriesLeft carriesRight leadsLeft
      leadsRight := by
    rw [Leads, leads_of_carriesLabel symbols small carriesLeft, Option.some.injEq] at leadsLeft
    rw [Leads, leads_of_carriesLabel symbols small carriesRight, Option.some.injEq] at leadsRight
    rw [← leadsLeft, ← leadsRight]
    exact addressCount_take_mono statements le
  bounded label address leads := by
    obtain ⟨bits, resolved, rfl⟩ := Option.map_eq_some_iff.mp leads
    exact address_le_of_resolve? symbols resolved
  kept := by
    rw [placed, map_statement_place]
    rfl
  addresses := by rw [placed, map_address_place small]

end

/-- The first pass succeeds exactly without a repeated label, and then every label and every
statement has the address that the statements before it leave. -/
theorem ofStatements_ends (statements : List Statement)
    (small : addressCount statements < UInt32.size) :
    FirstPassEnds statements (ofStatements statements) where
  succeeds := exists_ofStatements_eq_ok_iff statements
  laysOut layout success := by
    obtain ⟨symbols, placed⟩ := (ofStatements_eq_ok_iff statements layout).mp success
    exact laysOut_of_symbols symbols small placed
  fails error := by
    rw [ofStatements_eq, Result.map_eq_error_iff]
    exact bindLabels_eq_error_iff statements error

theorem ofStatements_ends_trailing_label :
    FirstPassEnds
      [⟨7, none, ["R9"], some "start"⟩, ⟨3, none, [], some "here"⟩,
        ⟨3, some "HALT", [], some "stop"⟩, ⟨1, none, [], some "end"⟩]
      (.ok ⟨⟨[⟨"start", 0, 7⟩, ⟨"here", 0, 3⟩, ⟨"stop", 0, 3⟩, ⟨"end", 1, 1⟩], by decide⟩,
        [⟨0, ⟨3, some "HALT", [], some "stop"⟩⟩]⟩) :=
  ofStatements_ends
    [⟨7, none, ["R9"], some "start"⟩, ⟨3, none, [], some "here"⟩,
      ⟨3, some "HALT", [], some "stop"⟩, ⟨1, none, [], some "end"⟩] (by decide)

end Layout

end TwoPass
