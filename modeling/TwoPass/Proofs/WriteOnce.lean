import TwoPass.Proofs.FirstPass

/-!
A symbol table over a whole run of calls that bind labels, refused calls among them. A label keeps
what its first call gave it, so what the table shows afterwards, by look-up, by its size and as a
sorted list, depends on the first calls alone, and not on their order.
-/

namespace TwoPass

def Symbol.binding (symbol : Symbol) : String × UInt32 :=
  (symbol.label, symbol.address)

def codePoints (text : String) : List Nat :=
  text.toList.map Char.toNat

def firstCall? (calls : List Symbol) (label : String) : Option Symbol :=
  calls.find? fun call => call.label == label

theorem firstCall?_append (first second : List Symbol) (label : String) :
    firstCall? (first ++ second) label = (firstCall? first label).or (firstCall? second label) :=
  List.find?_append

theorem firstCall?_eq_none_iff (calls : List Symbol) (label : String) :
    firstCall? calls label = none ↔ label ∉ calls.map Symbol.label := by
  simp [firstCall?]

theorem firstCall?_singleton (call : Symbol) (label : String) :
    firstCall? [call] label = if call.label = label then some call else none := by
  by_cases same : call.label = label <;> simp [firstCall?, same]

theorem eraseDups_append_singleton (labels : List String) (label : String) :
    (labels ++ [label]).eraseDups =
      if label ∈ labels then labels.eraseDups else labels.eraseDups ++ [label] := by
  rw [List.eraseDups_append]
  by_cases known : label ∈ labels
  · have nothing : [label].removeAll labels = [] := by simp [List.removeAll, known]
    rw [if_pos known, nothing, List.eraseDups_nil, List.append_nil]
  · have kept : [label].removeAll labels = [label] := by simp [List.removeAll, known]
    rw [if_neg known, kept]
    rfl

def refusal? (earlier : List Symbol) (call : Symbol) : Option AssemblyError :=
  (firstCall? earlier call.label).map fun first =>
    .duplicateLabel call.label call.line first.line

namespace SymbolTable

def attempt (table : SymbolTable) (call : Symbol) : SymbolTable × Option AssemblyError :=
  match table.bind call.label call.address call.line with
  | .error error => (table, some error)
  | .ok extended => (extended, none)

def attemptAll (table : SymbolTable) : List Symbol → SymbolTable × List (Option AssemblyError)
  | [] => (table, [])
  | call :: rest =>
      let answered := table.attempt call
      let ended := answered.1.attemptAll rest
      (ended.1, answered.2 :: ended.2)

theorem attempt_of_bound {table : SymbolTable} {call first : Symbol}
    (found : table.find? call.label = some first) :
    table.attempt call = (table, some (.duplicateLabel call.label call.line first.line)) := by
  rw [attempt, bind_of_find?_eq_some found]

theorem attempt_of_fresh {table : SymbolTable} {call : Symbol}
    (fresh : table.find? call.label = none) :
    ∃ extended, table.attempt call = (extended, none) ∧
      extended.symbols = table.symbols ++ [call] := by
  obtain ⟨extended, success, symbols⟩ := bind_of_find?_eq_none fresh call.address call.line
  exact ⟨extended, by rw [attempt, success], symbols⟩

/-- The table holds the first of the calls for every label, in the order of these first calls. -/
structure Records (table : SymbolTable) (calls : List Symbol) : Prop where
  found : ∀ label, table.find? label = firstCall? calls label
  labels : table.symbols.map Symbol.label = (calls.map Symbol.label).eraseDups

theorem records_empty : empty.Records [] :=
  ⟨fun _ => rfl, rfl⟩

theorem Records.refusal {table : SymbolTable} {earlier : List Symbol}
    (records : table.Records earlier) (call : Symbol) :
    (table.attempt call).2 = refusal? earlier call := by
  rw [refusal?, ← records.found]
  cases found : table.find? call.label with
  | some first =>
      rw [attempt_of_bound found]
      rfl
  | none =>
      obtain ⟨extended, answered, _⟩ := attempt_of_fresh found
      rw [answered]
      rfl

theorem Records.attempt {table : SymbolTable} {earlier : List Symbol}
    (records : table.Records earlier) (call : Symbol) :
    (table.attempt call).1.Records (earlier ++ [call]) := by
  cases found : table.find? call.label with
  | some first =>
      rw [attempt_of_bound found]
      rw [records.found] at found
      constructor
      · intro label
        rw [records.found, firstCall?_append, firstCall?_singleton]
        by_cases same : call.label = label
        · rw [← same, found]
          rfl
        · rw [if_neg same, Option.or_none]
      · have known : call.label ∈ earlier.map Symbol.label := by
          apply Classical.byContradiction
          intro absent
          rw [(firstCall?_eq_none_iff earlier call.label).mpr absent] at found
          simp at found
        rw [records.labels, List.map_append]
        exact ((eraseDups_append_singleton _ _).trans (if_pos known)).symm
  | none =>
      obtain ⟨extended, answered, symbols⟩ := attempt_of_fresh found
      rw [answered]
      constructor
      · intro label
        change extended.symbols.find? _ = _
        rw [symbols, List.find?_append, firstCall?_append, ← records.found]
        rfl
      · rw [records.found, firstCall?_eq_none_iff] at found
        rw [symbols, List.map_append, records.labels, List.map_append]
        exact ((eraseDups_append_singleton _ _).trans (if_neg found)).symm

theorem Records.attemptAll {table : SymbolTable} {earlier : List Symbol}
    (records : table.Records earlier) (calls : List Symbol) :
    (table.attemptAll calls).1.Records (earlier ++ calls) := by
  induction calls generalizing table earlier with
  | nil => simpa [SymbolTable.attemptAll] using records
  | cons call rest ih =>
      have next := ih (records.attempt call)
      rw [List.append_assoc] at next
      exact next

theorem attemptAll_append (table : SymbolTable) (first second : List Symbol) :
    table.attemptAll (first ++ second) =
      (((table.attemptAll first).1.attemptAll second).1,
        (table.attemptAll first).2 ++ ((table.attemptAll first).1.attemptAll second).2) := by
  induction first generalizing table with
  | nil => rfl
  | cons call rest ih => simp only [List.cons_append, attemptAll, ih]

theorem length_attemptAll (table : SymbolTable) (calls : List Symbol) :
    (table.attemptAll calls).2.length = calls.length := by
  induction calls generalizing table with
  | nil => rfl
  | cons call rest ih => simp [attemptAll, ih]

theorem size_attemptAll (table : SymbolTable) (calls : List Symbol) :
    (table.attemptAll calls).1.size =
      table.size + (table.attemptAll calls).2.countP Option.isNone := by
  induction calls generalizing table with
  | nil => rfl
  | cons call rest ih =>
      simp only [attemptAll, ih, List.countP_cons]
      cases found : table.find? call.label with
      | some first =>
          rw [attempt_of_bound found]
          simp
      | none =>
          obtain ⟨extended, answered, symbols⟩ := attempt_of_fresh found
          rw [answered]
          simp only [size, symbols, List.length_append, List.length_cons, List.length_nil,
            Option.isNone_none, if_true]
          omega

theorem perm_toSortedList (table : SymbolTable) :
    table.toSortedList.Perm (table.symbols.map Symbol.binding) :=
  List.mergeSort_perm _ _

theorem length_toSortedList (table : SymbolTable) : table.toSortedList.length = table.size := by
  rw [table.perm_toSortedList.length_eq, List.length_map, size]

theorem mem_toSortedList_iff (table : SymbolTable) (label : String) (address : UInt32) :
    (label, address) ∈ table.toSortedList ↔ table.resolve? label = some address := by
  rw [table.perm_toSortedList.mem_iff, resolve?_eq_some_iff]
  simp [Symbol.binding]

theorem toSortedList_increasing (table : SymbolTable) :
    table.toSortedList.Pairwise fun left right => left.1 < right.1 := by
  have ordered : table.toSortedList.Pairwise fun left right =>
      decide (left.1 ≤ right.1) = true := by
    apply List.pairwise_mergeSort
    · intro left middle right lower upper
      rw [decide_eq_true_eq] at lower upper ⊢
      exact String.le_trans lower upper
    · intro left right
      simpa using String.le_total left.1 right.1
  have distinct : (table.toSortedList.map Prod.fst).Nodup := by
    rw [(table.perm_toSortedList.map Prod.fst).nodup_iff, List.map_map]
    exact table.distinct
  have apart : table.toSortedList.Pairwise fun left right => left.1 ≠ right.1 :=
    List.pairwise_map.mp distinct
  apply ordered.imp₂ _ apart
  intro left right lower different
  rw [decide_eq_true_eq] at lower
  apply String.not_le.mp
  intro upper
  exact different (String.le_antisymm lower upper)

theorem codePoints_lt {left right : String} (lower : left < right) :
    codePoints left < codePoints right :=
  List.map_lt (fun _ _ smaller => smaller) lower

theorem toSortedList_eq_of_resolve?_eq {left right : SymbolTable}
    (same : ∀ label, left.resolve? label = right.resolve? label) :
    left.toSortedList = right.toSortedList := by
  have nodup (table : SymbolTable) : table.toSortedList.Nodup := by
    apply table.toSortedList_increasing.imp
    rintro first second lower rfl
    exact String.lt_irrefl _ lower
  have perm : left.toSortedList.Perm right.toSortedList := by
    rw [List.perm_ext_iff_of_nodup (nodup left) (nodup right)]
    intro ⟨label, address⟩
    rw [mem_toSortedList_iff, mem_toSortedList_iff, same]
  apply perm.eq_of_pairwise _ left.toSortedList_increasing right.toSortedList_increasing
  intro first second _ _ lower upper
  exact absurd (String.lt_trans lower upper) (String.lt_irrefl _)

theorem Records.resolve? {table : SymbolTable} {calls : List Symbol}
    (records : table.Records calls) (label : String) :
    table.resolve? label = (firstCall? calls label).map Symbol.address := by
  rw [SymbolTable.resolve?, records.found]

theorem Records.size {table : SymbolTable} {calls : List Symbol} (records : table.Records calls) :
    table.size = (calls.map Symbol.label).eraseDups.length := by
  rw [← records.labels, List.length_map, SymbolTable.size]

theorem Records.toSortedList_eq {left right : SymbolTable} {calls others : List Symbol}
    (records : left.Records calls) (otherRecords : right.Records others)
    (distinct : (calls.map Symbol.label).Nodup) (otherDistinct : (others.map Symbol.label).Nodup)
    (same : ∀ binding, binding ∈ calls.map Symbol.binding ↔ binding ∈ others.map Symbol.binding) :
    (∀ label, left.resolve? label = right.resolve? label) ∧
      left.size = right.size ∧ left.toSortedList = right.toSortedList := by
  -- calls without a repeated label are themselves the symbols of a table
  have first : ∀ label,
      left.resolve? label = (⟨calls, distinct⟩ : SymbolTable).resolve? label := records.resolve?
  have second : ∀ label, right.resolve? label =
      (⟨others, otherDistinct⟩ : SymbolTable).resolve? label := otherRecords.resolve?
  have resolves : ∀ label, left.resolve? label = right.resolve? label := by
    intro label
    apply Option.ext
    intro address
    have bound := same (label, address)
    simp only [List.mem_map, Symbol.binding, Prod.mk.injEq] at bound
    rw [first, second, resolve?_eq_some_iff, resolve?_eq_some_iff]
    exact bound
  have lists := toSortedList_eq_of_resolve?_eq resolves
  refine ⟨resolves, ?_, lists⟩
  rw [← length_toSortedList, lists, length_toSortedList]

structure WriteOnce (calls : List Symbol) : Prop where
  answers : ∀ earlier call later, calls = earlier ++ call :: later →
    (empty.attemptAll calls).2[earlier.length]? = some (refusal? earlier call)
  kept : ∀ earlier call later, calls = earlier ++ call :: later →
    call.label ∈ earlier.map Symbol.label →
      (empty.attemptAll (earlier ++ [call])).1 = (empty.attemptAll earlier).1
  resolves : ∀ label,
    (empty.attemptAll calls).1.resolve? label = (firstCall? calls label).map Symbol.address
  distinctLabels : (empty.attemptAll calls).1.size = (calls.map Symbol.label).eraseDups.length
  successes : (empty.attemptAll calls).1.size =
    (empty.attemptAll calls).2.countP Option.isNone
  listed : ∀ label address, (label, address) ∈ (empty.attemptAll calls).1.toSortedList ↔
    (firstCall? calls label).map Symbol.address = some address
  ascending : (empty.attemptAll calls).1.toSortedList.Pairwise fun left right =>
    codePoints left.1 < codePoints right.1

theorem writeOnce (calls : List Symbol) : WriteOnce calls where
  answers := by
    rintro earlier call later rfl
    have refusal := (records_empty.attemptAll earlier).refusal call
    rw [attemptAll_append, ← length_attemptAll empty earlier]
    simpa [attemptAll] using refusal
  kept := by
    intro earlier call later _ known
    have records := records_empty.attemptAll earlier
    cases found : (empty.attemptAll earlier).1.find? call.label with
    | some first => simp only [attemptAll_append, attemptAll, attempt_of_bound found]
    | none =>
        rw [records.found, firstCall?_eq_none_iff] at found
        exact absurd known found
  resolves := (records_empty.attemptAll calls).resolve?
  distinctLabels := (records_empty.attemptAll calls).size
  successes := (size_attemptAll empty calls).trans (Nat.zero_add _)
  listed := by
    intro label address
    rw [mem_toSortedList_iff, (records_empty.attemptAll calls).resolve?]
    rfl
  ascending := (toSortedList_increasing _).imp codePoints_lt

/-- A table is written once: every label keeps its first binding, through calls that are refused
and in any order of the calls. -/
theorem attemptAll_writeOnce :
    (∀ calls, WriteOnce calls) ∧
    ∀ calls others : List Symbol,
      (calls.map Symbol.label).Nodup → (others.map Symbol.label).Nodup →
      (∀ binding, binding ∈ calls.map Symbol.binding ↔ binding ∈ others.map Symbol.binding) →
      (∀ label, (empty.attemptAll calls).1.resolve? label =
        (empty.attemptAll others).1.resolve? label) ∧
      (empty.attemptAll calls).1.size = (empty.attemptAll others).1.size ∧
      (empty.attemptAll calls).1.toSortedList = (empty.attemptAll others).1.toSortedList := by
  constructor
  · exact writeOnce
  · intro calls others distinct otherDistinct same
    have records := records_empty.attemptAll calls
    have otherRecords := records_empty.attemptAll others
    exact records.toSortedList_eq otherRecords distinct otherDistinct same

theorem attemptAll_writeOnce_reordered :
    (empty.attemptAll [⟨"b", 1, 1⟩, ⟨"a", 0, 2⟩, ⟨"b", 5, 3⟩]).2[2]? =
        some (some (.duplicateLabel "b" 3 1)) ∧
      (empty.attemptAll [⟨"b", 1, 1⟩, ⟨"a", 0, 2⟩]).1.toSortedList =
        (empty.attemptAll [⟨"a", 0, 9⟩, ⟨"b", 1, 4⟩]).1.toSortedList := by
  obtain ⟨once, reordered⟩ := attemptAll_writeOnce
  constructor
  · exact (once _).answers [⟨"b", 1, 1⟩, ⟨"a", 0, 2⟩] ⟨"b", 5, 3⟩ [] rfl
  · refine (reordered _ _ (by decide) (by decide) ?_).2.2
    intro binding
    simp [Symbol.binding, or_comm]

end SymbolTable

end TwoPass
