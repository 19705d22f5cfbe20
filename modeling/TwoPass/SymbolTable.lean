import TwoPass.Error

/-!
The symbol table: labels with the address that each stands for and the line that defines it. A
label is bound once; binding it again is refused and names the line of the first definition.
-/

namespace TwoPass

structure Symbol where
  label : String
  address : UInt32
  line : Nat
deriving DecidableEq

structure SymbolTable where
  symbols : List Symbol
  distinct : (symbols.map Symbol.label).Nodup
deriving DecidableEq

namespace SymbolTable

def empty : SymbolTable := ⟨[], List.nodup_nil⟩

def find? (table : SymbolTable) (label : String) : Option Symbol :=
  table.symbols.find? fun symbol => symbol.label == label

def resolve? (table : SymbolTable) (label : String) : Option UInt32 :=
  (table.find? label).map Symbol.address

theorem find?_eq_none_iff (table : SymbolTable) (label : String) :
    table.find? label = none ↔ label ∉ table.symbols.map Symbol.label := by
  simp [find?]

def bind (table : SymbolTable) (label : String) (address : UInt32) (line : Nat) :
    Except AssemblyError SymbolTable :=
  match found : table.find? label with
  | some first => .error (.duplicateLabel label line first.line)
  | none => .ok
      { symbols := table.symbols ++ [⟨label, address, line⟩]
        distinct := by
          have fresh := (table.find?_eq_none_iff label).mp found
          rw [List.map_append]
          refine List.nodup_append.mpr ⟨table.distinct, by simp, ?_⟩
          intro other member last lastMember same
          simp only [List.map_cons, List.map_nil, List.mem_singleton] at lastMember
          exact fresh (lastMember ▸ same ▸ member) }

def size (table : SymbolTable) : Nat :=
  table.symbols.length

def isEmpty (table : SymbolTable) : Bool :=
  table.symbols.isEmpty

def toSortedList (table : SymbolTable) : List (String × UInt32) :=
  (table.symbols.map fun symbol => (symbol.label, symbol.address)).mergeSort
    fun left right => decide (left.1 ≤ right.1)

theorem bind_of_find?_eq_some {table : SymbolTable} {label : String} {first : Symbol}
    (found : table.find? label = some first) (address : UInt32) (line : Nat) :
    table.bind label address line = .error (.duplicateLabel label line first.line) := by
  unfold bind
  split <;> simp_all

theorem bind_of_find?_eq_none {table : SymbolTable} {label : String}
    (fresh : table.find? label = none) (address : UInt32) (line : Nat) :
    ∃ extended, table.bind label address line = .ok extended ∧
      extended.symbols = table.symbols ++ [⟨label, address, line⟩] := by
  unfold bind
  split
  · simp_all
  · exact ⟨_, rfl, rfl⟩

end SymbolTable

end TwoPass
