import TwoPass.Proofs.JsonWriting
import TwoPass.Tool

/-!
The text of a configuration. The members of an object may stand in any order and among members that
name no field, with any space; what they give is the configuration, and what they do not give has
its default value. A field that is given twice, or by a value of another kind, is refused.
-/

namespace TwoPass

namespace Json

def valuesOf (members : List (Option String × Json)) (key : String) : List Json :=
  (members.filter fun member => member.1 == some key).map Prod.snd

theorem member?_eq_some_iff (members : List (Option String × Json)) (key : String)
    (found : Option Json) :
    member? members key = some found ↔ valuesOf members key = found.toList := by
  unfold member? valuesOf
  generalize (members.filter fun member => member.1 == some key) = matching
  rcases matching with _ | ⟨first, _ | ⟨second, rest⟩⟩ <;> cases found <;> simp

theorem exists_spelled_of_element {value : Json} {text : List Char}
    (spelled : Spelled (.element value) text) : ∃ inner, Spelled (.value value) inner := by
  cases spelled with
  | element _ inner _ => exact ⟨_, inner⟩

theorem exists_spelled_of_member {key : Option String} {value : Json} {text : List Char}
    (spelled : Spelled (.member key value) text) : ∃ inner, Spelled (.value value) inner := by
  cases spelled with
  | member _ _ _ inner => exact exists_spelled_of_element inner

theorem exists_spelled_of_members {members : List (Option String × Json)} {text : List Char}
    (spelled : Spelled (.members members) text) :
    ∀ member ∈ members, ∃ inner, Spelled (.value member.2) inner := by
  induction members generalizing text with
  | nil => simp
  | cons first rest ih =>
      cases spelled with
      | lastMember member => exact List.forall_mem_singleton.mpr (exists_spelled_of_member member)
      | moreMembers member later =>
          exact List.forall_mem_cons.mpr ⟨exists_spelled_of_member member, ih later⟩

theorem Document.exists_spelled {members : List (Option String × Json)} {text : String}
    (document : Document (.object members) text) :
    ∀ member ∈ members, ∃ inner, Spelled (.value member.2) inner := by
  obtain ⟨inner, spelled⟩ := exists_spelled_of_element document
  cases spelled with
  | emptyObject => simp
  | object inner => exact exists_spelled_of_members inner

theorem mem_of_mem_valuesOf {members : List (Option String × Json)} {key : String} {value : Json}
    (given : value ∈ valuesOf members key) : (some key, value) ∈ members := by
  obtain ⟨⟨name, other⟩, kept, rfl⟩ := List.mem_map.mp given
  obtain ⟨inside, same⟩ := List.mem_filter.mp kept
  rw [beq_iff_eq] at same
  rwa [← same]

theorem natBelow?_eq_some_iff {value : Json} {text : List Char}
    (spelled : Spelled (.value value) text) (bound number : Nat) :
    natBelow? bound value = some number ↔ number < bound ∧ value = .ofNat number := by
  cases spelled with
  | number isNumber => rw [natBelow?_number (by simpa using isNumber), ofNat, Json.number.injEq]
  | _ => simp [natBelow?, ofNat]

theorem text?_eq_some_iff (value : Json) (text : String) :
    value.text? = some text ↔ value = .ofText text := by
  cases value <;> simp [text?, ofText]

end Json

/-- Members that give the words or the name of the memory or neither, each at most once. -/
structure ConfigMembers (members : List (Option String × Json)) (words : Option Nat)
    (name : Option String) : Prop where
  keys : ∀ member ∈ members, ∃ key, member.1 = some key
  inRange : ∀ value ∈ words, value < UInt64.size
  givenWords : Json.valuesOf members "memory_words" = words.toList.map .ofNat
  givenName : Json.valuesOf members "memory_name" = name.toList.map .ofText

/-- A field that is given twice or by a value of another kind. -/
inductive FaultyMembers (members : List (Option String × Json)) : Prop where
  | twice {key : String} (known : key = "memory_words" ∨ key = "memory_name")
      (repeated : 2 ≤ (Json.valuesOf members key).length) : FaultyMembers members
  | words {value : Json} (given : value ∈ Json.valuesOf members "memory_words")
      (foreign : ∀ number < UInt64.size, value ≠ .ofNat number) : FaultyMembers members
  | name {value : Json} (given : value ∈ Json.valuesOf members "memory_name")
      (foreign : ∀ text, value ≠ .ofText text) : FaultyMembers members

namespace Config

theorem record?_eq_some_iff (members : List (Option String × Json))
    (fields : List (Option Json)) :
    Json.record? ["memory_words", "memory_name"] 0 (.object members) = some fields ↔
      (∀ member ∈ members, ∃ key, member.1 = some key) ∧
      ∃ words name : Option Json, fields = [words, name] ∧
        Json.valuesOf members "memory_words" = words.toList ∧
        Json.valuesOf members "memory_name" = name.toList := by
  have keys : (members.all fun member => member.1.isSome) = true ↔
      ∀ member ∈ members, ∃ key, member.1 = some key := by
    simp only [List.all_eq_true, Option.isSome_iff_exists]
  simp only [Json.record?, Option.ite_none_right_eq_some, keys, ← Json.member?_eq_some_iff]
  apply and_congr_right
  intro _
  cases words : Json.member? members "memory_words" <;>
    cases name : Json.member? members "memory_name" <;> simp [words, name, eq_comm]

theorem ofJson?_object_eq_some_iff (members : List (Option String × Json)) (config : Config) :
    ofJson? (.object members) = some config ↔
      (∀ member ∈ members, ∃ key, member.1 = some key) ∧
      ∃ words name : Option Json, Json.valuesOf members "memory_words" = words.toList ∧
        Json.valuesOf members "memory_name" = name.toList ∧
        (words.getD (.ofNat 256)).natBelow? UInt64.size = some config.memoryWords ∧
        (name.getD (.ofText "memory")).text? = some config.memoryName := by
  constructor
  · intro read
    unfold ofJson? at read
    split at read
    · rename_i words name fields
      obtain ⟨keys, _, _, same, givenWords, givenName⟩ := (record?_eq_some_iff _ _).mp fields
      cases same
      obtain ⟨memoryWords, readWords, read⟩ := Option.bind_eq_some_iff.mp read
      obtain ⟨memoryName, readName, read⟩ := Option.bind_eq_some_iff.mp read
      cases read
      exact ⟨keys, words, name, givenWords, givenName, readWords, readName⟩
    · simp at read
  · rintro ⟨keys, words, name, givenWords, givenName, readWords, readName⟩
    have fields := (record?_eq_some_iff members [words, name]).mpr
      ⟨keys, words, name, rfl, givenWords, givenName⟩
    simp [ofJson?, fields, readWords, readName]

theorem ofJson?_of_configMembers {members : List (Option String × Json)} {words : Option Nat}
    {name : Option String} (given : ConfigMembers members words name) :
    ofJson? (.object members) = some ⟨words.getD 256, name.getD "memory"⟩ := by
  rw [ofJson?_object_eq_some_iff]
  refine ⟨given.keys, words.map .ofNat, name.map .ofText, ?_, ?_, ?_, ?_⟩
  · rw [given.givenWords, Option.toList_map]
  · rw [given.givenName, Option.toList_map]
  · cases words with
    | none => exact Json.natBelow?_ofNat (by decide)
    | some value => exact Json.natBelow?_ofNat (given.inRange value rfl)
  · cases name <;> rfl

theorem ofJson?_toJson {config : Config} (small : config.memoryWords < UInt64.size) :
    ofJson? config.toJson = some config := by
  have given : ConfigMembers [(some "memory_words", .ofNat config.memoryWords),
      (some "memory_name", .ofText config.memoryName)]
      (some config.memoryWords) (some config.memoryName) :=
    ⟨by simp, by simpa using small, rfl, rfl⟩
  exact ofJson?_of_configMembers given

theorem ofJson?_of_faultyMembers {members : List (Option String × Json)} {text : String}
    (document : Json.Document (.object members) text) (faulty : FaultyMembers members) :
    ofJson? (.object members) = none := by
  apply Option.eq_none_iff_forall_ne_some.mpr
  intro config read
  obtain ⟨_, words, name, givenWords, givenName, readWords, readName⟩ :=
    (ofJson?_object_eq_some_iff members config).mp read
  cases faulty with
  | twice known repeated =>
      rcases known with rfl | rfl
      · rw [givenWords] at repeated
        cases words <;> simp at repeated
      · rw [givenName] at repeated
        cases name <;> simp at repeated
  | @words value given foreign =>
      obtain ⟨inner, spelled⟩ := document.exists_spelled _ (Json.mem_of_mem_valuesOf given)
      rw [givenWords, Option.mem_toList] at given
      cases given
      obtain ⟨small, same⟩ := (Json.natBelow?_eq_some_iff spelled _ _).mp readWords
      exact foreign _ small same
  | @name value given foreign =>
      rw [givenName, Option.mem_toList] at given
      cases given
      exact foreign _ ((Json.text?_eq_some_iff _ _).mp readName)

theorem load_of_document {read : Reader} {path text : String} {value : Json}
    (found : read path = .ok text) (document : Json.Document value text) :
    load read path = (ofJson? value).elim (.error (.parsingConfig path text)) .ok := by
  have parsed : ofText? text = ofJson? value := by
    rw [ofText?, Json.ofText?_of_document document, Option.bind_some]
  simp only [load, found, parsed]
  cases ofJson? value <;> rfl

theorem document_toText (config : Config) : Json.Document config.toJson config.toText := by
  apply Json.document_of_written
  apply Json.written_object Json.spaced_compactStyle
  exact List.forall_mem_cons.mpr ⟨Json.written_ofNat _ _,
    List.forall_mem_singleton.mpr (Json.written_ofText _ _)⟩

/-- A configuration is loaded from what it is written as, and from any object that gives its fields
once, in any order and among other members. An object that gives a field twice or by a value of
another kind is not loaded. -/
theorem load_object (read : Reader) (path text : String) (found : read path = .ok text) :
    (∀ config : Config, config.memoryWords < UInt64.size → text = config.toText →
      load read path = .ok config) ∧
    ∀ members, Json.Document (.object members) text →
      (∀ words name, ConfigMembers members words name →
        load read path = .ok ⟨words.getD 256, name.getD "memory"⟩) ∧
      (FaultyMembers members →
        ∃ error, load read path = .error error ∧ error.context = "parsing config " ++ path) := by
  refine ⟨?_, fun members document => ⟨?_, ?_⟩⟩
  · rintro config small rfl
    rw [load_of_document found config.document_toText, ofJson?_toJson small, Option.elim_some]
  · intro words name given
    rw [load_of_document found document, ofJson?_of_configMembers given, Option.elim_some]
  · intro faulty
    refine ⟨.parsingConfig path text, ?_, rfl⟩
    rw [load_of_document found document, ofJson?_of_faultyMembers document faulty,
      Option.elim_none]

theorem load_object_other_member :
    load (fun _ => .ok "\x7b\"memory_words\":18446744073709551615,\"memory_name\":\"\\n\"\x7d")
        "a.json" = .ok ⟨18446744073709551615, "\n"⟩ ∧
      load (fun _ => .ok "\x7b \"x\":\t[ null ], \"memory_words\":\t7 \x7d") "a.json" =
        .ok ⟨7, "memory"⟩ ∧
      ∃ error, load (fun _ => .ok "\x7b\"memory_name\":null\x7d") "a.json" = .error error ∧
        error.context = "parsing config a.json" := by
  have spaced : Json.Style.Spaced ⟨fun _ => [' '], ['\t']⟩ :=
    ⟨fun _ => List.forall_mem_singleton.mpr rfl, List.forall_mem_singleton.mpr rfl⟩
  have null (style : Json.Style) : ∀ item ∈ [Json.null], Json.Written style item :=
    List.forall_mem_singleton.mpr fun _ => .nullWord
  have document := Json.document_of_written (@Json.written_object _ spaced
    [(some "x", .array [.null]), (some "memory_words", .ofNat 7)] (List.forall_mem_cons.mpr
      ⟨Json.written_array spaced (null _), List.forall_mem_singleton.mpr (Json.written_ofNat _ 7)⟩))
  have faulty := Json.document_of_written (@Json.written_object _ Json.spaced_compactStyle
    [(some "memory_name", .null)] (List.forall_mem_singleton.mpr fun _ => .nullWord))
  have loads (text : String) := load_object (fun _ => .ok text) "a.json" text rfl
  refine ⟨?_, ?_, ?_⟩
  · have written : "\x7b\"memory_words\":18446744073709551615,\"memory_name\":\"\\n\"\x7d" =
        toText ⟨18446744073709551615, "\n"⟩ := by
      decide
    exact (loads _).1 ⟨18446744073709551615, "\n"⟩ (by decide) written
  · have text : "\x7b \"x\":\t[ null ], \"memory_words\":\t7 \x7d" = String.ofList (Json.write
        ⟨fun _ => [' '], ['\t']⟩ 0
        (.object [(some "x", .array [.null]), (some "memory_words", .ofNat 7)])) := by
      decide
    rw [← text] at document
    exact ((loads _).2 _ document).1 (some 7) none ⟨by simp, by simp [UInt64.size], rfl, rfl⟩
  · have text : "\x7b\"memory_name\":null\x7d" = String.ofList (Json.write
        Json.compactStyle 0 (.object [(some "memory_name", .null)])) := by
      decide
    have foreign : FaultyMembers [(some "memory_name", .null)] :=
      .name (List.mem_singleton.mpr rfl) (by simp [Json.ofText])
    rw [← text] at faulty
    exact ((loads _).2 _ faulty).2 foreign

end Config

end TwoPass
