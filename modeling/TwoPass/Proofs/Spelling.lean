import Mathlib.Data.List.Forall2
import TwoPass.Proofs.LabelLines
import TwoPass.Proofs.Operands

/-!
Letters that may be written in either case: those of a mnemonic and the letter of a register. The
mnemonic is the first word of a line, after its label if it has one. Its capitals are those of any
text that differs from it in the case of ASCII letters alone, and no such change moves a separator,
a colon or a semicolon. A register is recognized before a label or a literal is, so its letter is
never looked at again.
-/

namespace TwoPass

namespace Text

/-- The texts differ at most in the case of ASCII letters. -/
def SameLetters (text other : List Char) : Prop :=
  text.map Char.toUpper = other.map Char.toUpper

theorem toUpper_of_le_toNat {c : Char} (large : 128 ≤ c.toNat) : c.toUpper = c := by
  have notLower : ¬(c.val ≥ 'a'.val ∧ c.val ≤ 'z'.val) := by
    rintro ⟨_, upper⟩
    have bound : c.toNat ≤ 122 := upper
    omega
  exact dif_neg notLower

theorem apply_toUpper {α : Type} (f : Char → α)
    (ascii : ∀ code < 128, f (Char.ofNat code).toUpper = f (Char.ofNat code)) (c : Char) :
    f c.toUpper = f c := by
  by_cases small : c.toNat < 128
  · have agrees := ascii c.toNat small
    rwa [Char.ofNat_toNat] at agrees
  · rw [toUpper_of_le_toNat (by omega)]

theorem isSeparator_toUpper (c : Char) : isSeparator c.toUpper = isSeparator c :=
  apply_toUpper isSeparator (by decide) c

theorem toUpper_eq_semicolon_iff (c : Char) : c.toUpper = ';' ↔ c = ';' := by
  simpa using apply_toUpper (· == ';') (by decide) c

theorem toUpper_eq_colon_iff (c : Char) : c.toUpper = ':' ↔ c = ':' := by
  simpa using apply_toUpper (· == ':') (by decide) c

theorem capitals_toUpper (c : Char) : capitals c.toUpper = capitals c := by
  by_cases small : c.toNat < 128
  · have ascii : ∀ code < 128, (Char.ofNat code).toUpper.toNat < 128 ∧
        (Char.ofNat code).toUpper.toUpper = (Char.ofNat code).toUpper := by
      decide
    have facts := ascii c.toNat small
    rw [Char.ofNat_toNat] at facts
    rw [capitals_of_toNat_lt _ facts.1, capitals_of_toNat_lt c small, facts.2]
  · rw [toUpper_of_le_toNat (by omega)]

namespace SameLetters

variable {text other : List Char}

theorem uppercase_eq (same : SameLetters text other) : uppercase text = uppercase other := by
  have folded (letters : List Char) : uppercase (letters.map Char.toUpper) = uppercase letters := by
    simp only [uppercase, List.flatMap_map, capitals_toUpper]
  rw [← folded text, same, folded other]

theorem ne_nil (same : SameLetters text other) (nonempty : text ≠ []) : other ≠ [] := by
  rintro rfl
  exact nonempty (List.map_eq_nil_iff.mp same)

theorem isSeparator_eq_false (same : SameLetters text other)
    (letters : ∀ c ∈ text, isSeparator c = false) : ∀ c ∈ other, isSeparator c = false := by
  have folded : ∀ c ∈ other.map Char.toUpper, isSeparator c = false := by
    rw [← same]
    simpa [isSeparator_toUpper] using letters
  simpa [isSeparator_toUpper] using folded

theorem not_mem {mark : Char} (fixed : ∀ c : Char, c.toUpper = mark ↔ c = mark)
    (same : SameLetters text other) (absent : mark ∉ text) : mark ∉ other := by
  have folded : mark ∉ other.map Char.toUpper := by
    rw [← same]
    simpa [fixed] using absent
  simpa [fixed] using folded

end SameLetters

theorem words_separators_append {gap : List Char} (separators : ∀ c ∈ gap, isSeparator c = true)
    (text : List Char) : words (gap ++ text) = words text := by
  induction gap with
  | nil => rfl
  | cons head tail ih =>
      rw [List.cons_append, words_cons_separator _ (separators head List.mem_cons_self)]
      exact ih fun c member => separators c (List.mem_cons_of_mem _ member)

theorem exists_of_words_eq_cons {text word : List Char} {others : List (List Char)}
    (split : words text = word :: others) :
    ∃ gap tail, text = gap ++ (word ++ tail) ∧ (∀ c ∈ gap, isSeparator c = true) ∧
      (∀ c ∈ tail.head?, isSeparator c = true) := by
  induction text with
  | nil => simp at split
  | cons head rest ih =>
      by_cases separator : isSeparator head = true
      · rw [words_cons_separator rest separator] at split
        obtain ⟨gap, tail, rfl, separators, ends⟩ := ih split
        refine ⟨head :: gap, tail, rfl, ?_, ends⟩
        simpa [separator] using separators
      · have letter : isSeparator head = false := Bool.eq_false_iff.mpr separator
        have letters : ∀ c ∈ head :: rest.takeWhile (!isSeparator ·), isSeparator c = false := by
          have kept := List.all_eq_true.mp (List.all_takeWhile (p := (!isSeparator ·)) (l := rest))
          simpa [letter] using kept
        have ends : ∀ c ∈ (rest.dropWhile (!isSeparator ·)).head?, isSeparator c = true := by
          simpa using head?_dropWhile (!isSeparator ·) rest
        have whole : head :: rest = (head :: rest.takeWhile (!isSeparator ·)) ++
            rest.dropWhile (!isSeparator ·) := by
          rw [List.cons_append, List.takeWhile_append_dropWhile]
        rw [whole, words_word_append (List.cons_ne_nil _ _) letters ends, List.cons.injEq] at split
        refine ⟨[], rest.dropWhile (!isSeparator ·), ?_, by simp, ends⟩
        rw [← split.1]
        exact whole

end Text

/-- What stands before the mnemonic of a line: a label and its colon, or separators alone if there
is no colon in the line. Separators may follow the colon. -/
inductive BeforeMnemonic (code : List Char) : List Char → Prop where
  | labelled {name gap : List Char} (first : ':' ∉ name)
      (separators : ∀ c ∈ gap, Text.isSeparator c = true) :
      BeforeMnemonic code (name ++ ':' :: gap)
  | plain {gap : List Char} (only : ':' ∉ code)
      (separators : ∀ c ∈ gap, Text.isSeparator c = true) : BeforeMnemonic code gap

/-- The line is `front`, then `token` as its mnemonic, then `back`. -/
structure MnemonicAt (front token back : List Char) : Prop where
  nonempty : token ≠ []
  letters : ∀ c ∈ token, Text.isSeparator c = false
  uncommented : ';' ∉ front ∧ ';' ∉ token
  ends : ∀ c ∈ back.head?, Text.isSeparator c = true ∨ c = ';'
  before : BeforeMnemonic (token ++ Statement.withoutComment back) front

namespace MnemonicAt

variable {front token other back : List Char}

theorem respell (placed : MnemonicAt front token back) (same : Text.SameLetters token other) :
    MnemonicAt front other back where
  nonempty := same.ne_nil placed.nonempty
  letters := same.isSeparator_eq_false placed.letters
  uncommented :=
    ⟨placed.uncommented.1, same.not_mem Text.toUpper_eq_semicolon_iff placed.uncommented.2⟩
  ends := placed.ends
  before := by
    cases placed.before with
    | labelled first separators => exact .labelled first separators
    | plain only separators =>
        rw [List.mem_append, not_or] at only
        have absent := same.not_mem Text.toUpper_eq_colon_iff only.1
        exact .plain (by simp [absent, only.2]) separators

theorem isSeparator_head?_withoutComment (placed : MnemonicAt front token back) :
    ∀ c ∈ (Statement.withoutComment back).head?, Text.isSeparator c = true := by
  intro c first
  cases back with
  | nil => simp [Statement.withoutComment] at first
  | cons head rest =>
      rw [Statement.withoutComment, List.takeWhile_cons] at first
      split at first
      · rename_i code
        obtain rfl : head = c := by simpa using first
        rcases placed.ends head rfl with separator | rfl
        · exact separator
        · simp at code
      · simp at first

theorem words_eq (placed : MnemonicAt front token back) {gap : List Char}
    (separators : ∀ c ∈ gap, Text.isSeparator c = true) :
    Text.words (gap ++ (token ++ Statement.withoutComment back)) =
      token :: Text.words (Statement.withoutComment back) := by
  rw [Text.words_separators_append separators]
  exact Text.words_word_append placed.nonempty placed.letters
    placed.isSeparator_head?_withoutComment

end MnemonicAt

namespace Statement

theorem exists_comment (text : List Char) :
    ∃ comment, text = withoutComment text ++ comment ∧ withoutComment comment = [] := by
  refine ⟨text.dropWhile (· != ';'), List.takeWhile_append_dropWhile.symm, ?_⟩
  have stops := Text.head?_dropWhile (· != ';') text
  cases rest : text.dropWhile (· != ';') with
  | nil => rfl
  | cons head tail =>
      have stop : (head != ';') = false := stops head (by rw [rest]; rfl)
      rw [withoutComment, List.takeWhile_cons, stop]
      rfl

def labelBefore (line : Nat) (front : List Char) : Except AssemblyError (Option String) :=
  match (splitLabel front).1 with
  | none => .ok none
  | some name => (checkLabel line (Text.trim name)).map some

variable {front token other back : List Char}

theorem ofChars?_of_mnemonicAt (line : Nat) (placed : MnemonicAt front token back) :
    ofChars? line (front ++ (token ++ back)) =
      (labelBefore line front).map fun label =>
        ofWords? line label (token :: Text.words (withoutComment back)) := by
  obtain ⟨frontPlain, tokenPlain⟩ := placed.uncommented
  cases placed.before with
  | @labelled name gap first separators =>
      simp only [List.mem_append, List.mem_cons, not_or] at frontPlain
      rw [List.append_assoc, List.cons_append, ofChars?_labelled line first frontPlain.1,
        withoutComment_append_of_not_mem frontPlain.2.2,
        withoutComment_append_of_not_mem tokenPlain, placed.words_eq separators, labelBefore,
        splitLabel_append first]
      simp only
      cases checkLabel line (Text.trim name) <;> rfl
  | plain only separators =>
      have frontOnly : ':' ∉ front := by
        intro member
        exact absurd (separators ':' member) (by decide)
      have code : withoutComment (front ++ (token ++ back)) =
          front ++ (token ++ withoutComment back) := by
        rw [withoutComment_append_of_not_mem frontPlain,
          withoutComment_append_of_not_mem tokenPlain]
      have unlabelled : ':' ∉ withoutComment (front ++ (token ++ back)) := by
        rw [code, List.mem_append, not_or]
        exact ⟨frontOnly, only⟩
      rw [ofChars?_unlabelled line unlabelled, code, placed.words_eq separators, labelBefore,
        splitLabel_of_not_mem frontOnly]
      rfl

theorem ofChars?_respell (line : Nat) (placed : MnemonicAt front token back)
    (same : Text.SameLetters token other) :
    ofChars? line (front ++ (other ++ back)) = ofChars? line (front ++ (token ++ back)) := by
  rw [ofChars?_of_mnemonicAt line placed, ofChars?_of_mnemonicAt line (placed.respell same)]
  simp only [ofWords?, same.uppercase_eq]

theorem exists_word_of_ofWords? {line : Nat} {label : Option String} {words : List (List Char)}
    {statement : Statement} {name : String} (read : ofWords? line label words = some statement)
    (named : statement.mnemonic = some name) :
    ∃ token others, words = token :: others ∧ name = String.ofList (Text.uppercase token) := by
  cases words with
  | nil =>
      obtain ⟨only, _, rfl⟩ := Option.map_eq_some_iff.mp read
      simp [labelOnly] at named
  | cons token others =>
      rw [ofWords?, Option.some.injEq] at read
      rw [← read, Option.some.injEq] at named
      exact ⟨token, others, rfl, named.symm⟩

theorem mnemonicAt_of_words (front : List Char) {rest comment : List Char}
    {others : List (List Char)} (plain : ';' ∉ front ++ rest) (silent : withoutComment comment = [])
    (split : Text.words rest = token :: others)
    (before : ∀ gap tail, rest = gap ++ (token ++ tail) →
      (∀ c ∈ gap, Text.isSeparator c = true) → BeforeMnemonic (token ++ tail) (front ++ gap)) :
    ∃ gap back, front ++ rest ++ comment = (front ++ gap) ++ (token ++ back) ∧
      MnemonicAt (front ++ gap) token back := by
  obtain ⟨nonempty, letters⟩ := Text.mem_words (split ▸ List.mem_cons_self)
  obtain ⟨gap, tail, rfl, separators, ends⟩ := Text.exists_of_words_eq_cons split
  simp only [List.mem_append, not_or] at plain
  obtain ⟨frontPlain, gapPlain, tokenPlain, tailPlain⟩ := plain
  have code : withoutComment (tail ++ comment) = tail := by
    rw [withoutComment_append_of_not_mem tailPlain, silent, List.append_nil]
  refine ⟨gap, tail ++ comment, by simp, nonempty, letters, ?_, ?_, ?_⟩
  · simp [frontPlain, gapPlain, tokenPlain]
  · intro c first
    cases tail with
    | nil =>
        cases comment with
        | nil => simp at first
        | cons head others =>
            obtain rfl : head = c := by simpa using first
            right
            simpa [withoutComment, List.takeWhile_cons] using silent
    | cons head others => exact .inl (ends c first)
  · rw [code]
    exact before gap tail rfl separators

theorem exists_mnemonicAt {line : Nat} {text : List Char} {statement : Statement} {name : String}
    (read : ofChars? line text = .ok (some statement)) (named : statement.mnemonic = some name) :
    ∃ front token back, text = front ++ (token ++ back) ∧ MnemonicAt front token back ∧
      name = String.ofList (Text.uppercase token) := by
  obtain ⟨comment, whole, silent⟩ := exists_comment text
  have plain := not_mem_withoutComment text
  unfold ofChars? at read
  generalize withoutComment text = code at whole plain read
  by_cases colon : ':' ∈ code
  · obtain ⟨label, rest, rfl, first⟩ := List.eq_append_cons_of_mem colon
    rw [splitLabel_append first] at read
    simp only at read
    split at read
    · simp at read
    · obtain ⟨token, others, split, same⟩ := exists_word_of_ofWords? (Except.ok.inj read) named
      have unbroken : ';' ∉ (label ++ [':']) ++ rest := by simpa using plain
      obtain ⟨gap, back, parts, placed⟩ := mnemonicAt_of_words _ unbroken silent split
        fun gap tail _ separators => by
          simpa using BeforeMnemonic.labelled first separators
      refine ⟨_, token, back, ?_, placed, same⟩
      rw [whole, ← parts]
      simp
  · rw [splitLabel_of_not_mem colon] at read
    obtain ⟨token, others, split, same⟩ := exists_word_of_ofWords? (Except.ok.inj read) named
    obtain ⟨gap, back, parts, placed⟩ := mnemonicAt_of_words [] plain silent split
      fun gap tail whole separators => by
        refine .plain ?_ separators
        intro member
        exact colon (whole ▸ List.mem_append_right gap member)
    exact ⟨_, token, back, whole.trans parts, placed, same⟩

end Statement

/-- The tokens are the same, or they name one register. -/
def SameOperand (token other : String) : Prop :=
  token = other ∨ ∃ number, NamesRegister token number ∧ NamesRegister other number

namespace SameOperand

variable {token other : String}

theorem ofToken?_eq (same : SameOperand token other) :
    Register.ofToken? other = Register.ofToken? token := by
  rcases same with rfl | ⟨number, named, otherNamed⟩
  · rfl
  · obtain ⟨register, found, rfl⟩ := Register.exists_ofToken?_of_namesRegister named
    rw [found, Register.ofToken?_eq_some_iff]
    exact otherNamed

theorem eq_of_not_register (same : SameOperand token other)
    (notRegister : Register.ofToken? token = none) : other = token := by
  rcases same with rfl | ⟨number, named, _⟩
  · rfl
  · exact absurd named ((Register.ofToken?_eq_none_iff token).mp notRegister number)

theorem lowValue_eq (same : SameOperand token other) (table : SymbolTable) :
    Operand.lowValue table other = Operand.lowValue table token := by
  cases found : Register.ofToken? token with
  | none => rw [same.eq_of_not_register found]
  | some register =>
      have otherFound := same.ofToken?_eq.trans found
      rw [Operand.lowValue_of_register found, Operand.lowValue_of_register otherFound]

end SameOperand

section

variable {tokens others : List String} (same : List.Forall₂ SameOperand tokens others)

include same

theorem OperandTokens.bind_token_eq {α : Type} (mnemonic : Mnemonic) (arity index : Nat)
    {read : String → Except EncodeError α}
    (blind : ∀ token other, SameOperand token other → read other = read token) :
    (OperandTokens.token ⟨mnemonic, arity, others⟩ index).bind read =
      (OperandTokens.token ⟨mnemonic, arity, tokens⟩ index).bind read := by
  unfold OperandTokens.token
  simp only
  by_cases inside : index < tokens.length
  · have otherInside : index < others.length := same.length_eq ▸ inside
    rw [List.getElem?_eq_getElem inside, List.getElem?_eq_getElem otherInside]
    exact blind _ _ (same.get inside otherInside)
  · have otherOutside : ¬index < others.length := same.length_eq ▸ inside
    rw [List.getElem?_eq_none (by omega), List.getElem?_eq_none (by omega)]

theorem OperandTokens.register_respell (mnemonic : Mnemonic) (arity index : Nat)
    (table : SymbolTable) :
    OperandTokens.register ⟨mnemonic, arity, others⟩ table index =
      OperandTokens.register ⟨mnemonic, arity, tokens⟩ table index := by
  rw [register_eq_namedRegister, register_eq_namedRegister]
  apply bind_token_eq same
  intro token other same
  cases found : Register.ofToken? token with
  | none => rw [same.eq_of_not_register found, found]
  | some register => rw [same.ofToken?_eq, found, Option.elim_some, Option.elim_some]

theorem OperandTokens.value_respell (mnemonic : Mnemonic) (arity index : Nat)
    (table : SymbolTable) :
    OperandTokens.value ⟨mnemonic, arity, others⟩ table index =
      OperandTokens.value ⟨mnemonic, arity, tokens⟩ table index := by
  rw [Reading.value_eq_lowValue, Reading.value_eq_lowValue]
  apply bind_token_eq same
  intro token other same
  exact same.lowValue_eq table

theorem Instruction.ofTokens_respell (table : SymbolTable) (name : String) :
    Instruction.ofTokens table name others = Instruction.ofTokens table name tokens := by
  simp only [Instruction.ofTokens, Instruction.build, same.length_eq,
    OperandTokens.register_respell same, OperandTokens.value_respell same]

end

/-- The statements differ at most in the letters of registers. -/
structure Statement.Respells (statement other : Statement) : Prop where
  line : other.line = statement.line
  mnemonic : other.mnemonic = statement.mnemonic
  label : other.label = statement.label
  operands : List.Forall₂ SameOperand statement.operands other.operands

theorem Statement.Respells.isPlaced_eq {statement other : Statement}
    (respells : statement.Respells other) : other.isPlaced = statement.isPlaced := by
  rw [Statement.isPlaced, Statement.isPlaced, respells.mnemonic]

namespace Layout

variable {statements others : List Statement}

theorem bindLabels_respell (respells : List.Forall₂ Statement.Respells statements others)
    (table : SymbolTable) (address : UInt32) :
    bindLabels table address others = bindLabels table address statements := by
  induction respells generalizing table address with
  | nil => rfl
  | cons first _ ih => simp only [bindLabels, first.isPlaced_eq, first.label, first.line, ih]

theorem code_respell (respells : List.Forall₂ Statement.Respells statements others) :
    List.Forall₂ Statement.Respells (code statements) (code others) := by
  induction respells with
  | nil => exact .nil
  | @cons statement other _ _ first _ ih =>
      by_cases placed : statement.isPlaced = true
      · simpa [code, first.isPlaced_eq, placed] using ⟨first, ih⟩
      · simpa [code, first.isPlaced_eq, placed] using ih

theorem encode_respell (table : SymbolTable) (address : UInt32) {statement other : Statement}
    (respells : statement.Respells other) :
    PlacedStatement.encode table ⟨address, other⟩ =
      PlacedStatement.encode table ⟨address, statement⟩ := by
  simp only [PlacedStatement.encode, Statement.name, respells.mnemonic, respells.line,
    Instruction.ofTokens_respell respells.operands]

theorem mapM_encode_zipIdx_respell (respells : List.Forall₂ Statement.Respells statements others)
    (table : SymbolTable) (start : Nat) :
    ((others.zipIdx start).mapM
        fun pair => PlacedStatement.encode table ⟨pair.2.toUInt32, pair.1⟩) =
      (statements.zipIdx start).mapM
        fun pair => PlacedStatement.encode table ⟨pair.2.toUInt32, pair.1⟩ := by
  induction respells generalizing start with
  | nil => rfl
  | cons first _ ih =>
      rw [List.zipIdx_cons, List.zipIdx_cons, Result.mapM_cons_eq, Result.mapM_cons_eq,
        encode_respell table _ first, ih]

theorem mapM_encode_place_respell (respells : List.Forall₂ Statement.Respells statements others)
    (table : SymbolTable) :
    (place others).mapM (PlacedStatement.encode table) =
      (place statements).mapM (PlacedStatement.encode table) := by
  rw [place, place, placedFrom, placedFrom, List.mapM_map, List.mapM_map]
  exact mapM_encode_zipIdx_respell (code_respell respells) table 0

end Layout

theorem Assembler.assembleStatements_respell (config : Config) {statements others : List Statement}
    (respells : List.Forall₂ Statement.Respells statements others) :
    ({ config } : Assembler).assembleStatements others =
      ({ config } : Assembler).assembleStatements statements := by
  rw [assembleStatements_default, assembleStatements_default, Layout.bindLabels_respell respells]
  simp only [Layout.mapM_encode_place_respell respells]

/-- The case of a mnemonic's letters and that of a register's letter are not seen. Every statement
with a mnemonic has it from a token of its line, so the first part leaves no such line out. -/
theorem letter_case_unseen :
    (∀ (line : Nat) (front token other back : List Char),
      MnemonicAt front token back → Text.SameLetters token other →
        Statement.ofLine? line (String.ofList (front ++ (other ++ back))) =
          Statement.ofLine? line (String.ofList (front ++ (token ++ back)))) ∧
    (∀ (line : Nat) (text : String) (statement : Statement) (name : String),
      Statement.ofLine? line text = .ok (some statement) → statement.mnemonic = some name →
        ∃ front token back, text = String.ofList (front ++ (token ++ back)) ∧
          MnemonicAt front token back ∧ name = String.ofList (Text.uppercase token)) ∧
    (∀ (table : SymbolTable) (name : String) (tokens others : List String),
      List.Forall₂ SameOperand tokens others →
        Instruction.ofTokens table name others = Instruction.ofTokens table name tokens) ∧
    ∀ (config : Config) (statements others : List Statement),
      List.Forall₂ Statement.Respells statements others →
        ({ config } : Assembler).assembleStatements others =
          ({ config } : Assembler).assembleStatements statements := by
  refine ⟨?_, ?_, ?_, ?_⟩
  · intro line front token other back placed same
    simpa [Statement.ofLine?] using Statement.ofChars?_respell line placed same
  · intro line text statement name read named
    obtain ⟨front, token, back, parts, placed, same⟩ := Statement.exists_mnemonicAt read named
    exact ⟨front, token, back, by rw [← parts, String.ofList_toList], placed, same⟩
  · intro table name tokens others same
    exact Instruction.ofTokens_respell same table name
  · intro config statements others respells
    exact Assembler.assembleStatements_respell config respells

theorem letter_case_unseen_label_like_register :
    Statement.ofLine? 1 "R1: puſH r1" = Statement.ofLine? 1 "R1: PUſh r1" ∧
      ({} : Assembler).assembleStatements [⟨1, some "JUMP", ["r1"], some "R1"⟩] =
        ({} : Assembler).assembleStatements [⟨1, some "JUMP", ["R1"], some "R1"⟩] := by
  have placed : MnemonicAt ['R', '1', ':', ' '] ['P', 'U', 'ſ', 'h'] [' ', 'r', '1'] := by
    refine ⟨by simp, ?_, by simp, ?_, @BeforeMnemonic.labelled _ ['R', '1'] [' '] ?_ ?_⟩
    · simp only [List.mem_cons, List.not_mem_nil, or_false, forall_eq_or_imp, forall_eq]
      decide
    · intro c first
      obtain rfl : ' ' = c := by simpa using first
      exact .inl rfl
    · simp
    · simp only [List.mem_singleton, forall_eq]
      decide
  have same : Text.SameLetters ['P', 'U', 'ſ', 'h'] ['p', 'u', 'ſ', 'H'] := by
    unfold Text.SameLetters
    decide
  have operands : List.Forall₂ SameOperand ["R1"] ["r1"] :=
    .cons (.inr ⟨1, ⟨by decide, .inl rfl⟩, ⟨by decide, .inr rfl⟩⟩) .nil
  constructor
  · have spelled := letter_case_unseen.1 1 _ _ _ _ placed same
    simpa only [List.cons_append, List.nil_append] using spelled
  · exact letter_case_unseen.2.2.2 {} _ _ (.cons ⟨rfl, rfl, rfl, operands⟩ .nil)

end TwoPass
