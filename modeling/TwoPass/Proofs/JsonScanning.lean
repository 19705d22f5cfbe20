import TwoPass.Proofs.JsonGrammar

/-!
The texts that are scanned. Their tokens stand one after the other, each spelled as the grammar has
it, and there is nothing between them but space.
-/

namespace TwoPass.Json

inductive TokenText : Token → List Char → Prop where
  | leftBracket : TokenText .leftBracket ['[']
  | rightBracket : TokenText .rightBracket [']']
  | leftBrace : TokenText .leftBrace ['\x7b']
  | rightBrace : TokenText .rightBrace ['\x7d']
  | colon : TokenText .colon [':']
  | comma : TokenText .comma [',']
  | scalar {value : Json} {text : List Char} (spelled : Spelled (.value value) text) :
      TokenText (.scalar value) text
  | string {text : Option String} {spelling : List Char} (spelled : StringText text spelling) :
      TokenText (.string text) spelling

inductive TokensText : List Token → List Char → Prop where
  | nil {gap : List Char} (spaces : Spaces gap) : TokensText [] gap
  | cons {token : Token} {tokens : List Token} {before text gap : List Char}
      (earlier : TokensText tokens before) (spelled : TokenText token text)
      (spaces : Spaces gap) : TokensText (token :: tokens) (before ++ (text ++ gap))

theorem Spaces.snoc {gap : List Char} {c : Char} (spaces : Spaces gap) (space : isSpace c = true) :
    Spaces (gap ++ [c]) :=
  List.forall_mem_append.mpr ⟨spaces, List.forall_mem_singleton.mpr space⟩

theorem TokensText.add {token : Token} {tokens : List Token} {before text : List Char}
    (earlier : TokensText tokens before) (spelled : TokenText token text) :
    TokensText (token :: tokens) (before ++ text) := by
  have added := earlier.cons spelled spaces_nil
  rwa [List.append_nil] at added

theorem TokensText.addSpace {tokens : List Token} {text : List Char} {c : Char}
    (spelled : TokensText tokens text) (space : isSpace c = true) :
    TokensText tokens (text ++ [c]) := by
  cases spelled with
  | nil spaces => exact .nil (spaces.snoc space)
  | cons earlier token spaces =>
      rw [List.append_assoc, List.append_assoc]
      exact earlier.cons token (spaces.snoc space)

inductive ScanText : Scan → List Char → Prop where
  | between {tokens : List Token} {text : List Char} (earlier : TokensText tokens text) :
      ScanText ⟨tokens, .between⟩ text
  | word {tokens : List Token} {before letters : List Char} (earlier : TokensText tokens before) :
      ScanText ⟨tokens, .word letters⟩ (before ++ letters.reverse)
  | number {tokens : List Token} {before characters : List Char}
      (earlier : TokensText tokens before) :
      ScanText ⟨tokens, .number characters⟩ (before ++ characters.reverse)
  | string {tokens : List Token} {before inner : List Char} {codes : List Nat}
      (earlier : TokensText tokens before) (coded : Coded inner codes.reverse) :
      ScanText ⟨tokens, .string codes⟩ (before ++ '"' :: inner)
  | escape {tokens : List Token} {before inner : List Char} {codes : List Nat}
      (earlier : TokensText tokens before) (coded : Coded inner codes.reverse) :
      ScanText ⟨tokens, .escape codes⟩ (before ++ '"' :: (inner ++ ['\\']))
  | code {tokens : List Token} {before inner digits : List Char} {codes : List Nat}
      {missing value : Nat} (earlier : TokensText tokens before)
      (coded : Coded inner codes.reverse) (unfinished : 0 < missing)
      (four : digits.length + missing = 4)
      (read : digits.foldlM
        (fun total c => (Text.digitValue? 16 c).map fun digit => 16 * total + digit) 0 =
          some value) :
      ScanText ⟨tokens, .code codes missing value⟩
        (before ++ '"' :: (inner ++ '\\' :: 'u' :: digits))

theorem tokenText_of_scalarOfWord? {letters : List Char} {value : Json}
    (read : scalarOfWord? letters = some value) : TokenText (.scalar value) letters := by
  simp only [scalarOfWord?] at read
  split at read
  · rename_i same
    obtain rfl := Option.some.inj read
    exact same ▸ .scalar .nullWord
  · split at read
    · rename_i same
      obtain rfl := Option.some.inj read
      exact same ▸ .scalar .trueWord
    · split at read
      · rename_i same
        obtain rfl := Option.some.inj read
        exact same ▸ .scalar .falseWord
      · simp at read

theorem tokenText_of_scalarOfNumber? {characters : List Char} {value : Json}
    (read : scalarOfNumber? characters = some value) : TokenText (.scalar value) characters := by
  simp only [scalarOfNumber?, Option.ite_none_right_eq_some, Option.some.injEq] at read
  obtain ⟨isNumber, rfl⟩ := read
  exact .scalar (.number (numberText_of_isNumber isNumber))

theorem scanText_start {tokens : List Token} {text : List Char} {c : Char} {next : Scan}
    (earlier : TokensText tokens text) (started : Scan.start tokens c = some next) :
    ScanText next (text ++ [c]) := by
  unfold Scan.start at started
  split at started
  · rename_i space
    obtain rfl := Option.some.inj started
    exact .between (earlier.addSpace space)
  split at started
  · obtain rfl := Option.some.inj started
    exact .number earlier
  split at started
  · obtain rfl := Option.some.inj started
    exact .word earlier
  split at started
  · obtain rfl := Option.some.inj started
    exact .string earlier .nil
  · obtain rfl := Option.some.inj started
    exact .between (earlier.add .leftBracket)
  · obtain rfl := Option.some.inj started
    exact .between (earlier.add .rightBracket)
  · obtain rfl := Option.some.inj started
    exact .between (earlier.add .leftBrace)
  · obtain rfl := Option.some.inj started
    exact .between (earlier.add .rightBrace)
  · obtain rfl := Option.some.inj started
    exact .between (earlier.add .colon)
  · obtain rfl := Option.some.inj started
    exact .between (earlier.add .comma)
  · simp at started

theorem scanText_code {tokens : List Token} {before inner part : List Char} {codes : List Nat}
    {code : Nat} (earlier : TokensText tokens before) (coded : Coded inner codes.reverse)
    (added : Coded part [code]) :
    ScanText ⟨tokens, .string (code :: codes)⟩ (before ++ '"' :: (inner ++ part)) := by
  refine .string earlier ?_
  rw [List.reverse_cons]
  exact coded.append added

theorem scanText_step {scan next : Scan} {text : List Char} {c : Char}
    (scanned : ScanText scan text) (stepped : scan.step c = some next) :
    ScanText next (text ++ [c]) := by
  cases scanned with
  | between earlier => exact scanText_start earlier stepped
  | word earlier =>
      simp only [Scan.step] at stepped
      split at stepped
      · obtain rfl := Option.some.inj stepped
        rw [List.append_assoc, ← List.reverse_cons]
        exact .word earlier
      · obtain ⟨value, read, started⟩ := Option.bind_eq_some_iff.mp stepped
        exact scanText_start (earlier.add (tokenText_of_scalarOfWord? read)) started
  | number earlier =>
      simp only [Scan.step] at stepped
      split at stepped
      · obtain rfl := Option.some.inj stepped
        rw [List.append_assoc, ← List.reverse_cons]
        exact .number earlier
      · obtain ⟨value, read, started⟩ := Option.bind_eq_some_iff.mp stepped
        exact scanText_start (earlier.add (tokenText_of_scalarOfNumber? read)) started
  | string earlier coded =>
      rw [List.append_assoc, List.cons_append]
      simp only [Scan.step] at stepped
      split at stepped
      · rename_i quote
        obtain rfl := Option.some.inj stepped
        rw [quote]
        exact .between (earlier.add (.string coded.stringText))
      split at stepped
      · rename_i backslash
        obtain rfl := Option.some.inj stepped
        rw [backslash]
        exact .escape earlier coded
      split at stepped
      · simp at stepped
      · rename_i notQuote notBackslash printable
        obtain rfl := Option.some.inj stepped
        exact scanText_code earlier coded
          (.plain (Nat.not_lt.mp printable) notQuote notBackslash .nil)
  | escape earlier coded =>
      rw [List.append_assoc, List.cons_append, List.append_assoc]
      simp only [Scan.step] at stepped
      split at stepped
      · rename_i letter
        obtain rfl := Option.some.inj stepped
        rw [letter]
        exact .code earlier coded (by decide) rfl rfl
      · obtain ⟨code, escaped, rfl⟩ := Option.map_eq_some_iff.mp stepped
        obtain ⟨meant, escape, rfl⟩ := exists_shortEscape escaped
        exact scanText_code earlier coded (.short escape .nil)
  | @code tokens before inner digits codes missing value earlier coded unfinished four read =>
      rw [List.append_assoc, List.cons_append, List.append_assoc, List.cons_append,
        List.cons_append]
      obtain ⟨digit, isDigit, rfl⟩ := Option.map_eq_some_iff.mp stepped
      have longer : (digits ++ [c]).foldlM
          (fun total c => (Text.digitValue? 16 c).map fun digit => 16 * total + digit) 0 =
            some (16 * value + digit) := by
        simp [List.foldlM_append, read, isDigit]
      split
      · have spelled : Text.Spells 16 (digits ++ [c]) (16 * value + digit) := by
          rw [← Text.number?_eq_some_iff (by decide), Text.number?, if_neg (by simp)]
          exact longer
        have whole := Coded.hexadecimal (by simp; omega) spelled .nil
        rw [List.append_nil] at whole
        exact scanText_code earlier coded whole
      · exact .code earlier coded (by omega) (by simp; omega) longer

theorem scanText_foldlM {scan last : Scan} {before text : List Char}
    (scanned : ScanText scan before) (run : text.foldlM Scan.step scan = some last) :
    ScanText last (before ++ text) := by
  induction text generalizing scan before with
  | nil =>
      obtain rfl := Option.some.inj run
      rwa [List.append_nil]
  | cons c rest ih =>
      rw [List.foldlM_cons] at run
      obtain ⟨next, stepped, later⟩ := Option.bind_eq_some_iff.mp run
      rw [List.append_cons]
      exact ih (scanText_step scanned stepped) later

theorem tokensText_of_finish {scan : Scan} {text : List Char} {tokens : List Token}
    (scanned : ScanText scan text) (finished : scan.finish = some tokens) :
    TokensText tokens.reverse text := by
  cases scanned with
  | between earlier =>
      obtain rfl := Option.some.inj finished
      rwa [List.reverse_reverse]
  | word earlier =>
      obtain ⟨value, read, rfl⟩ := Option.map_eq_some_iff.mp finished
      rw [List.reverse_reverse]
      exact earlier.add (tokenText_of_scalarOfWord? read)
  | number earlier =>
      obtain ⟨value, read, rfl⟩ := Option.map_eq_some_iff.mp finished
      rw [List.reverse_reverse]
      exact earlier.add (tokenText_of_scalarOfNumber? read)
  | string | escape | code => simp [Scan.finish] at finished

theorem tokensText_of_tokens? {text : List Char} {tokens : List Token}
    (scanned : tokens? text = some tokens) : TokensText tokens.reverse text := by
  obtain ⟨last, run, finished⟩ := Option.bind_eq_some_iff.mp scanned
  have start : ScanText ⟨[], .between⟩ [] := .between (.nil spaces_nil)
  exact tokensText_of_finish (scanText_foldlM start run) finished

end TwoPass.Json
