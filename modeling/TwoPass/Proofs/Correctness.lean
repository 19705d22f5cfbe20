import TwoPass.Proofs.SecondPass

/-!
What a successful run has made of the statements that its front end returned. The addresses that
labels stand for come from the first pass and the addresses of words from the second; both count
the same statements.
-/

namespace TwoPass

/-- The program has one instruction for each statement that takes an address, at the number of such
statements before it. A reference to a label stands for the number of them before its carrier. -/
structure Realizes (statements : List Statement) (program : Program) : Prop where
  count : program.instructions.length = addressCount statements
  entry : ∀ (index : Nat) (encoded : EncodedInstruction),
    program.instructions[index]? = some encoded →
      ∃ statement, (code statements)[index]? = some statement ∧
        encoded.address.toNat = index ∧ encoded.line = statement.line ∧
        statement.encode program.symbols = .ok encoded.word
  reference : ∀ (index position : Nat) (encoded : EncodedInstruction)
    (statement carrier : Statement) (token : String),
    program.instructions[index]? = some encoded → (code statements)[index]? = some statement →
      statement.valueToken? = some token → Register.ofToken? token = none →
      statements[position]? = some carrier → carrier.label = some token →
        encoded.word.toNat % 64 = addressCount (statements.take position) ∧
          ∀ other second, statements[other]? = some second → second.label = some token →
            other = position

theorem Assembled.realizes {statements : List Statement} {program : Program}
    (assembled : Assembled statements program) (small : addressCount statements < UInt32.size) :
    Realizes statements program := by
  have toNat_of_le {address : Nat} (bound : address ≤ addressCount statements) :
      address.toUInt32.toNat = address :=
    UInt32.toNat_ofNat_of_lt' (Nat.lt_of_le_of_lt bound small)
  have count := assembled.length_instructions
  refine ⟨count, ?_, ?_⟩
  · intro index encoded found
    obtain ⟨statement, there, address, line, word⟩ := assembled.getElem?_instructions found
    have bound := (List.getElem?_eq_some_iff.mp found).1
    exact ⟨statement, there, by rw [address, toNat_of_le (by omega)], line, word⟩
  · intro index position encoded statement carrier token found there operand notRegister carried
      named
    obtain ⟨same, thereSame, _, _, word⟩ := assembled.getElem?_instructions found
    rw [there, Option.some.injEq] at thereSame
    subst same
    have bound := resolve?_of_label assembled.symbols carried named
    refine ⟨?_, fun other second otherFound otherNamed => ?_⟩
    · rw [Statement.low_of_label word operand notRegister bound]
      exact toNat_of_le (addressCount_take_le statements position)
    · exact position_unique assembled.labels_nodup otherFound otherNamed carried named

namespace Assembler

/-- Every successful run realizes the statements that its front end returned. -/
theorem assemble_realizes (assembler : Assembler) (source : String) (program : Program)
    (success : assembler.assemble source = .ok program) :
    ∃ parsed lowered, Statement.ofSource source = .ok parsed ∧
      assembler.frontEnd parsed = .ok lowered ∧
      (addressCount lowered < UInt32.size → Realizes lowered program) := by
  rw [assemble_eq] at success
  obtain ⟨parsed, read, success⟩ := Result.exists_of_bind_eq_ok success
  have stages := success
  rw [assembleStatements_eq] at stages
  obtain ⟨lowered, lowers, _⟩ := Result.exists_of_bind_eq_ok stages
  have assembled := (assembleStatements_eq_ok_iff lowers program).mp success
  exact ⟨parsed, lowered, read, lowers, assembled.realizes⟩

theorem assemble_realizes_reversed :
    ∃ program,
      ({ frontEnd := fun statements => .ok statements.reverse } : Assembler).assemble
        "JUMP end\nend:\nHALT\nJUMP end\n" = .ok program ∧
      Realizes [⟨4, some "JUMP", ["end"], none⟩, ⟨3, some "HALT", [], none⟩,
        ⟨2, none, [], some "end"⟩, ⟨1, some "JUMP", ["end"], none⟩] program ∧
      program.words = [0xC002, 0xF000, 0xC002] := by
  refine ⟨⟨⟨[⟨"end", 2, 2⟩], by decide⟩,
    [⟨0, 0xC002, 4⟩, ⟨1, 0xF000, 3⟩, ⟨2, 0xC002, 1⟩]⟩, rfl, ?_, rfl⟩
  obtain ⟨parsed, lowered, read, lowers, realizes⟩ := assemble_realizes
    { frontEnd := fun statements => .ok statements.reverse }
    "JUMP end\nend:\nHALT\nJUMP end\n" _ rfl
  have parsedEq : Except.ok parsed = Except.ok [⟨1, some "JUMP", ["end"], none⟩,
      ⟨2, none, [], some "end"⟩, ⟨3, some "HALT", [], none⟩, ⟨4, some "JUMP", ["end"], none⟩] :=
    read.symm.trans rfl
  cases parsedEq
  cases lowers
  exact realizes (by decide)

end Assembler

end TwoPass
