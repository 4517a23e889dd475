import RiscAssembly.Proofs.Resolution

/-!
What an operand that names a label becomes. A data label is replaced first, by its address
in decimal, and the outcome is looked up among the labels of the text like any other
operand. A label of the text may be spelled as a number, and so it can take the place of
that address: the data label keeps it exactly if no label of the text is spelled like the
address, or is as far away as the address says.
-/

namespace RiscAssembly

open SymbolTable

theorem signedDecimal_eq_decimal (distance : Int) (n : Nat) (low : -2 ^ 63 ≤ distance)
    (high : distance < 2 ^ 64) (small : n < 2 ^ 64)
    (same : Text.signedDecimal distance = Text.decimal n) : distance = n := by
  have value := Literal.value_signedDecimal distance low high
  rw [same, Literal.value_decimal n small, Option.some.injEq] at value
  exact value.symm

section Operand

variable (code : SymbolTable UInt32) (data : SymbolTable UInt64) (base : UInt64)
variable (address : UInt32) (operand : Text)

theorem resolveOperand_data (offset : UInt64) (found : data.address? operand = some offset) :
    resolveOperand code data base address operand =
      codeReference code address (Text.decimal ((base.toNat + offset.toNat) % 2 ^ 64)) := by
  simp only [resolveOperand, dataReference, found, UInt64.toNat_add]

/-- A number stays itself exactly if no label of that spelling is at another distance. -/
theorem codeReference_decimal (n : Nat) (small : n < 2 ^ 64) :
    codeReference code address (Text.decimal n) = Text.decimal n ↔
      ∀ target, code.address? (Text.decimal n) = some target →
        (target.toNat : Int) - address.toNat = n := by
  cases found : code.address? (Text.decimal n) with
  | none => simp [codeReference, found]
  | some target =>
      simp only [codeReference, found, Option.some.injEq, forall_eq']
      constructor
      · -- Equal spellings read as equal numbers.
        intro same
        have below := target.toNat_lt
        have above := address.toNat_lt
        exact signedDecimal_eq_decimal _ n (by omega) (by omega) small same
      · intro same
        rw [same]
        rfl

end Operand

/-- The operand of a written instruction that names a data label becomes the address of the
label, unless a label of the text takes the place of that address. -/
theorem data_reference_exact (path source : Text) (base : UInt64) (program : Program)
    (sections : Sections) (assembled : assemble path source base = .ok program)
    (split : Sections.ofSource source = .ok sections) (index line : Nat) (mnemonic : Text)
    (operands : List Text)
    (written : (writtenInstructions sections.text)[index]? = some (line, mnemonic :: operands))
    (position : Nat) (operand : Text) (placed : operands[position]? = some operand) :
    ∃ instruction layout, program.instructions[index]? = some instruction ∧
      dataLayoutFrom 0 sections.data = .ok layout ∧
      (∀ symbol, lastDefinition? layout.definitions operand = some symbol →
        let n := (base.toNat + symbol.address.toNat) % 2 ^ 64
        (instruction.tokens[position + 1]? = some (Text.decimal n) ↔
          ∀ target, program.codeSymbols.address? (Text.decimal n) = some target →
            (target.toNat : Int) - instruction.address.toNat = n) ∧
        ∀ target, program.codeSymbols.address? (Text.decimal n) = some target →
          instruction.tokens[position + 1]? =
            some (Text.signedDecimal ((target.toNat : Int) - instruction.address.toNat))) ∧
      (lastDefinition? layout.definitions operand = none →
        program.codeSymbols.address? operand = none →
        instruction.tokens[position + 1]? = some operand) := by
  obtain ⟨stages, leads⟩ := assemble_ok path source base program assembled
  obtain rfl := leads.sections_eq sections split
  obtain ⟨instruction, found, -, tokens⟩ := leads.resolved index line mnemonic operands written
  have data : program.dataSymbols.address? operand =
      (lastDefinition? stages.layout.definitions operand).map Symbol.address := by
    rw [leads.data, address_define_empty]
  have token : instruction.tokens[position + 1]? = some (resolveOperand program.codeSymbols
      program.dataSymbols base instruction.address operand) := by
    rw [tokens, List.getElem?_cons_succ, List.getElem?_map, placed, Option.map_some]
  refine ⟨instruction, stages.layout, found, leads.laid, ?_, ?_⟩
  · intro symbol last n
    rw [last, Option.map_some] at data
    rw [token, resolveOperand_data _ _ _ _ _ _ data, Option.some.injEq]
    refine ⟨codeReference_decimal _ _ n (Nat.mod_lt _ (by decide)), ?_⟩
    intro target captured
    rw [codeReference, captured]
  · intro notData notCode
    rw [notData, Option.map_none] at data
    rw [token, resolveOperand_unchanged _ _ _ _ _ notCode data]

/-- One name for both kinds of label: the data label is meant. -/
theorem data_reference_same_name :
    let source := ".data\nx: .word 1\ny: .word 2\n.text\n.globl main\nmain:\ny:\nla a0, y".toList
    ∃ program instruction, assemble [] source 4096 = .ok program ∧
      program.codeSymbols.address? "y".toList = some 0 ∧
      program.instructions[0]? = some instruction ∧
      instruction.tokens[2]? = some (Text.decimal 4100) := by
  obtain ⟨instruction, layout, found, laid, names, -⟩ := data_reference_exact []
    ".data\nx: .word 1\ny: .word 2\n.text\n.globl main\nmain:\ny:\nla a0, y".toList 4096 _ _
    rfl rfl 0 8 "la".toList ["a0".toList, "y".toList] rfl 1 "y".toList rfl
  cases laid
  have spelled := (names ⟨"y".toList, 3, 4⟩ rfl).1
  refine ⟨_, instruction, rfl, rfl, found, spelled.mpr ?_⟩
  intro target captured
  cases captured

/-- A label spelled `0` takes the place of the address zero. -/
theorem data_reference_captured :
    ¬ ∀ (path source : Text) (base : UInt64) (program : Program) (sections : Sections)
        (layout : DataLayout) (index line position : Nat) (mnemonic operand : Text)
        (operands : List Text) (symbol : Symbol UInt64) (instruction : Instruction),
      assemble path source base = .ok program → Sections.ofSource source = .ok sections →
      dataLayoutFrom 0 sections.data = .ok layout →
      (writtenInstructions sections.text)[index]? = some (line, mnemonic :: operands) →
      operands[position]? = some operand →
      lastDefinition? layout.definitions operand = some symbol →
      program.instructions[index]? = some instruction →
      instruction.tokens[position + 1]? =
        some (Text.decimal ((base.toNat + symbol.address.toNat) % 2 ^ 64)) := by
  intro precedence
  have token := precedence []
    ".section .data\nx: .word 1\n.section .text\n.globl main\nmain:\nla a0, x\n0:\n".toList 0
    _ _ _ 0 6 1 "la".toList "x".toList ["a0".toList, "x".toList] _ _ rfl rfl rfl rfl rfl rfl rfl
  have eight : some "8".toList = some "0".toList := token
  exact absurd eight (by decide)

end RiscAssembly
