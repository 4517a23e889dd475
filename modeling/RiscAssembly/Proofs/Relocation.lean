import RiscAssembly.Proofs.Interchange
import RiscAssembly.Proofs.Layout

/-!
Data at another address. A label of the data becomes a number, and a number it stays even
where a label of the text is spelled like it; so the address of the data decides neither
whether a source assembles nor where anything is placed. Programs for two addresses have
different tokens only in place of data labels, and different words only for the
instructions that have such a token.
-/

namespace RiscAssembly

open SymbolTable

/-- Errors on one line: the same, or two tokens that should have been registers. -/
structure LocatedError.SameKind (left right : LocatedError) : Prop where
  line : left.line = right.line
  error : left.error = right.error ∨ ∃ token other,
    left.error = .instruction (.invalidRegister token) ∧
      right.error = .instruction (.invalidRegister other)

/-- Where an instruction is, in the source and in memory. -/
def Instruction.site (instruction : Instruction) : Nat × UInt32 × Nat :=
  (instruction.line, instruction.address, instruction.size)

/-- Two programs from the same lines of text that differ in references to data at most. -/
structure SameButData (text : List Line) (left right : Program) : Prop where
  dataValues : left.dataValues = right.dataValues
  codeSymbols : left.codeSymbols = right.codeSymbols
  dataSymbols : left.dataSymbols = right.dataSymbols
  warnings : left.warnings = right.warnings
  count : left.machineWords.length = right.machineWords.length
  sites : left.instructions.map Instruction.site = right.instructions.map Instruction.site
  /-- Tokens that are not the same stand for operands written as labels of the data. -/
  tokens : ∀ (index : Nat) (first second : Instruction),
    left.instructions[index]? = some first → right.instructions[index]? = some second →
    ∃ line written, (writtenInstructions text)[index]? = some (line, written) ∧
      first.tokens.length = written.length ∧ second.tokens.length = written.length ∧
      ∀ position : Nat, first.tokens[position]? ≠ second.tokens[position]? →
        0 < position ∧ ∃ operand, written[position]? = some operand ∧
          (left.dataSymbols.address? operand).isSome = true
  /-- An instruction without such operands has the same words. -/
  words : ∀ (index line : Nat) (written : List Text),
    (writtenInstructions text)[index]? = some (line, written) →
    (∀ operand ∈ written.tail, left.dataSymbols.address? operand = none) →
    ∃ instruction group, left.wordsByInstruction[index]? = some (instruction, group) ∧
      right.wordsByInstruction[index]? = some (instruction, group)

section Operands

variable (code : SymbolTable UInt32) (data : SymbolTable UInt64) (base other : UInt64)

theorem isLiteral_codeReference (address : UInt32) (n : Nat) (small : n < 2 ^ 64) :
    IsLiteral (codeReference code address (Text.decimal n)) := by
  unfold codeReference
  -- Where the numeral spells a label of the text, the distance to it is a literal again.
  split
  · rename_i target _
    have below := target.toNat_lt
    have above := address.toNat_lt
    exact ⟨_, Literal.value_signedDecimal _ (by omega) (by omega)⟩
  · exact isLiteral_decimal n small

theorem resolveOperand_plain (address : UInt32) (operand : Text)
    (notData : data.address? operand = none) :
    resolveOperand code data base address operand = codeReference code address operand := by
  rw [resolveOperand, dataReference, notData]

theorem resolveOperand_interchangeable (address : UInt32) (operand : Text) :
    Interchangeable (resolveOperand code data base address operand)
      (resolveOperand code data other address operand) := by
  cases found : data.address? operand with
  | none =>
      left
      rw [resolveOperand_plain code data base address operand found,
        resolveOperand_plain code data other address operand found]
  | some offset =>
      right
      have literal (start : UInt64) :
          IsLiteral (resolveOperand code data start address operand) := by
        rw [resolveOperand, dataReference, found]
        exact isLiteral_codeReference code address _ (start + offset).toNat_lt
      exact ⟨literal base, literal other⟩

/-- Without a label of the data among its operands an instruction resolves to the same. -/
theorem resolve_plain (instruction : Instruction)
    (plain : ∀ operand ∈ instruction.tokens.tail, data.address? operand = none) :
    instruction.resolve code data base = instruction.resolve code data other := by
  obtain ⟨tokens, line, address, size⟩ := instruction
  cases tokens with
  | nil => rfl
  | cons mnemonic operands =>
      have same : operands.map (resolveOperand code data base address) =
          operands.map (resolveOperand code data other address) := by
        refine List.map_congr_left fun operand member => ?_
        rw [resolveOperand_plain code data base address operand (plain operand member),
          resolveOperand_plain code data other address operand (plain operand member)]
      rw [resolve_eq, resolve_eq, same]

theorem resolve_length (instruction : Instruction) :
    (instruction.resolve code data base).tokens.length = instruction.tokens.length := by
  obtain ⟨tokens, line, address, size⟩ := instruction
  cases tokens with
  | nil => rfl
  | cons mnemonic operands =>
      rw [resolve_eq, List.length_cons, List.length_map, List.length_cons]

/-- Two addresses make a difference at operands that are labels of the data only. -/
theorem resolve_differs (instruction : Instruction) (position : Nat)
    (different : (instruction.resolve code data base).tokens[position]? ≠
      (instruction.resolve code data other).tokens[position]?) :
    0 < position ∧ ∃ operand, instruction.tokens[position]? = some operand ∧
      (data.address? operand).isSome = true := by
  obtain ⟨tokens, line, address, size⟩ := instruction
  cases tokens with
  | nil => exact absurd rfl different
  | cons mnemonic operands =>
      rw [resolve_eq, resolve_eq] at different
      cases position with
      | zero => exact absurd rfl different
      | succ position =>
          simp only [List.getElem?_cons_succ, List.getElem?_map] at different ⊢
          refine ⟨Nat.succ_pos _, ?_⟩
          cases found : operands[position]? with
          | none =>
              rw [found] at different
              exact absurd rfl different
          | some operand =>
              rw [found, Option.map_some, Option.map_some] at different
              refine ⟨operand, rfl, ?_⟩
              cases label : data.address? operand with
              | some offset => rfl
              | none =>
                  rw [resolveOperand_plain code data base address operand label,
                    resolveOperand_plain code data other address operand label] at different
                  exact absurd rfl different

theorem SameKind.located {left right : InstructionError} (same : SameKind left right)
    (line : Nat) : LocatedError.SameKind ⟨line, .instruction left⟩ ⟨line, .instruction right⟩ := by
  cases same with
  | same cause => exact ⟨rfl, .inl rfl⟩
  | register token other => exact ⟨rfl, .inr ⟨token, other, rfl, rfl⟩⟩

theorem LocatedError.SameKind.refl (found : LocatedError) : SameKind found found :=
  ⟨rfl, .inl rfl⟩

/-- What happens on a line has the kind of what happens in its instruction. -/
theorem agree_onLine {Left Right : Type} {Same : Left → Right → Prop}
    {left : Except InstructionError Left} {right : Except InstructionError Right}
    (agree : Agree SameKind Same left right) (line : Nat) :
    Agree LocatedError.SameKind Same (onLine line (asSource left))
      (onLine line (asSource right)) := by
  cases agree with
  | ok same => exact .ok same
  | error same => exact .error (same.located line)

theorem emit_agree (instruction : Instruction) :
    Agree LocatedError.SameKind (fun left right => left.length = right.length)
      (instruction.resolve code data base).emit (instruction.resolve code data other).emit := by
  obtain ⟨tokens, line, address, size⟩ := instruction
  cases tokens with
  | nil => exact .error (LocatedError.SameKind.refl _)
  | cons mnemonic operands =>
      have same : List.Forall₂ Interchangeable
          (operands.map (resolveOperand code data base address))
          (operands.map (resolveOperand code data other address)) := by
        rw [List.forall₂_map_left_iff, List.forall₂_map_right_iff, List.forall₂_same]
        exact fun operand _ =>
          resolveOperand_interchangeable code data base other address operand
      rw [resolve_eq, resolve_eq, Instruction.emit, Instruction.emit]
      refine agree_onLine ?_ line
      exact (expand_agree mnemonic _ _ same).bind encodeAll_agree

theorem emitAll_agree (instructions : List Instruction) :
    Agree LocatedError.SameKind (fun left right => left.length = right.length)
      (emitAll (instructions.map (Instruction.resolve code data base)))
      (emitAll (instructions.map (Instruction.resolve code data other))) := by
  induction instructions with
  | nil => exact .ok rfl
  | cons instruction rest ih =>
      rw [List.map_cons, List.map_cons, emitAll, emitAll]
      refine (emit_agree code data base other instruction).bind fun _ _ first => ?_
      refine ih.bind fun _ _ tail => .ok ?_
      rw [List.length_append, List.length_append, first, tail]

end Operands

theorem assembleSections_agree (sections : Sections) (base other : UInt64) :
    Agree LocatedError.SameKind
      (fun left right => left.machineWords.length = right.machineWords.length)
      (assembleSections sections base) (assembleSections sections other) := by
  rw [assembleSections, assembleSections]
  cases placed : placeFrom 0 sections.text with
  | error found => exact .error (.refl found)
  | ok placement =>
      cases laid : DataSegment.ofLines sections.data with
      | error found => exact .error (.refl found)
      | ok data =>
          have consecutive := placeFrom_consecutive 0 sections.text placement placed
          change Agree _ _ (referToCode _ _ >>= _) (referToCode _ _ >>= _)
          rw [referToCode_resolve _ _ base _ consecutive,
            referToCode_resolve _ _ other _ consecutive]
          change Agree _ _ (emitAll _ >>= _) (emitAll _ >>= _)
          exact Agree.bind (emitAll_agree _ _ base other _) fun _ _ lengths => .ok lengths

section Programs

variable {source : Text} {base other : UInt64} {left right : Program} {one two : Stages}

/-- The second run has the symbols of the first and resolves the instructions that the
first one placed. -/
theorem Stages.LeadTo.relocated (first : one.LeadTo source base left)
    (second : two.LeadTo source other right) :
    two.placement = one.placement ∧ two.layout = one.layout ∧
      right.codeSymbols = left.codeSymbols ∧ right.dataSymbols = left.dataSymbols ∧
      right.instructions = one.placement.instructions.map
        (Instruction.resolve left.codeSymbols left.dataSymbols other) := by
  have sections := second.sections_eq one.sections first.split
  have placement : two.placement = one.placement := by
    have placed := second.placed
    rw [sections, first.placed] at placed
    exact (Except.ok.inj placed).symm
  have layout : two.layout = one.layout := by
    have laid := second.laid
    rw [sections, first.laid] at laid
    exact (Except.ok.inj laid).symm
  have code : right.codeSymbols = left.codeSymbols := by
    rw [second.code, placement, first.code]
  have data : right.dataSymbols = left.dataSymbols := by
    rw [second.data, layout, first.data]
  refine ⟨placement, layout, code, data, ?_⟩
  rw [second.instructions, placement, code, data]

/-- The instruction of both programs that stands for a written one. -/
theorem Stages.LeadTo.relocated_at (first : one.LeadTo source base left)
    (second : two.LeadTo source other right) (index : Nat) (placed : Instruction)
    (found : one.placement.instructions[index]? = some placed) :
    left.instructions[index]? =
        some (placed.resolve left.codeSymbols left.dataSymbols base) ∧
      right.instructions[index]? =
        some (placed.resolve left.codeSymbols left.dataSymbols other) ∧
      (writtenInstructions one.sections.text)[index]? = some (placed.line, placed.tokens) := by
  obtain ⟨-, -, -, -, instructions⟩ := first.relocated second
  refine ⟨?_, ?_, ?_⟩
  · rw [first.instructions, List.getElem?_map, found, Option.map_some]
  · rw [instructions, List.getElem?_map, found, Option.map_some]
  · rw [← placeFrom_written _ _ _ first.placed, List.getElem?_map, found, Option.map_some]

theorem Stages.LeadTo.words_at {stages : Stages} {start : UInt64} {program : Program}
    (leads : stages.LeadTo source start program) (index : Nat) (instruction : Instruction)
    (found : program.instructions[index]? = some instruction) :
    ∃ group, instruction.emit = .ok group ∧
      program.wordsByInstruction[index]? = some (instruction, group) := by
  obtain ⟨group, grouped, emitted⟩ := emitted_at _ _ leads.emitted index instruction found
  refine ⟨group, emitted, ?_⟩
  rw [leads.shared]
  exact List.getElem?_zip_eq_some.mpr ⟨found, grouped⟩

theorem Stages.LeadTo.sameButData (first : one.LeadTo source base left)
    (second : two.LeadTo source other right)
    (count : left.machineWords.length = right.machineWords.length) :
    SameButData one.sections.text left right := by
  obtain ⟨placement, layout, code, data, instructions⟩ := first.relocated second
  refine ⟨?_, code.symm, data.symm, ?_, count, ?_, ?_, ?_⟩
  · rw [first.values, second.values, layout]
  · rw [first.warnings, second.warnings, placement, layout]
  · rw [first.instructions, instructions, List.map_map, List.map_map]
    refine List.map_congr_left fun instruction _ => ?_
    obtain ⟨line, address, size, -⟩ :=
      resolve_frame left.codeSymbols left.dataSymbols base instruction
    obtain ⟨line', address', size', -⟩ :=
      resolve_frame left.codeSymbols left.dataSymbols other instruction
    simp only [Function.comp_apply, Instruction.site, line, address, size, line', address', size']
  · intro index instruction counterpart atLeft atRight
    have placedAt := atLeft
    rw [first.instructions, List.getElem?_map, Option.map_eq_some_iff] at placedAt
    obtain ⟨placed, found, rfl⟩ := placedAt
    obtain ⟨-, again, written⟩ := first.relocated_at second index placed found
    rw [again] at atRight
    cases atRight
    exact ⟨placed.line, placed.tokens, written, resolve_length _ _ _ _, resolve_length _ _ _ _,
      resolve_differs _ _ _ _ placed⟩
  · intro index line tokens atText plain
    rw [← placeFrom_written _ _ _ first.placed, List.getElem?_map,
      Option.map_eq_some_iff] at atText
    obtain ⟨placed, found, same⟩ := atText
    cases same
    obtain ⟨atLeft, atRight, -⟩ := first.relocated_at second index placed found
    -- Both programs have the very same instruction here, and with it its words.
    rw [← resolve_plain _ _ base other placed plain] at atRight
    obtain ⟨group, emitted, ofLeft⟩ := first.words_at index _ atLeft
    obtain ⟨counterpart, again, ofRight⟩ := second.words_at index _ atRight
    rw [emitted] at again
    cases again
    exact ⟨_, group, ofLeft, ofRight⟩

end Programs

/-- Where the data is decides about references to it and nothing else. -/
theorem assemble_relocated (path source : Text) (base other : UInt64) :
    Agree (fun left right => left.path = path ∧ right.path = path ∧
        LocatedError.SameKind ⟨left.line, left.error⟩ ⟨right.line, right.error⟩)
      (fun left right => ∃ sections, Sections.ofSource source = .ok sections ∧
        SameButData sections.text left right)
      (assemble path source base) (assemble path source other) := by
  have stages : Agree LocatedError.SameKind
      (fun left right => left.machineWords.length = right.machineWords.length)
      (Sections.ofSource source >>= fun sections => assembleSections sections base)
      (Sections.ofSource source >>= fun sections => assembleSections sections other) := by
    cases Sections.ofSource source with
    | error found => exact .error (.refl found)
    | ok sections => exact assembleSections_agree sections base other
  refine ((assemble_agree path source source base other stages).imp ?_).imp_cause ?_
  · intro left right assembled again count
    obtain ⟨one, first⟩ := assemble_ok path source base left assembled
    obtain ⟨two, second⟩ := assemble_ok path source other right again
    exact ⟨one.sections, first.split, first.sameButData second count⟩
  · rintro left right ⟨found, counterpart, same, rfl, rfl⟩
    exact ⟨rfl, rfl, same⟩

/-- One instruction with a reference to data and one without. -/
theorem assemble_relocated_reference :
    let source :=
      ".data\ns: .word 7\nt: .word 8\n.text\n.globl main\nmain:\nla a0, t\nli a0, 4".toList
    ∃ left right sections, assemble [] source 4096 = .ok left ∧
      assemble [] source 0x10000000 = .ok right ∧
      left.instructions.map Instruction.tokens =
        [["la", "a0", "4100"], ["li", "a0", "4"]].map (List.map String.toList) ∧
      right.instructions.map Instruction.tokens =
        [["la", "a0", "268435460"], ["li", "a0", "4"]].map (List.map String.toList) ∧
      Sections.ofSource source = .ok sections ∧ SameButData sections.text left right := by
  intro source
  obtain ⟨left, first, leftTokens⟩ : ∃ left, assemble [] source 4096 = .ok left ∧
      left.instructions.map Instruction.tokens =
        [["la", "a0", "4100"], ["li", "a0", "4"]].map (List.map String.toList) := ⟨_, rfl, rfl⟩
  obtain ⟨right, second, rightTokens⟩ : ∃ right, assemble [] source 0x10000000 = .ok right ∧
      right.instructions.map Instruction.tokens =
        [["la", "a0", "268435460"], ["li", "a0", "4"]].map (List.map String.toList) :=
    ⟨_, rfl, rfl⟩
  have agree := assemble_relocated [] source 4096 0x10000000
  rw [first, second] at agree
  cases agree with
  | ok same =>
      obtain ⟨sections, split, same⟩ := same
      exact ⟨left, right, sections, first, second, leftTokens, rightTokens, split, same⟩

end RiscAssembly
