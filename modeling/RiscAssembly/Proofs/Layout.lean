import RiscAssembly.Proofs.Resolution

/-!
Layout and words agree. Addresses are given in the first pass from mnemonics alone, words
are made in the second from resolved operands. For every program that assembles, each
instruction is at four times the number of words made before it, each label at four times
the number of words made for the lines before its last definition, both modulo 2^32, and
sharing out the words by the announced sizes gives every instruction its own.
-/

namespace RiscAssembly

open SymbolTable

/-- How the words of a program, grouped by instruction, go with the layout of its text. -/
structure LaidOut (text : List Line) (program : Program) (groups : List (List Word)) : Prop where
  /-- The instructions are the written ones, in order. -/
  written : program.instructions.map (fun instruction =>
      (instruction.line, instruction.mnemonic)) =
    (writtenInstructions text).map fun written => (written.1, written.2.head?.getD [])
  /-- A group holds what its instruction expands and encodes to. -/
  emitted : List.Forall₂ (fun instruction group => instruction.emit = .ok group)
    program.instructions groups
  concatenated : program.machineWords = groups.flatten
  width : ∀ word ∈ program.machineWords, word.length = 32 ∧ ∀ c ∈ word, c = '0' ∨ c = '1'
  sized : List.Forall₂ (fun instruction group =>
      instruction.size = byteSize instruction.mnemonic ∧
      group.length = instruction.size / 4 ∧ group ≠ []) program.instructions groups
  total : 4 * program.machineWords.length = (program.instructions.map Instruction.size).sum
  addressed : ∀ index instruction, program.instructions[index]? = some instruction →
    instruction.address.toNat = 4 * (groups.take index).flatten.length % 2 ^ 32
  labelled : ∀ symbol ∈ program.codeSymbols.symbols, ∃ before line,
    DefinedLast text symbol.name before line ∧ symbol.line = line.number ∧
    symbol.address.toNat =
      4 * (groups.take (writtenInstructions before).length).flatten.length % 2 ^ 32
  shared : program.wordsByInstruction = program.instructions.zip groups

/-- Words that fill the bytes of an instruction. -/
structure Instruction.Filled (instruction : Instruction) (group : List Word) : Prop where
  size : instruction.size = byteSize instruction.mnemonic
  count : 4 * group.length = instruction.size
  width : ∀ word ∈ group, word.length = 32 ∧ BitString.IsBits word

theorem emitted_filled (start : UInt32) (instructions : List Instruction)
    (groups : List (List Word)) (placed : Consecutive start instructions)
    (emitted : List.Forall₂ (fun instruction group => instruction.emit = .ok group)
      instructions groups) : List.Forall₂ Instruction.Filled instructions groups := by
  induction emitted generalizing start with
  | nil => exact .nil
  | cons first rest ih =>
      obtain ⟨-, sized, tail⟩ := placed
      obtain ⟨count, width⟩ := emit_words _ _ first
      exact .cons ⟨sized, count.trans sized.symm, width⟩ (ih _ tail)

section Filled

variable (instructions : List Instruction) (groups : List (List Word))
variable (filled : List.Forall₂ Instruction.Filled instructions groups)

include filled

theorem filled_total :
    4 * groups.flatten.length = (instructions.map Instruction.size).sum := by
  induction filled with
  | nil => rfl
  | cons first _ ih =>
      rw [List.flatten_cons, List.length_append, List.map_cons, List.sum_cons, ← ih,
        ← first.count]
      omega

theorem filled_width : ∀ word ∈ groups.flatten, word.length = 32 ∧ BitString.IsBits word := by
  induction filled with
  | nil =>
      intro word member
      cases member
  | cons first _ ih =>
      intro word member
      rw [List.flatten_cons] at member
      rcases List.mem_append.mp member with here | later
      · exact first.width word here
      · exact ih word later

theorem filled_share : shareWords instructions groups.flatten = instructions.zip groups := by
  induction filled with
  | nil => rfl
  | @cons instruction group _ _ first _ ih =>
      have count : instruction.size / 4 = group.length := by
        have := first.count
        omega
      rw [List.flatten_cons, shareWords, count, List.take_left, List.drop_left, ih,
        List.zip_cons_cons]

/-- The address at which an instruction stands, from the words before it. -/
theorem filled_address (start : UInt32) (placed : Consecutive start instructions) (index : Nat)
    (instruction : Instruction) (found : instructions[index]? = some instruction) :
    instruction.address = start + UInt32.ofNat (4 * (groups.take index).flatten.length) := by
  induction filled generalizing start index with
  | nil => simp at found
  | @cons head group _ _ first _ ih =>
      obtain ⟨here, -, tail⟩ := placed
      cases index with
      | zero =>
          cases found
          simp [here]
      | succ index =>
          -- The address of the rest starts behind the words of the head.
          rw [ih _ tail index found, ← first.count, List.take_succ_cons, List.flatten_cons,
            List.length_append, Nat.mul_add, UInt32.ofNat_add, UInt32.add_assoc]

end Filled

theorem filled_sized (instruction : Instruction) (group : List Word)
    (filled : instruction.Filled group) :
    instruction.size = byteSize instruction.mnemonic ∧
      group.length = instruction.size / 4 ∧ group ≠ [] := by
  obtain ⟨positive, -⟩ := byteSize_words instruction.mnemonic
  have sized := filled.size
  have count := filled.count
  refine ⟨sized, by omega, ?_⟩
  rintro rfl
  simp only [List.length_nil] at count
  omega

theorem consecutive_sizes (start : UInt32) (instructions : List Instruction)
    (placed : Consecutive start instructions) :
    instructions.map Instruction.size =
      instructions.map fun instruction => byteSize instruction.mnemonic := by
  induction instructions generalizing start with
  | nil => rfl
  | cons instruction rest ih =>
      obtain ⟨-, sized, tail⟩ := placed
      rw [List.map_cons, List.map_cons, sized, ih _ tail]

/-- The lines up to some point announce the bytes of the instructions written on them. -/
theorem announced_prefix (before after : List Line) (start : UInt32)
    (instructions : List Instruction) (placed : Consecutive start instructions)
    (written : instructions.map (fun instruction => (instruction.line, instruction.mnemonic)) =
      (writtenInstructions (before ++ after)).map fun written =>
        (written.1, written.2.head?.getD [])) :
    ((instructions.take (writtenInstructions before).length).map Instruction.size).sum =
      announcedBytes before := by
  -- Sizes come from mnemonics alone, and these are the written ones.
  have sizes : instructions.map Instruction.size =
      (writtenInstructions (before ++ after)).map fun written =>
        byteSize (written.2.head?.getD []) := by
    have mnemonics := congrArg (List.map fun pair => byteSize pair.2) written
    simp only [List.map_map] at mnemonics
    exact (consecutive_sizes start instructions placed).trans mnemonics
  have append : writtenInstructions (before ++ after) =
      writtenInstructions before ++ writtenInstructions after := List.filterMap_append
  rw [List.map_take, sizes, ← List.map_take, append, List.take_left, announcedBytes]

theorem resolved_written (code : SymbolTable UInt32) (data : SymbolTable UInt64) (base : UInt64)
    (instructions : List Instruction) :
    (instructions.map (Instruction.resolve code data base)).map (fun instruction =>
        (instruction.line, instruction.mnemonic)) =
      (instructions.map fun instruction => (instruction.line, instruction.tokens)).map
        fun written => (written.1, written.2.head?.getD []) := by
  simp only [List.map_map]
  apply List.map_congr_left
  intro instruction _
  obtain ⟨line, -, -, mnemonic⟩ := resolve_frame code data base instruction
  simp only [Function.comp_apply, line, mnemonic]
  rfl

namespace Stages.LeadTo

variable {stages : Stages} {source : Text} {base : UInt64} {program : Program}
variable (leads : stages.LeadTo source base program)

include leads

theorem consecutive : Consecutive 0 program.instructions := by
  rw [leads.instructions]
  exact consecutive_resolve _ _ _ _ _ (placeFrom_consecutive _ _ _ leads.placed)

theorem filled : List.Forall₂ Instruction.Filled program.instructions stages.groups :=
  emitted_filled 0 _ _ leads.consecutive leads.emitted

theorem written :
    program.instructions.map (fun instruction => (instruction.line, instruction.mnemonic)) =
      (writtenInstructions stages.sections.text).map fun written =>
        (written.1, written.2.head?.getD []) := by
  rw [leads.instructions, resolved_written, placeFrom_written _ _ _ leads.placed]

theorem shared : program.wordsByInstruction = program.instructions.zip stages.groups := by
  rw [Program.wordsByInstruction, leads.words]
  exact filled_share _ _ leads.filled

/-- A label stands where the words of the instructions written before it end. -/
theorem labelled (symbol : Symbol UInt32)
    (found : lastDefinition? stages.placement.definitions symbol.name = some symbol) :
    ∃ before line, DefinedLast stages.sections.text symbol.name before line ∧
      symbol.line = line.number ∧
      symbol.address = UInt32.ofNat
        (4 * (stages.groups.take (writtenInstructions before).length).flatten.length) := by
  obtain ⟨before, line, defined, same⟩ :=
    placeFrom_defined 0 _ _ leads.placed symbol.name symbol found
  refine ⟨before, line, defined, by rw [same], ?_⟩
  obtain ⟨after, text, -⟩ := defined
  have written := leads.written
  rw [text] at written
  rw [filled_total _ _ (List.forall₂_take _ leads.filled),
    announced_prefix before _ 0 _ leads.consecutive written, same, UInt32.zero_add]

end Stages.LeadTo

theorem assemble_layout_exact (path source : Text) (base : UInt64) (program : Program)
    (assembled : assemble path source base = .ok program) :
    ∃ sections groups, Sections.ofSource source = .ok sections ∧
      LaidOut sections.text program groups := by
  obtain ⟨stages, leads⟩ := assemble_ok path source base program assembled
  refine ⟨stages.sections, stages.groups, leads.split, ?_⟩
  constructor
  case written => exact leads.written
  case emitted => exact leads.emitted
  case concatenated => exact leads.words
  case width =>
    rw [leads.words]
    exact filled_width _ _ leads.filled
  case sized => exact leads.filled.imp filled_sized
  case total =>
    rw [leads.words]
    exact filled_total _ _ leads.filled
  case addressed =>
    intro index instruction found
    rw [filled_address _ _ leads.filled 0 leads.consecutive index instruction found,
      UInt32.zero_add, UInt32.toNat_ofNat']
  case labelled =>
    intro symbol member
    rw [leads.code] at member
    obtain ⟨before, line, defined, number, address⟩ :=
      leads.labelled symbol (define_entry _ _ member)
    refine ⟨before, line, defined, number, ?_⟩
    rw [address, UInt32.toNat_ofNat']
  case shared => exact leads.shared

/-- A label defined before and again after a constant of eight words. -/
theorem assemble_layout_redefined_label :
    let source := ".text\n.globl main\nmain:\nj end\nend:\nli a0, 5\nend:\nbeqz a0, end".toList
    ∃ program, assemble [] source 0 = .ok program ∧ program.machineWords.length = 10 ∧
      ∃ sections groups, Sections.ofSource source = .ok sections ∧
        LaidOut sections.text program groups :=
  ⟨_, rfl, rfl, assemble_layout_exact [] _ 0 _ rfl⟩

end RiscAssembly
