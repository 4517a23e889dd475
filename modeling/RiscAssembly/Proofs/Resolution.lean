import RiscAssembly.Program.Assemble
import RiscAssembly.Proofs.Encoding
import RiscAssembly.Proofs.Placement

/-!
From placed instructions to a program. Both passes over the operands together replace each
operand by itself: data labels first, then code labels, which may be what a data label has
just become. Nothing else of an instruction changes, so that the check of its address
holds, and assembling is: sections, placement, data, and the words of the resolved
instructions one after the other.
-/

namespace RiscAssembly

open SymbolTable

namespace Instruction

theorem mapOperands_frame (replace : Text → Text) (instruction : Instruction) :
    (instruction.mapOperands replace).line = instruction.line ∧
      (instruction.mapOperands replace).address = instruction.address ∧
      (instruction.mapOperands replace).size = instruction.size ∧
      (instruction.mapOperands replace).mnemonic = instruction.mnemonic := by
  unfold mapOperands mnemonic
  split
  · exact ⟨rfl, rfl, rfl, rfl⟩
  · rename_i some
    simp [some]

/-- An instruction with both kinds of references replaced. -/
def resolve (code : SymbolTable UInt32) (data : SymbolTable UInt64) (base : UInt64)
    (instruction : Instruction) : Instruction :=
  (instruction.mapOperands (dataReference data base)).mapOperands
    (codeReference code instruction.address)

end Instruction

/-- What becomes of an operand of the instruction at an address. -/
def resolveOperand (code : SymbolTable UInt32) (data : SymbolTable UInt64) (base : UInt64)
    (address : UInt32) (operand : Text) : Text :=
  codeReference code address (dataReference data base operand)

/-- A label of the text that is no label of the data becomes the distance to it. -/
theorem resolveOperand_code (code : SymbolTable UInt32) (data : SymbolTable UInt64)
    (base : UInt64) (address : UInt32) (operand : Text) (target : UInt32)
    (found : code.address? operand = some target) (notData : data.address? operand = none) :
    resolveOperand code data base address operand =
      Text.signedDecimal ((target.toNat : Int) - address.toNat) := by
  rw [resolveOperand, dataReference, notData, codeReference, found]

theorem resolveOperand_unchanged (code : SymbolTable UInt32) (data : SymbolTable UInt64)
    (base : UInt64) (address : UInt32) (operand : Text)
    (notCode : code.address? operand = none) (notData : data.address? operand = none) :
    resolveOperand code data base address operand = operand := by
  rw [resolveOperand, dataReference, notData, codeReference, notCode]

section Resolve

variable (code : SymbolTable UInt32) (data : SymbolTable UInt64) (base : UInt64)

theorem resolve_frame (instruction : Instruction) :
    (instruction.resolve code data base).line = instruction.line ∧
      (instruction.resolve code data base).address = instruction.address ∧
      (instruction.resolve code data base).size = instruction.size ∧
      (instruction.resolve code data base).mnemonic = instruction.mnemonic := by
  obtain ⟨line, address, size, mnemonic⟩ :=
    instruction.mapOperands_frame (dataReference data base)
  obtain ⟨line', address', size', mnemonic'⟩ :=
    (instruction.mapOperands (dataReference data base)).mapOperands_frame
      (codeReference code instruction.address)
  exact ⟨line'.trans line, address'.trans address, size'.trans size, mnemonic'.trans mnemonic⟩

theorem resolve_eq (mnemonic : Text) (operands : List Text) (line : Nat) (address : UInt32)
    (size : Nat) :
    Instruction.resolve code data base ⟨mnemonic :: operands, line, address, size⟩ =
      ⟨mnemonic :: operands.map (resolveOperand code data base address), line, address, size⟩ := by
  simp [Instruction.resolve, Instruction.mapOperands, resolveOperand, Function.comp_def]

theorem resolve_unchanged (instruction : Instruction)
    (undefined : ∀ operand ∈ instruction.tokens.tail,
      code.address? operand = none ∧ data.address? operand = none) :
    instruction.resolve code data base = instruction := by
  obtain ⟨tokens, line, address, size⟩ := instruction
  cases tokens with
  | nil => rfl
  | cons mnemonic operands =>
      have kept : operands.map (resolveOperand code data base address) = operands := by
        conv_rhs => rw [← List.map_id operands]
        refine List.map_congr_left fun operand member => ?_
        obtain ⟨notCode, notData⟩ := undefined operand member
        exact resolveOperand_unchanged code data base address operand notCode notData
      rw [resolve_eq, kept]

theorem consecutive_resolve (address : UInt32) (instructions : List Instruction)
    (placed : Consecutive address instructions) :
    Consecutive address (instructions.map (Instruction.resolve code data base)) := by
  induction instructions generalizing address with
  | nil => trivial
  | cons instruction rest ih =>
      obtain ⟨atAddress, sized, tail⟩ := placed
      obtain ⟨-, sameAddress, sameSize, sameMnemonic⟩ := resolve_frame code data base instruction
      refine ⟨sameAddress.trans atAddress, ?_, ?_⟩
      · rw [sameSize, sameMnemonic, sized]
      · rw [sameSize]
        exact ih _ tail

end Resolve

/-- No instruction is misplaced when distances are taken: the running address is the one
placement gave. -/
theorem referToCodeFrom_consecutive (code : SymbolTable UInt32) (replace : Text → Text)
    (address : UInt32) (instructions : List Instruction)
    (placed : Consecutive address instructions) :
    referToCodeFrom code address (instructions.map (Instruction.mapOperands replace)) =
      .ok (instructions.map fun instruction =>
        (instruction.mapOperands replace).mapOperands
          (codeReference code instruction.address)) := by
  induction instructions generalizing address with
  | nil => rfl
  | cons instruction rest ih =>
      obtain ⟨rfl, sized, tail⟩ := placed
      obtain ⟨-, sameAddress, -, sameMnemonic⟩ := instruction.mapOperands_frame replace
      have later := ih _ tail
      rw [sized] at later
      simp only [List.map_cons, referToCodeFrom, if_pos sameAddress, sameMnemonic, later]
      rfl

theorem referToCode_resolve (code : SymbolTable UInt32) (data : SymbolTable UInt64)
    (base : UInt64) (instructions : List Instruction) (placed : Consecutive 0 instructions) :
    referToCode code (referToData data base instructions) =
      .ok (instructions.map (Instruction.resolve code data base)) :=
  referToCodeFrom_consecutive code (dataReference data base) 0 instructions placed

/-! Emission. -/

theorem encodeAll_ok_iff (machine : List (List Text)) (words : List Word) :
    encodeAll machine = .ok words ↔
      List.Forall₂ (fun tokens word => encode tokens = .ok word) machine words := by
  induction machine generalizing words with
  | nil => simp [encodeAll, eq_comm]
  | cons tokens rest ih =>
      simp only [encodeAll, bind_ok_iff, pure_ok_iff, ih, List.forall₂_cons_left_iff]
      constructor
      · rintro ⟨word, encoded, tail, later, rfl⟩
        exact ⟨word, tail, encoded, later, rfl⟩
      · rintro ⟨word, tail, encoded, later, rfl⟩
        exact ⟨word, encoded, tail, later, rfl⟩

theorem emit_ok_iff (instruction : Instruction) (words : List Word) :
    instruction.emit = .ok words ↔
      ∃ machine, expand instruction.tokens = .ok machine ∧
        List.Forall₂ (fun tokens word => encode tokens = .ok word) machine words := by
  simp only [Instruction.emit, onLine_ok_iff, asSource_ok_iff, bind_ok_iff, encodeAll_ok_iff]

theorem emitAll_ok_iff (instructions : List Instruction) (words : List Word) :
    emitAll instructions = .ok words ↔
      ∃ groups, List.Forall₂ (fun instruction group => instruction.emit = .ok group)
        instructions groups ∧ words = groups.flatten := by
  induction instructions generalizing words with
  | nil => simp [emitAll, eq_comm]
  | cons instruction rest ih =>
      simp only [emitAll, bind_ok_iff, pure_ok_iff, ih, List.forall₂_cons_left_iff]
      constructor
      · rintro ⟨group, emitted, _, ⟨groups, later, rfl⟩, rfl⟩
        exact ⟨group :: groups, ⟨group, groups, emitted, later, rfl⟩, rfl⟩
      · rintro ⟨_, ⟨group, groups, emitted, later, rfl⟩, rfl⟩
        exact ⟨group, emitted, groups.flatten, ⟨groups, later, rfl⟩, rfl⟩

theorem emit_words (instruction : Instruction) (words : List Word)
    (emitted : instruction.emit = .ok words) :
    4 * words.length = byteSize instruction.mnemonic ∧
      ∀ word ∈ words, word.length = 32 ∧ BitString.IsBits word := by
  obtain ⟨machine, expanded, encoded⟩ := (emit_ok_iff instruction words).mp emitted
  constructor
  · rw [← encoded.length_eq]
    cases shape : instruction.tokens with
    | nil =>
        rw [shape] at expanded
        cases expanded
    | cons mnemonic operands =>
        rw [shape] at expanded
        have size := expand_length mnemonic operands machine expanded
        simpa [Instruction.mnemonic, shape] using size
  · exact encoded_width machine words encoded

/-! The stages of assembling. -/

/-- What the passes over a source text find on the way; `groups` holds the words of each
instruction. -/
structure Stages where
  sections : Sections
  placement : Placement
  layout : DataLayout
  groups : List (List Word)

structure Stages.LeadTo (stages : Stages) (source : Text) (base : UInt64) (program : Program) :
    Prop where
  split : Sections.ofSource source = .ok stages.sections
  placed : placeFrom 0 stages.sections.text = .ok stages.placement
  laid : dataLayoutFrom 0 stages.sections.data = .ok stages.layout
  code : program.codeSymbols = (empty.define stages.placement.definitions).1
  data : program.dataSymbols = (empty.define stages.layout.definitions).1
  instructions : program.instructions =
    stages.placement.instructions.map
      (Instruction.resolve program.codeSymbols program.dataSymbols base)
  emitted : List.Forall₂ (fun instruction group => instruction.emit = .ok group)
    program.instructions stages.groups
  words : program.machineWords = stages.groups.flatten
  values : program.dataValues = stages.layout.values
  warnings : program.warnings = (empty.define stages.placement.definitions).2 ++
    (empty.define stages.layout.definitions).2

theorem assembleSections_ok (sections : Sections) (base : UInt64) (program : Program)
    (source : Text) (split : Sections.ofSource source = .ok sections)
    (assembled : assembleSections sections base = .ok program) :
    ∃ stages : Stages, stages.LeadTo source base program := by
  simp only [assembleSections, DataSegment.ofLines, bind_ok_iff, pure_ok_iff] at assembled
  obtain ⟨placement, placed, _, ⟨layout, laid, rfl⟩, instructions, resolved, words, emitted,
    rfl⟩ := assembled
  -- Placement leaves no gaps, so the second pass finds every instruction in its place.
  have consecutive := placeFrom_consecutive 0 sections.text placement placed
  rw [referToCode_resolve _ _ _ _ consecutive] at resolved
  cases resolved
  obtain ⟨groups, each, rfl⟩ := (emitAll_ok_iff _ words).mp emitted
  exact ⟨⟨sections, placement, layout, groups⟩, split, placed, laid, rfl, rfl, rfl, each, rfl,
    rfl, rfl⟩

theorem assemble_ok (path source : Text) (base : UInt64) (program : Program)
    (assembled : assemble path source base = .ok program) :
    ∃ stages : Stages, stages.LeadTo source base program := by
  unfold assemble at assembled
  split at assembled
  · cases assembled
  · rename_i sections split
    split at assembled
    · cases assembled
    · rename_i result inner
      cases assembled
      exact assembleSections_ok sections base program source split inner

/-- Stages that fit together are those of a successful run. -/
theorem Stages.LeadTo.assembled {stages : Stages} {source : Text} {base : UInt64}
    {program : Program} (leads : stages.LeadTo source base program) (path : Text) :
    assemble path source base = .ok program := by
  have consecutive := placeFrom_consecutive 0 stages.sections.text _ leads.placed
  have inner : assembleSections stages.sections base = .ok program := by
    simp only [assembleSections, DataSegment.ofLines, bind_ok_iff, pure_ok_iff]
    refine ⟨stages.placement, leads.placed, _, ⟨stages.layout, leads.laid, rfl⟩,
      program.instructions, ?_, program.machineWords, ?_, ?_⟩
    · rw [referToCode_resolve _ _ _ _ consecutive, leads.instructions, leads.code, leads.data]
      rfl
    · rw [leads.words]
      exact (emitAll_ok_iff _ _).mpr ⟨stages.groups, leads.emitted, rfl⟩
    · cases program
      simp only [Program.mk.injEq, true_and]
      exact ⟨leads.values.symm, leads.code.symm, leads.data.symm, leads.warnings.symm⟩
  rw [assemble, leads.split]
  dsimp only
  rw [inner]

theorem emitted_at (instructions : List Instruction) (groups : List (List Word))
    (emitted : List.Forall₂ (fun instruction group => instruction.emit = .ok group)
      instructions groups) (index : Nat) (instruction : Instruction)
    (found : instructions[index]? = some instruction) :
    ∃ group, groups[index]? = some group ∧ instruction.emit = .ok group := by
  induction emitted generalizing index with
  | nil => simp at found
  | cons first _ ih =>
      cases index with
      | zero =>
          cases found
          exact ⟨_, rfl, first⟩
      | succ index => exact ih index found

theorem emitted_mem (instructions : List Instruction) (groups : List (List Word))
    (emitted : List.Forall₂ (fun instruction group => instruction.emit = .ok group)
      instructions groups) (instruction : Instruction) (member : instruction ∈ instructions) :
    ∃ group, instruction.emit = .ok group := by
  obtain ⟨index, found⟩ := List.mem_iff_getElem?.mp member
  obtain ⟨group, -, words⟩ := emitted_at instructions groups emitted index instruction found
  exact ⟨group, words⟩

section LeadTo

variable {stages : Stages} {source : Text} {base : UInt64} {program : Program}
variable (leads : stages.LeadTo source base program)

include leads

theorem Stages.LeadTo.sections_eq (sections : Sections)
    (split : Sections.ofSource source = .ok sections) : stages.sections = sections := by
  rw [leads.split] at split
  exact Except.ok.inj split

/-- The written instruction at some index, as the program has it. -/
theorem Stages.LeadTo.resolved (index line : Nat)
    (mnemonic : Text) (operands : List Text)
    (written : (writtenInstructions stages.sections.text)[index]? =
      some (line, mnemonic :: operands)) :
    ∃ instruction, program.instructions[index]? = some instruction ∧ instruction.line = line ∧
      instruction.tokens = mnemonic :: operands.map
        (resolveOperand program.codeSymbols program.dataSymbols base instruction.address) := by
  rw [← placeFrom_written _ _ _ leads.placed, List.getElem?_map, Option.map_eq_some_iff] at written
  obtain ⟨⟨tokens, number, address, size⟩, found, same⟩ := written
  cases same
  refine ⟨_, by rw [leads.instructions, List.getElem?_map, found]; rfl, ?_⟩
  rw [resolve_eq]
  exact ⟨rfl, rfl⟩

end LeadTo

end RiscAssembly
