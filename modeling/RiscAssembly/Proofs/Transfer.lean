import RiscAssembly.Proofs.Fields
import RiscAssembly.Proofs.Layout

/-!
Transfers of control reach their labels. The instruction at some address that names a label
gets the distance between the two, written out in decimal. The word that it becomes holds
the low bits of that distance: its offset field, read as a signed number, is the distance
modulo the width of the field, and is the distance itself exactly if that fits.
-/

namespace RiscAssembly

open BitString SymbolTable

/-- How a word holds the offset of a transfer: a branch has twelve bits for it, in two
pieces, a jump has twenty. -/
inductive Reach where
  | branch
  | jump
  deriving DecidableEq

namespace Reach

def width : Reach → Nat
  | .branch => 12
  | .jump => 20

theorem width_pos (reach : Reach) : 0 < reach.width := by
  cases reach <;> decide

def offset (word : BitVec 32) : Reach → Int
  | .branch => (word.extractLsb' 25 7 ++ word.extractLsb' 7 5).toInt
  | .jump => (word.extractLsb' 12 20).toInt

def pattern : Reach → OperandPattern
  | .branch => .branch
  | .jump => .upper

/-- The operand of the machine instruction that is its target. -/
def position : Reach → Nat
  | .branch => 2
  | .jump => 1

end Reach

/-- A mnemonic that transfers control, with the place of the target among its operands. -/
structure Transfer where
  mnemonic : Text
  position : Nat
  reach : Reach
  deriving DecidableEq

namespace Transfer

def machine : List Transfer :=
  [⟨"beq".toList, 2, .branch⟩, ⟨"bne".toList, 2, .branch⟩, ⟨"blt".toList, 2, .branch⟩,
    ⟨"bge".toList, 2, .branch⟩, ⟨"bltu".toList, 2, .branch⟩, ⟨"bgeu".toList, 2, .branch⟩,
    ⟨"jal".toList, 1, .jump⟩]

def pseudo : List Transfer :=
  [⟨"beqz".toList, 1, .branch⟩, ⟨"bltz".toList, 1, .branch⟩, ⟨"bgez".toList, 1, .branch⟩,
    ⟨"j".toList, 0, .jump⟩, ⟨"call".toList, 0, .jump⟩]

def all : List Transfer := machine ++ pseudo

theorem machine_listed (transfer : Transfer) (member : transfer ∈ machine) :
    Pseudo.find? transfer.mnemonic = none ∧ transfer.position = transfer.reach.position ∧
      (Catalogue.find? transfer.mnemonic).map Descriptor.pattern =
        some transfer.reach.pattern := by
  have table : ∀ t ∈ machine, Pseudo.find? t.mnemonic = none ∧ t.position = t.reach.position ∧
      (Catalogue.find? t.mnemonic).map Descriptor.pattern = some t.reach.pattern := by decide
  exact table transfer member

theorem pseudo_listed (transfer : Transfer) (member : transfer ∈ pseudo) :
    ∃ entry target slots, Pseudo.find? transfer.mnemonic = some entry ∧
      entry.expansion = .template (.token target :: slots) ∧
      slots[transfer.reach.position]? = some (.operand transfer.position) ∧
      (Catalogue.find? target).map Descriptor.pattern = some transfer.reach.pattern := by
  simp only [pseudo, List.mem_cons, List.not_mem_nil, or_false] at member
  rcases member with rfl | rfl | rfl | rfl | rfl
  all_goals exact ⟨_, _, _, rfl, rfl, rfl, rfl⟩

/-- A transfer is one machine instruction, with the target at the place where the word has
its offset from. -/
theorem expand_target (transfer : Transfer) (member : transfer ∈ all) (operands : List Text)
    (target : Text) (targeted : operands[transfer.position]? = some target)
    (machine : List (List Text))
    (expanded : expand (transfer.mnemonic :: operands) = .ok machine) :
    ∃ mnemonic arguments, machine = [mnemonic :: arguments] ∧
      arguments[transfer.reach.position]? = some target ∧
      (Catalogue.find? mnemonic).map Descriptor.pattern = some transfer.reach.pattern := by
  -- A machine mnemonic stands for itself; the others fill a template, one slot of which is
  -- the target.
  rcases List.mem_append.mp member with direct | indirect
  · obtain ⟨absent, position, listed⟩ := transfer.machine_listed direct
    rcases (expand_ok_iff _ _ _).mp expanded with ⟨entry, found, -⟩ | ⟨-, -, rfl⟩
    · rw [absent] at found
      cases found
    · exact ⟨_, _, rfl, position ▸ targeted, listed⟩
  · obtain ⟨entry, mnemonic, slots, found, template, slot, listed⟩ :=
      transfer.pseudo_listed indirect
    rcases (expand_ok_iff _ _ _).mp expanded with ⟨other, same, -, applied⟩ | ⟨absent, -⟩
    · rw [found, Option.some.injEq] at same
      subst same
      rw [template] at applied
      simp only [Expansion.apply, bind_ok_iff, pure_ok_iff, fillAll_ok_iff] at applied
      obtain ⟨tokens, filled, rfl⟩ := applied
      cases tokens with
      | nil => cases filled
      | cons token arguments =>
          simp only [List.map_cons, List.cons.injEq, Slot.fill, Except.ok.injEq] at filled
          obtain ⟨rfl, rest⟩ := filled
          refine ⟨mnemonic, arguments, rfl, ?_, listed⟩
          have taken := congrArg (·[transfer.reach.position]?) rest
          simp only [List.getElem?_map, slot, Option.map_some, Slot.fill, targeted] at taken
          obtain ⟨argument, found, same⟩ := Option.map_eq_some_iff.mp taken.symm
          cases same
          exact found
    · rw [found] at absent
      cases absent

end Transfer

theorem Reach.target_number (reach : Reach) (descriptor : Descriptor)
    (shape : descriptor.pattern = reach.pattern) (operands : List Text) (values : OperandValues)
    (read : descriptor.operandValues? operands = some values) (target : Text)
    (targeted : operands[reach.position]? = some target) :
    Literal.value? target = some values.number := by
  -- Only three operands can be read for a branch, and two for a jump.
  rcases operands with _ | ⟨first, _ | ⟨second, _ | ⟨third, _ | ⟨fourth, rest⟩⟩⟩⟩
  case nil => cases targeted
  case cons.nil => cases reach <;> cases targeted
  case cons.cons.nil =>
    cases reach with
    | branch => cases targeted
    | jump =>
        cases targeted
        simp only [Descriptor.operandValues?, shape, pattern, Option.bind_eq_bind,
          Option.bind_eq_some_iff, Option.pure_def, Option.some.injEq] at read
        obtain ⟨rd, -, number, value, rfl⟩ := read
        exact value
  case cons.cons.cons.nil =>
    cases reach with
    | branch =>
        cases targeted
        simp only [Descriptor.operandValues?, shape, pattern, Option.bind_eq_bind,
          Option.bind_eq_some_iff, Option.pure_def, Option.some.injEq] at read
        obtain ⟨rs1, -, rs2, -, number, value, rfl⟩ := read
        exact value
    | jump => simp [Descriptor.operandValues?, shape, pattern] at read
  case cons.cons.cons.cons => cases read

theorem Reach.offset_wordOf (reach : Reach) (descriptor : Descriptor)
    (valid : descriptor.WellFormed) (shape : descriptor.pattern = reach.pattern)
    (values : OperandValues) :
    reach.offset (Word.vector (descriptor.wordOf values)) =
      (BitVec.ofInt reach.width values.number).toInt := by
  cases reach with
  | branch =>
      have format : descriptor.format = .s := by rw [valid.format, shape]; rfl
      exact congrArg BitVec.toInt (descriptor.offset_field valid values format)
  | jump => exact congrArg BitVec.toInt (descriptor.upper_fields valid values shape).2

/-- The one word of a transfer holds the number that its target gives. -/
theorem Transfer.emit_target (transfer : Transfer) (member : transfer ∈ all)
    (instruction : Instruction) (operands : List Text)
    (tokens : instruction.tokens = transfer.mnemonic :: operands) (target : Text) (number : Int)
    (targeted : operands[transfer.position]? = some target)
    (value : Literal.value? target = some number) (group : List Word)
    (emitted : instruction.emit = .ok group) :
    ∃ word, group = [word] ∧ transfer.reach.offset (Word.vector word) =
      (BitVec.ofInt transfer.reach.width number).toInt := by
  obtain ⟨machine, expanded, encoded⟩ := (emit_ok_iff instruction group).mp emitted
  rw [tokens] at expanded
  obtain ⟨mnemonic, arguments, rfl, argument, listed⟩ :=
    transfer.expand_target member operands target targeted machine expanded
  obtain ⟨word, _, first, none, rfl⟩ := List.forall₂_cons_left_iff.mp encoded
  obtain rfl := List.forall₂_nil_left_iff.mp none
  obtain ⟨descriptor, values, found, read, rfl⟩ := (encode_ok_iff mnemonic arguments word).mp first
  rw [found, Option.map_some, Option.some.injEq] at listed
  have same := transfer.reach.target_number descriptor listed arguments values read target argument
  rw [value, Option.some.injEq] at same
  refine ⟨_, rfl, ?_⟩
  rw [same]
  exact transfer.reach.offset_wordOf descriptor (Catalogue.find_wellFormed mnemonic _ found)
    listed values

/-- A vector of some width holds a number up to that width, and the number itself exactly
if it is in range. -/
theorem toInt_ofInt_reach (width : Nat) (positive : 0 < width) (number : Int) :
    (BitVec.ofInt width number).toInt % 2 ^ width = number % 2 ^ width ∧
      ((BitVec.ofInt width number).toInt = number ↔
        -2 ^ (width - 1) ≤ number ∧ number < 2 ^ (width - 1)) := by
  constructor
  · rw [BitVec.toInt_ofInt]
    exact_mod_cast Int.bmod_emod
  · constructor
    · intro exact
      have lower := (BitVec.ofInt width number).le_toInt
      have upper := (BitVec.ofInt width number).toInt_lt
      rw [exact] at lower upper
      exact ⟨lower, upper⟩
    · rintro ⟨lower, upper⟩
      exact BitVec.toInt_ofInt_eq_self positive lower upper

theorem transfer_reaches_label (path source : Text) (base : UInt64) (program : Program)
    (sections : Sections) (assembled : assemble path source base = .ok program)
    (split : Sections.ofSource source = .ok sections) (transfer : Transfer)
    (member : transfer ∈ Transfer.all) (index line : Nat) (operands : List Text)
    (written : (writtenInstructions sections.text)[index]? =
      some (line, transfer.mnemonic :: operands))
    (label : Text) (targeted : operands[transfer.position]? = some label) (target : UInt32)
    (code : program.codeSymbols.address? label = some target)
    (notData : program.dataSymbols.address? label = none) :
    (∃ before definition, DefinedLast sections.text label before definition ∧
      target.toNat = announcedBytes before % 2 ^ 32) ∧
    ∃ instruction word, program.instructions[index]? = some instruction ∧
      program.wordsByInstruction[index]? = some (instruction, [word]) ∧
      let distance := (target.toNat : Int) - instruction.address.toNat
      let offset := transfer.reach.offset (Word.vector word)
      let width := transfer.reach.width
      instruction.tokens[transfer.position + 1]? = some (Text.signedDecimal distance) ∧
      offset % 2 ^ width = distance % 2 ^ width ∧
      (offset = distance ↔ -2 ^ (width - 1) ≤ distance ∧ distance < 2 ^ (width - 1)) := by
  obtain ⟨stages, leads⟩ := assemble_ok path source base program assembled
  obtain rfl := leads.sections_eq sections split
  obtain ⟨instruction, found, -, tokens⟩ :=
    leads.resolved index line transfer.mnemonic operands written
  obtain ⟨group, grouped, emitted⟩ :=
    emitted_at _ _ leads.emitted index instruction found
  let distance := (target.toNat : Int) - instruction.address.toNat
  -- Both addresses have 32 bits, so that the distance is a literal that can be read.
  have value : Literal.value? (Text.signedDecimal distance) = some distance := by
    have low := target.toNat_lt
    have high := instruction.address.toNat_lt
    exact Literal.value_signedDecimal distance (by omega) (by omega)
  have resolved := resolveOperand_code program.codeSymbols program.dataSymbols base
    instruction.address label target code notData
  have argument : (operands.map (resolveOperand program.codeSymbols program.dataSymbols base
      instruction.address))[transfer.position]? = some (Text.signedDecimal distance) := by
    rw [List.getElem?_map, targeted, Option.map_some, resolved]
  constructor
  · rw [leads.code, address_define_empty, Option.map_eq_some_iff] at code
    obtain ⟨symbol, last, rfl⟩ := code
    obtain ⟨before, definition, defined, rfl⟩ :=
      placeFrom_defined 0 _ _ leads.placed label symbol last
    exact ⟨before, definition, defined, by simp⟩
  · obtain ⟨word, rfl, offset⟩ := transfer.emit_target member instruction _ tokens _ distance
      argument value group emitted
    refine ⟨instruction, word, found, ?_, ?_, ?_⟩
    · rw [leads.shared, List.getElem?_zip_eq_some]
      exact ⟨found, grouped⟩
    · rw [tokens, List.getElem?_cons_succ]
      exact argument
    · rw [offset]
      exact toInt_ofInt_reach _ transfer.reach.width_pos distance

/-- A jump back over a constant of eight words, to the second of two definitions. -/
theorem transfer_reaches_redefined_label :
    let source := ".text\n.globl main\nmain:\nback:\nnop\nback:\nli a0, 6\nj back".toList
    ∃ program instruction word, assemble [] source 0 = .ok program ∧
      program.wordsByInstruction[2]? = some (instruction, [word]) ∧
      instruction.tokens = ["j".toList, "-32".toList] ∧
      Reach.jump.offset (Word.vector word) = -32 := by
  obtain ⟨-, instruction, word, found, shared, -, -, fits⟩ := transfer_reaches_label []
    ".text\n.globl main\nmain:\nback:\nnop\nback:\nli a0, 6\nj back".toList 0 _ _ rfl rfl
    ⟨"j".toList, 0, .jump⟩ (by decide) 2 8 ["back".toList] rfl "back".toList rfl 4 rfl rfl
  obtain rfl : instruction = ⟨["j".toList, "-32".toList], 8, 36, 4⟩ := (Option.some.inj found).symm
  exact ⟨_, _, word, rfl, shared, rfl, fits.mpr (by decide)⟩

end RiscAssembly
