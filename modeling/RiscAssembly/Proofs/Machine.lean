import RiscAssembly.Proofs.Fields

/-!
The machine, as far as building a constant in a register needs it: additions of an
immediate, shifts to the left and upper immediates, on registers of 64 bits of which the
first is always zero. Words are decoded by their bit fields alone. `Runs` joins both sides:
instructions that can be encoded, and what their words do one after the other.
-/

namespace RiscAssembly

open BitString

structure Registers where
  value : Register → BitVec 64
  value_zero : value .zero = 0

namespace Registers

/-- What is written to register zero is lost. -/
def write (registers : Registers) (register : Register) (value : BitVec 64) : Registers where
  value other := if other = register ∧ other ≠ .zero then value else registers.value other
  value_zero := by simp [registers.value_zero]

@[simp]
theorem value_write (registers : Registers) (register : Register) (value : BitVec 64)
    (writable : register ≠ .zero) : (registers.write register value).value register = value := by
  simp [write, writable]

@[simp]
theorem value_write_other (registers : Registers) (register other : Register) (value : BitVec 64)
    (different : other ≠ register) :
    (registers.write register value).value other = registers.value other := by
  simp [write, different]

@[simp]
theorem write_write (registers : Registers) (register : Register) (first second : BitVec 64) :
    (registers.write register first).write register second = registers.write register second := by
  simp only [write, mk.injEq]
  funext other
  by_cases same : other = register ∧ other ≠ .zero
  · simp only [if_pos same]
  · simp only [if_neg same]

end Registers

/-- A decoded instruction. -/
inductive Operation where
  | addImmediate (rd rs1 : Register) (imm : BitVec 12)
  | shiftLeft (rd rs1 : Register) (amount : BitVec 6)
  | addUnsigned (rd : Register) (imm : BitVec 20)
  | loadUpper (rd : Register) (imm : BitVec 20)

def Operation.apply : Operation → Registers → Registers
  | .addImmediate rd rs1 imm, registers =>
      registers.write rd (registers.value rs1 + imm.signExtend 64)
  | .shiftLeft rd rs1 amount, registers => registers.write rd (registers.value rs1 <<< amount.toNat)
  | .addUnsigned rd imm, registers => registers.write rd (registers.value rd + imm.setWidth 64)
  | .loadUpper rd imm, registers => registers.write rd ((imm ++ (0 : BitVec 12)).signExtend 64)

/-- The register that five bits of a word name. -/
def registerAt (word : BitVec 32) (start : Nat) : Register := (word.extractLsb' start 5).toFin

def decode (word : BitVec 32) : Option Operation :=
  let rd := registerAt word 7
  let rs1 := registerAt word 15
  match (word.extractLsb' 0 7).toNat, (word.extractLsb' 12 3).toNat with
  | 0b0010011, 0b000 => some (.addImmediate rd rs1 (word.extractLsb' 20 12))
  | 0b0010011, 0b001 =>
      if word.extractLsb' 26 6 = 0 then some (.shiftLeft rd rs1 (word.extractLsb' 20 6)) else none
  | 0b0001011, _ => some (.addUnsigned rd (word.extractLsb' 12 20))
  | 0b0110111, _ => some (.loadUpper rd (word.extractLsb' 12 20))
  | _, _ => none

def run : List Word → Registers → Option Registers
  | [], registers => some registers
  | word :: rest, registers => do
      let operation ← decode (Word.vector word)
      run rest (operation.apply registers)

/-- The instructions can be encoded, and whatever the registers hold, their words have this
effect. -/
def Runs (machine : List (List Text)) (effect : Registers → Registers) : Prop :=
  ∃ words, List.Forall₂ (fun tokens word => encode tokens = .ok word) machine words ∧
    ∀ registers, run words registers = some (effect registers)

theorem run_append (first second : List Word) (registers : Registers) :
    run (first ++ second) registers = (run first registers).bind (run second) := by
  induction first generalizing registers with
  | nil => rfl
  | cons word rest ih =>
      simp only [List.cons_append, run, ih, Option.bind_eq_bind, Option.bind_assoc]

theorem runs_append (first second : List (List Text)) (before after : Registers → Registers)
    (leading : Runs first before) (trailing : Runs second after) :
    Runs (first ++ second) fun registers => after (before registers) := by
  obtain ⟨words, encoded, ran⟩ := leading
  obtain ⟨others, encodedLater, ranLater⟩ := trailing
  refine ⟨words ++ others, List.rel_append encoded encodedLater, ?_⟩
  intro registers
  rw [run_append, ran, Option.bind_some, ranLater]

theorem runs_single (mnemonic : Text) (operands : List Text) (descriptor : Descriptor)
    (values : OperandValues) (operation : Operation)
    (found : Catalogue.find? mnemonic = some descriptor)
    (read : descriptor.operandValues? operands = some values)
    (decoded : decode (Word.vector (descriptor.wordOf values)) = some operation) :
    Runs [mnemonic :: operands] operation.apply := by
  have encoded := (encode_ok_iff mnemonic operands _).mpr ⟨descriptor, values, found, read, rfl⟩
  refine ⟨[descriptor.wordOf values], .cons encoded .nil, ?_⟩
  intro registers
  rw [run, decoded]
  rfl

/-! One instruction at a time. -/

theorem registerAt_vector (word : BitVec 32) (start : Nat) (register : Register)
    (field : word.extractLsb' start 5 = BitVec.ofNat 5 register.val) :
    registerAt word start = register := by
  rw [registerAt, field]
  apply Fin.ext
  exact Nat.mod_eq_of_lt register.isLt

section Decode

variable (descriptor : Descriptor) (valid : descriptor.WellFormed) (values : OperandValues)

include valid

theorem decode_addImmediate (shape : descriptor.pattern = .immediate)
    (opcode : unsigned descriptor.opcode = 0b0010011) (funct3 : unsigned descriptor.funct3 = 0) :
    decode (Word.vector (descriptor.wordOf values)) =
      some (.addImmediate values.rd values.rs1 (BitVec.ofInt 12 values.number)) := by
  have format : descriptor.format = .i := by rw [valid.format, shape]; rfl
  obtain ⟨rd, middle, rs1⟩ := descriptor.i_fields valid values format
  have imm := descriptor.immediate_field valid values format (by rw [shape]; decide)
  rw [decode, descriptor.opcode_field valid, opcode, middle, funct3, registerAt_vector _ 7 _ rd,
    registerAt_vector _ 15 _ rs1, imm]
  rfl

theorem decode_shiftLeft (shape : descriptor.pattern = .shift)
    (opcode : unsigned descriptor.opcode = 0b0010011) (funct3 : unsigned descriptor.funct3 = 1)
    (funct7 : unsigned (descriptor.funct7.take 6) = 0) :
    decode (Word.vector (descriptor.wordOf values)) =
      some (.shiftLeft values.rd values.rs1 (BitVec.ofInt 6 values.number)) := by
  obtain ⟨rd, middle, rs1⟩ := descriptor.i_fields valid values (by rw [valid.format, shape]; rfl)
  obtain ⟨upper, amount⟩ := descriptor.shift_fields valid values shape
  rw [decode, descriptor.opcode_field valid, opcode, middle, funct3, registerAt_vector _ 7 _ rd,
    registerAt_vector _ 15 _ rs1, upper, funct7, amount]
  rfl

theorem decode_addUnsigned (shape : descriptor.pattern = .upper)
    (opcode : unsigned descriptor.opcode = 0b0001011) :
    decode (Word.vector (descriptor.wordOf values)) =
      some (.addUnsigned values.rd (BitVec.ofInt 20 values.number)) := by
  obtain ⟨rd, imm⟩ := descriptor.upper_fields valid values shape
  rw [decode, descriptor.opcode_field valid, opcode, registerAt_vector _ 7 _ rd, imm]
  rfl

theorem decode_loadUpper (shape : descriptor.pattern = .upper)
    (opcode : unsigned descriptor.opcode = 0b0110111) :
    decode (Word.vector (descriptor.wordOf values)) =
      some (.loadUpper values.rd (BitVec.ofInt 20 values.number)) := by
  obtain ⟨rd, imm⟩ := descriptor.upper_fields valid values shape
  rw [decode, descriptor.opcode_field valid, opcode, registerAt_vector _ 7 _ rd, imm]
  rfl

end Decode

section Instruction

variable (rd rs1 literal : Text) (target source : Register) (number : Int)
variable (named : Register.ofName? rd = some target)
variable (value : Literal.value? literal = some number)

include named value

theorem runs_addImmediate (base : Register.ofName? rs1 = some source) :
    Runs [["addi".toList, rd, rs1, literal]] fun registers =>
      registers.write target
        (registers.value source + (BitVec.ofInt 12 number).signExtend 64) := by
  have found : Catalogue.find? "addi".toList =
    some (Catalogue.plainEntry "addi" .i .immediate "0010011" "000") := rfl
  have decoded := decode_addImmediate _ (Catalogue.find_wellFormed _ _ found)
    { rd := target, rs1 := source, number } rfl rfl rfl
  refine runs_single _ _ _ _ _ found ?_ decoded
  simp [Descriptor.operandValues?, Catalogue.plainEntry, Catalogue.entry, named, base, value]

theorem runs_shiftLeft (base : Register.ofName? rs1 = some source) :
    Runs [["slli".toList, rd, rs1, literal]] fun registers =>
      registers.write target (registers.value source <<< (BitVec.ofInt 6 number).toNat) := by
  have found : Catalogue.find? "slli".toList =
    some (Catalogue.entry "slli" .i .shift "0010011" "001" "0000000") := rfl
  have decoded := decode_shiftLeft _ (Catalogue.find_wellFormed _ _ found)
    { rd := target, rs1 := source, number } rfl rfl rfl rfl
  refine runs_single _ _ _ _ _ found ?_ decoded
  simp [Descriptor.operandValues?, Catalogue.entry, named, base, value]

theorem runs_addUnsigned :
    Runs [["addi20u".toList, rd, literal]] fun registers =>
      registers.write target
        (registers.value target + (BitVec.ofInt 20 number).setWidth 64) := by
  have found : Catalogue.find? "addi20u".toList =
    some (Catalogue.plainEntry "addi20u" .u .upper "0001011" "000") := rfl
  have decoded := decode_addUnsigned _ (Catalogue.find_wellFormed _ _ found)
    { rd := target, number } rfl rfl
  refine runs_single _ _ _ _ _ found ?_ decoded
  simp [Descriptor.operandValues?, Catalogue.plainEntry, Catalogue.entry, named, value]

theorem runs_loadUpper :
    Runs [["lui".toList, rd, literal]] fun registers =>
      registers.write target ((BitVec.ofInt 20 number ++ (0 : BitVec 12)).signExtend 64) := by
  have found : Catalogue.find? "lui".toList =
    some (Catalogue.plainEntry "lui" .u .upper "0110111" "000") := rfl
  have decoded := decode_loadUpper _ (Catalogue.find_wellFormed _ _ found)
    { rd := target, number } rfl rfl
  refine runs_single _ _ _ _ _ found ?_ decoded
  simp [Descriptor.operandValues?, Catalogue.plainEntry, Catalogue.entry, named, value]

end Instruction

end RiscAssembly
