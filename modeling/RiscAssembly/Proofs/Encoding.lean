import Mathlib.Data.List.Forall2
import RiscAssembly.Isa.Word
import RiscAssembly.Proofs.Literal

/-!
Instruction words, described apart from the way they are computed. `operandValues?` says
what operands mean under a pattern: the registers they name and the number they give.
`wordOf` puts these values into the places of the word. Encoding accepts exactly the
operands that mean something and gives exactly that word, so that every word it gives has
32 bits.
-/

namespace RiscAssembly

open BitString

namespace Register

theorem parse_ok_iff (name : Text) (register : Register) :
    parse name = .ok register ↔ ofName? name = some register := by
  cases found : ofName? name <;> simp [parse, found]

theorem isBits_bits (register : Register) : IsBits register.bits := isBits_binary 5 register.val

@[simp]
theorem length_bits (register : Register) : register.bits.length = 5 :=
  length_binary 5 register.val

end Register

/-- Registers that operands name, zero where there is none, and the number of the immediate. -/
structure OperandValues where
  rd : Register := .zero
  rs1 : Register := .zero
  rs2 : Register := .zero
  number : Int := 0
  deriving DecidableEq

/-- What an operand stands for. -/
inductive OperandRole where
  | rd
  | rs1
  | rs2
  | number
  deriving DecidableEq

/-- The width of the field that a pattern has for its number. -/
def OperandPattern.immediateWidth : OperandPattern → Nat
  | .registers => 0
  | .shift => 6
  | .upper => 20
  | _ => 12

/-- The word format that goes with a pattern of operands. -/
def OperandPattern.format : OperandPattern → Format
  | .registers => .r
  | .immediate | .shift | .load | .jumpRegister | .bare => .i
  | .store | .branch => .s
  | .upper => .u

namespace Descriptor

/-- The number that an instruction without operands carries. -/
def bareNumber (descriptor : Descriptor) : Int :=
  if descriptor.mnemonic = "ebreak".toList then 1 else 0

/-- What operands mean, if they mean anything. The base of a register jump is the first of
its last two operands that names a register. -/
def operandValues? (descriptor : Descriptor) : List Text → Option OperandValues
  | [] => match descriptor.pattern with
    | .bare => some { number := descriptor.bareNumber }
    | _ => none
  | [first, second] => match descriptor.pattern with
    | .upper => do
        return { rd := ← Register.ofName? first, number := ← Literal.value? second }
    | _ => none
  | [first, second, third] => match descriptor.pattern with
    | .registers => do
        return { rd := ← Register.ofName? first, rs1 := ← Register.ofName? second,
                 rs2 := ← Register.ofName? third }
    | .immediate | .shift => do
        return { rd := ← Register.ofName? first, rs1 := ← Register.ofName? second,
                 number := ← Literal.value? third }
    | .load => do
        return { rd := ← Register.ofName? first, rs1 := ← Register.ofName? third,
                 number := ← Literal.value? second }
    | .jumpRegister => do
        let rd ← Register.ofName? first
        match Register.ofName? second with
        | some rs1 => return { rd, rs1, number := ← Literal.value? third }
        | none => return { rd, rs1 := ← Register.ofName? third, number := ← Literal.value? second }
    | .store => do
        return { rs1 := ← Register.ofName? third, rs2 := ← Register.ofName? first,
                 number := ← Literal.value? second }
    | .branch => do
        return { rs1 := ← Register.ofName? first, rs2 := ← Register.ofName? second,
                 number := ← Literal.value? third }
    | .upper | .bare => none
  | _ => none

/-- The immediate of a word: the low bits of the number. A shift has the first six bits of
its function code in front of the amount. -/
def immediateOf (descriptor : Descriptor) (number : Int) : Text :=
  match descriptor.pattern with
  | .registers => []
  | .shift => descriptor.funct7.take 6 ++ binary 6 (number % 2 ^ 6).toNat
  | .upper => binary 20 (number % 2 ^ 20).toNat
  | _ => binary 12 (number % 2 ^ 12).toNat

def fieldsOf (descriptor : Descriptor) (values : OperandValues) : WordFields where
  rd := values.rd.bits
  rs1 := values.rs1.bits
  rs2 := values.rs2.bits
  imm := descriptor.immediateOf values.number

def wordOf (descriptor : Descriptor) (values : OperandValues) : Word :=
  let fields := descriptor.fieldsOf values
  match descriptor.format with
  | .r => descriptor.funct7 ++ fields.rs2 ++ fields.rs1 ++ descriptor.funct3 ++ fields.rd
      ++ descriptor.opcode
  | .i => fields.imm ++ fields.rs1 ++ descriptor.funct3 ++ fields.rd ++ descriptor.opcode
  | .s => fields.imm.take 7 ++ fields.rs2 ++ fields.rs1 ++ descriptor.funct3 ++ fields.imm.drop 7
      ++ descriptor.opcode
  | .u => fields.imm ++ fields.rd ++ descriptor.opcode

/-- The fixed bits of a descriptor fill their places in the word, and its format goes with
its operands. -/
structure WellFormed (descriptor : Descriptor) : Prop where
  format : descriptor.format = descriptor.pattern.format
  funct7_length : descriptor.funct7.length = 7
  funct3_length : descriptor.funct3.length = 3
  opcode_length : descriptor.opcode.length = 7
  funct7_bits : IsBits descriptor.funct7
  funct3_bits : IsBits descriptor.funct3
  opcode_bits : IsBits descriptor.opcode

theorem catalogue_wellFormed (descriptor : Descriptor) (member : descriptor ∈ Catalogue.all) :
    descriptor.WellFormed := by
  have shapes : ∀ d ∈ Catalogue.all, d.format = d.pattern.format ∧ d.funct7.length = 7 ∧
      d.funct3.length = 3 ∧ d.opcode.length = 7 := by decide
  have strings : ∀ d ∈ Catalogue.all,
      IsBits d.funct7 ∧ IsBits d.funct3 ∧ IsBits d.opcode := by decide
  obtain ⟨format, seven, three, opcode⟩ := shapes descriptor member
  obtain ⟨sevenBits, threeBits, opcodeBits⟩ := strings descriptor member
  exact ⟨format, seven, three, opcode, sevenBits, threeBits, opcodeBits⟩

/-! Fields and their widths. -/

theorem checkWidth_ok_iff (descriptor : Descriptor) (field : WordField) (bits : Text)
    (expected : Nat) (value : Unit) :
    descriptor.checkWidth field bits expected = .ok value ↔ Text.byteLength bits = expected := by
  by_cases same : Text.byteLength bits = expected <;> simp [checkWidth, same]

theorem registerField_ok_iff (token bits : Text) :
    registerField token = .ok bits ↔
      ∃ register, Register.ofName? token = some register ∧ bits = register.bits := by
  simp only [registerField, bind_ok_iff, pure_ok_iff, Register.parse_ok_iff, eq_comm (b := bits)]

theorem immediateOf_isBits (descriptor : Descriptor) (valid : descriptor.WellFormed)
    (number : Int) : IsBits (descriptor.immediateOf number) := by
  unfold immediateOf
  split
  · simp [IsBits]
  · rw [isBits_append]
    exact ⟨fun c member => valid.funct7_bits c (List.mem_of_mem_take member), isBits_binary _ _⟩
  · exact isBits_binary _ _
  · exact isBits_binary _ _

theorem immediateOf_length (descriptor : Descriptor) (valid : descriptor.WellFormed)
    (number : Int) :
    (descriptor.immediateOf number).length =
      match descriptor.format with
      | .r => 0
      | .u => 20
      | _ => 12 := by
  have seven := valid.funct7_length
  rw [valid.format]
  unfold immediateOf OperandPattern.format
  cases descriptor.pattern <;> simp [seven]

theorem layout_fieldsOf (descriptor : Descriptor) (valid : descriptor.WellFormed)
    (values : OperandValues) :
    descriptor.layout descriptor.format (descriptor.fieldsOf values) =
      .ok (descriptor.wordOf values) := by
  have width := descriptor.immediateOf_length valid values.number
  have string := descriptor.immediateOf_isBits valid values.number
  have register (r : Register) : Text.byteLength r.bits = 5 := by
    rw [byteLength_bits _ r.isBits_bits, Register.length_bits]
  have bytes := byteLength_bits _ string
  cases shape : descriptor.format with
  | r =>
      simp only [layout, wordOf, shape, bind_ok_iff, pure_ok_iff, checkWidth_ok_iff]
      exact ⟨(), register _, (), register _, (), register _, trivial⟩
  | i =>
      simp only [shape] at width
      simp only [layout, wordOf, shape, bind_ok_iff, pure_ok_iff, checkWidth_ok_iff]
      exact ⟨(), bytes.trans width, (), register _, (), register _, trivial⟩
  | s =>
      simp only [shape] at width
      have high := slice_bits _ 11 5 string (by decide) (by omega)
      have low := slice_bits _ 4 0 string (by decide) (by omega)
      -- The seven bits in front and the five behind them are all there is.
      have rest : ((descriptor.immediateOf values.number).drop 7).take 5 =
          (descriptor.immediateOf values.number).drop 7 :=
        List.take_of_length_le (by rw [List.length_drop]; omega)
      simp only [width, List.drop_zero, Nat.reduceSub, Nat.reduceAdd, rest] at high low
      simp only [layout, wordOf, shape, bind_ok_iff, pure_ok_iff, checkWidth_ok_iff]
      exact ⟨(), bytes.trans width, (), register _, (), register _, _, high, _, low, rfl⟩
  | u =>
      simp only [shape] at width
      simp only [layout, wordOf, shape, bind_ok_iff, pure_ok_iff, checkWidth_ok_iff]
      exact ⟨(), bytes.trans width, (), register _, trivial⟩

theorem wordOf_width (descriptor : Descriptor) (valid : descriptor.WellFormed)
    (values : OperandValues) :
    (descriptor.wordOf values).length = 32 ∧ IsBits (descriptor.wordOf values) := by
  have width := descriptor.immediateOf_length valid values.number
  have string := descriptor.immediateOf_isBits valid values.number
  obtain ⟨-, seven, three, opcode, sevenBits, threeBits, opcodeBits⟩ := valid
  have rd := values.rd.isBits_bits
  have rs1 := values.rs1.isBits_bits
  have rs2 := values.rs2.isBits_bits
  cases shape : descriptor.format with
  | r =>
      simp only [wordOf, fieldsOf, shape, List.length_append, isBits_append, Register.length_bits]
      exact ⟨by omega, ⟨⟨⟨⟨sevenBits, rs2⟩, rs1⟩, threeBits⟩, rd⟩, opcodeBits⟩
  | i =>
      simp only [shape] at width
      simp only [wordOf, fieldsOf, shape, List.length_append, isBits_append, Register.length_bits]
      exact ⟨by omega, ⟨⟨⟨string, rs1⟩, threeBits⟩, rd⟩, opcodeBits⟩
  | s =>
      simp only [shape] at width
      have parts := (isBits_append _ _).mp (by rwa [List.take_append_drop 7] :
        IsBits ((descriptor.immediateOf values.number).take 7 ++
          (descriptor.immediateOf values.number).drop 7))
      simp only [wordOf, fieldsOf, shape, List.length_append, isBits_append, Register.length_bits,
        List.length_take, List.length_drop]
      exact ⟨by omega, ⟨⟨⟨⟨parts.1, rs2⟩, rs1⟩, threeBits⟩, parts.2⟩, opcodeBits⟩
  | u =>
      simp only [shape] at width
      simp only [wordOf, fieldsOf, shape, List.length_append, isBits_append, Register.length_bits]
      exact ⟨by omega, ⟨string, rd⟩, opcodeBits⟩

end Descriptor

/-! Reading operands. -/

/-- Operands in the order in which they are read, each with its role. A shift reads its amount
first. A register jump finds its base before it reads anything else. -/
def OperandPattern.reads : OperandPattern → List Text → List (OperandRole × Text)
  | .registers, [first, second, third] => [(.rd, first), (.rs1, second), (.rs2, third)]
  | .immediate, [first, second, third] => [(.rd, first), (.rs1, second), (.number, third)]
  | .shift, [first, second, third] => [(.number, third), (.rd, first), (.rs1, second)]
  | .load, [first, second, third] => [(.rd, first), (.number, second), (.rs1, third)]
  | .jumpRegister, [first, second, third] =>
      if (Register.ofName? second).isSome then [(.rs1, second), (.rd, first), (.number, third)]
      else [(.rs1, third), (.rd, first), (.number, second)]
  | .store, [first, second, third] => [(.rs2, first), (.number, second), (.rs1, third)]
  | .branch, [first, second, third] => [(.rs1, first), (.rs2, second), (.number, third)]
  | .upper, [first, second] => [(.rd, first), (.number, second)]
  | _, _ => []

/-- Values with one operand more. -/
def OperandValues.read? (values : OperandValues) : OperandRole × Text → Option OperandValues
  | (.rd, token) => do return { values with rd := ← Register.ofName? token }
  | (.rs1, token) => do return { values with rs1 := ← Register.ofName? token }
  | (.rs2, token) => do return { values with rs2 := ← Register.ofName? token }
  | (.number, token) => do return { values with number := ← Literal.value? token }

namespace Descriptor

variable (descriptor : Descriptor)

/-- The values before an operand is read. -/
def unread : OperandValues where
  number := if descriptor.pattern = .bare then descriptor.bareNumber else 0

/-- What stands in front of the number in its field. -/
def shiftCode : Text := if descriptor.pattern = .shift then descriptor.funct7.take 6 else []

/-- Fields with one operand more. -/
def readField (fields : WordFields) : OperandRole × Text → Except InstructionError WordFields
  | (.rd, token) => do return { fields with rd := ← registerField token }
  | (.rs1, token) => do return { fields with rs1 := ← registerField token }
  | (.rs2, token) => do return { fields with rs2 := ← registerField token }
  | (.number, token) => do
      let bits ← Literal.field token descriptor.pattern.immediateWidth
      return { fields with imm := descriptor.shiftCode ++ bits }

theorem immediateOf_present (present : descriptor.pattern ≠ .registers) (number : Int) :
    descriptor.immediateOf number = descriptor.shiftCode ++
      binary descriptor.pattern.immediateWidth
        (number % 2 ^ descriptor.pattern.immediateWidth).toNat := by
  unfold immediateOf shiftCode
  cases shape : descriptor.pattern with
  | registers => exact absurd shape present
  | _ => simp [OperandPattern.immediateWidth]

theorem immediateWidth_present (pattern : OperandPattern) (present : pattern ≠ .registers) :
    0 < pattern.immediateWidth ∧ pattern.immediateWidth ≤ 64 := by
  cases pattern with
  | registers => exact absurd rfl present
  | _ => decide

theorem reads_number (pattern : OperandPattern) (operands : List Text)
    (read : OperandRole × Text) (member : read ∈ pattern.reads operands)
    (number : read.1 = .number) : pattern ≠ .registers := by
  rintro rfl
  obtain ⟨role, token⟩ := read
  obtain rfl : role = .number := number
  unfold OperandPattern.reads at member
  split at member <;> simp_all

theorem matchOperands_eq_reads (valid : descriptor.WellFormed) (operands : List Text)
    (counted : operands.length = descriptor.pattern.arity) :
    descriptor.matchOperands descriptor.pattern operands =
      (descriptor.pattern.reads operands).foldlM descriptor.readField
        (descriptor.fieldsOf descriptor.unread) := by
  cases shape : descriptor.pattern with
  | registers | immediate | load | store | branch =>
      rw [shape] at counted
      obtain ⟨first, second, third, rfl⟩ := List.length_eq_three.mp counted
      simp [matchOperands, OperandPattern.reads, readField, fieldsOf, unread, immediateOf,
        shiftCode, OperandPattern.immediateWidth, shape]
  | shift =>
      rw [shape] at counted
      obtain ⟨first, second, third, rfl⟩ := List.length_eq_three.mp counted
      have code : slice descriptor.funct7 6 1 = pure (descriptor.funct7.take 6) := by
        rw [slice_bits _ 6 1 valid.funct7_bits (by decide) (by rw [valid.funct7_length]; decide),
          valid.funct7_length]
        rfl
      simp [matchOperands, OperandPattern.reads, readField, fieldsOf, unread, shiftCode,
        OperandPattern.immediateWidth, shape, code]
  | jumpRegister =>
      rw [shape] at counted
      obtain ⟨first, second, third, rfl⟩ := List.length_eq_three.mp counted
      cases base : Register.ofName? second with
      | some register =>
          have read : registerField second = .ok register.bits :=
            (registerField_ok_iff second _).mpr ⟨register, base, rfl⟩
          simp [matchOperands, jumpBase, OperandPattern.reads, readField, fieldsOf, unread,
            shiftCode, OperandPattern.immediateWidth, shape, base, read]
          rfl
      | none =>
          simp [matchOperands, jumpBase, OperandPattern.reads, readField, fieldsOf, unread,
            shiftCode, OperandPattern.immediateWidth, shape, base]
  | upper =>
      rw [shape] at counted
      obtain ⟨first, second, rfl⟩ := List.length_eq_two.mp counted
      have wide : descriptor.format = .u := by rw [valid.format, shape]; rfl
      simp [matchOperands, OperandPattern.reads, readField, fieldsOf, unread, shiftCode,
        OperandPattern.immediateWidth, shape, wide]
  | bare =>
      rw [shape] at counted
      obtain rfl := List.length_eq_zero_iff.mp counted
      have code : Literal.field
          (if descriptor.mnemonic = "ebreak".toList then "1" else "0").toList 12 =
            pure (descriptor.immediateOf descriptor.bareNumber) := by
        unfold bareNumber immediateOf
        rw [shape]
        split <;> rfl
      simp only [matchOperands, OperandPattern.reads, List.foldlM_nil, fieldsOf, unread, shape,
        code, pure_bind, if_true]

theorem operandValues_eq_reads (operands : List Text)
    (counted : operands.length = descriptor.pattern.arity) :
    descriptor.operandValues? operands =
      (descriptor.pattern.reads operands).foldlM OperandValues.read? descriptor.unread := by
  -- Reads of different operands change places where the values are not read in their order.
  cases shape : descriptor.pattern with
  | registers | immediate | branch =>
      rw [shape] at counted
      obtain ⟨first, second, third, rfl⟩ := List.length_eq_three.mp counted
      simp [operandValues?, OperandPattern.reads, OperandValues.read?, unread, shape,
        Option.bind_assoc]
  | load | store =>
      rw [shape] at counted
      obtain ⟨first, second, third, rfl⟩ := List.length_eq_three.mp counted
      simp [operandValues?, OperandPattern.reads, OperandValues.read?, unread, shape,
        Option.bind_assoc, Option.bind_comm (Register.ofName? third) (Register.ofName? first),
        Option.bind_comm (Register.ofName? third) (Literal.value? second)]
  | shift =>
      rw [shape] at counted
      obtain ⟨first, second, third, rfl⟩ := List.length_eq_three.mp counted
      simp [operandValues?, OperandPattern.reads, OperandValues.read?, unread, shape,
        Option.bind_assoc, Option.bind_comm (Literal.value? third)]
  | jumpRegister =>
      rw [shape] at counted
      obtain ⟨first, second, third, rfl⟩ := List.length_eq_three.mp counted
      cases base : Register.ofName? second with
      | some register =>
          simp [operandValues?, OperandPattern.reads, OperandValues.read?, unread, shape, base,
            Option.bind_assoc]
      | none =>
          simp [operandValues?, OperandPattern.reads, OperandValues.read?, unread, shape, base,
            Option.bind_assoc, Option.bind_comm (Register.ofName? third) (Register.ofName? first)]
  | upper =>
      rw [shape] at counted
      obtain ⟨first, second, rfl⟩ := List.length_eq_two.mp counted
      simp [operandValues?, OperandPattern.reads, OperandValues.read?, unread, shape,
        Option.bind_assoc]
  | bare =>
      rw [shape] at counted
      obtain rfl := List.length_eq_zero_iff.mp counted
      simp [operandValues?, OperandPattern.reads, unread, shape]

theorem operandValues_counted (operands : List Text) (values : OperandValues)
    (read : descriptor.operandValues? operands = some values) :
    operands.length = descriptor.pattern.arity := by
  unfold operandValues? at read
  split at read <;> cases shape : descriptor.pattern <;> simp_all [OperandPattern.arity]

theorem readField_ok_iff (read : OperandRole × Text)
    (used : read.1 = .number → descriptor.pattern ≠ .registers) (values : OperandValues)
    (fields : WordFields) :
    descriptor.readField (descriptor.fieldsOf values) read = .ok fields ↔
      ∃ next, values.read? read = some next ∧ fields = descriptor.fieldsOf next := by
  obtain ⟨role, token⟩ := read
  cases role with
  | rd | rs1 | rs2 =>
      simp only [readField, OperandValues.read?, bind_ok_iff, pure_ok_iff, registerField_ok_iff,
        Option.bind_eq_bind, Option.bind_eq_some_iff, Option.pure_def, Option.some.injEq]
      constructor
      · rintro ⟨_, ⟨register, named, rfl⟩, rfl⟩
        exact ⟨_, ⟨register, named, rfl⟩, rfl⟩
      · rintro ⟨_, ⟨register, named, rfl⟩, rfl⟩
        exact ⟨_, ⟨register, named, rfl⟩, rfl⟩
  | number =>
      have present := used rfl
      obtain ⟨positive, narrow⟩ := immediateWidth_present _ present
      simp only [readField, OperandValues.read?, bind_ok_iff, pure_ok_iff, fieldsOf,
        Literal.field_ok_iff _ _ _ positive narrow, descriptor.immediateOf_present present,
        Option.bind_eq_bind, Option.bind_eq_some_iff, Option.pure_def, Option.some.injEq]
      constructor
      · rintro ⟨_, ⟨number, value, rfl⟩, rfl⟩
        exact ⟨_, ⟨number, value, rfl⟩, rfl⟩
      · rintro ⟨_, ⟨number, value, rfl⟩, rfl⟩
        exact ⟨_, ⟨number, value, rfl⟩, rfl⟩

theorem matchOperands_ok_iff (valid : descriptor.WellFormed) (operands : List Text)
    (fields : WordFields) :
    operands.length = descriptor.pattern.arity ∧
        descriptor.matchOperands descriptor.pattern operands = .ok fields ↔
      ∃ values, descriptor.operandValues? operands = some values ∧
        fields = descriptor.fieldsOf values := by
  by_cases counted : operands.length = descriptor.pattern.arity
  · have follows := foldlM_ok_iff descriptor.fieldsOf OperandValues.read? descriptor.readField
      (descriptor.pattern.reads operands)
      (fun read member => descriptor.readField_ok_iff read (reads_number _ operands read member))
      descriptor.unread fields
    rw [← descriptor.operandValues_eq_reads operands counted,
      ← descriptor.matchOperands_eq_reads valid operands counted] at follows
    exact (and_iff_right counted).trans follows
  · refine ⟨fun read => absurd read.1 counted, ?_⟩
    rintro ⟨values, read, -⟩
    exact absurd (descriptor.operandValues_counted operands values read) counted

end Descriptor

theorem Catalogue.lookup_ok_iff (mnemonic : Text) (descriptor : Descriptor) :
    lookup mnemonic = .ok descriptor ↔ find? mnemonic = some descriptor := by
  cases found : find? mnemonic <;> simp [lookup, found]

theorem Catalogue.find_wellFormed (mnemonic : Text) (descriptor : Descriptor)
    (found : find? mnemonic = some descriptor) : descriptor.WellFormed :=
  descriptor.catalogue_wellFormed (List.mem_of_find?_eq_some found)

theorem encode_ok_iff (mnemonic : Text) (operands : List Text) (word : Word) :
    encode (mnemonic :: operands) = .ok word ↔
      ∃ descriptor values, Catalogue.find? mnemonic = some descriptor ∧
        descriptor.operandValues? operands = some values ∧ word = descriptor.wordOf values := by
  simp only [encode, bind_ok_iff, Catalogue.lookup_ok_iff, Descriptor.readOperands]
  constructor
  · rintro ⟨descriptor, found, fields, read, laid⟩
    have valid := Catalogue.find_wellFormed mnemonic descriptor found
    split at read
    · rename_i counted
      obtain ⟨values, meaning, rfl⟩ :=
        (descriptor.matchOperands_ok_iff valid operands fields).mp ⟨counted, read⟩
      rw [descriptor.layout_fieldsOf valid values] at laid
      cases laid
      exact ⟨descriptor, values, found, meaning, rfl⟩
    · cases read
  · rintro ⟨descriptor, values, found, meaning, rfl⟩
    have valid := Catalogue.find_wellFormed mnemonic descriptor found
    obtain ⟨counted, read⟩ :=
      (descriptor.matchOperands_ok_iff valid operands _).mpr ⟨values, meaning, rfl⟩
    exact ⟨descriptor, found, _, by rw [if_pos counted]; exact read,
      descriptor.layout_fieldsOf valid values⟩

theorem encode_width (tokens : List Text) (word : Word) (encoded : encode tokens = .ok word) :
    word.length = 32 ∧ IsBits word := by
  cases tokens with
  | nil => cases encoded
  | cons mnemonic operands =>
      obtain ⟨descriptor, values, found, -, rfl⟩ :=
        (encode_ok_iff mnemonic operands word).mp encoded
      exact descriptor.wordOf_width (Catalogue.find_wellFormed mnemonic descriptor found) values

theorem encoded_width (machine : List (List Text)) (words : List Word)
    (encoded : List.Forall₂ (fun tokens word => encode tokens = .ok word) machine words) :
    ∀ word ∈ words, word.length = 32 ∧ IsBits word := by
  induction encoded with
  | nil =>
      intro word member
      cases member
  | cons first _ ih =>
      intro word member
      rcases List.mem_cons.mp member with rfl | later
      · exact encode_width _ word first
      · exact ih word later

end RiscAssembly
