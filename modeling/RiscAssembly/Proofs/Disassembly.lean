import RiscAssembly.Proofs.Machine
import RiscAssembly.Proofs.Operands

/-!
Words read back. `disassemble` sees nothing but the 32 bits of a word: it looks for the
descriptor whose fixed bits the word has, and takes the operands from the fields that the
descriptor's pattern gives them. The fixed bits tell the descriptors of the catalogue
apart, so that the word of an instruction gives back its mnemonic, its registers and the
immediate as far as the field holds it; two instructions share a word exactly if they agree
in these.
-/

namespace RiscAssembly

open BitString

/-- What an instruction says: its descriptor and the values of its operands. -/
def instructionValues? : List Text → Option (Descriptor × OperandValues)
  | [] => none
  | mnemonic :: operands => do
      let descriptor ← Catalogue.find? mnemonic
      let values ← descriptor.operandValues? operands
      return (descriptor, values)

/-- Values with the number as far as the field of a pattern holds it. -/
def OperandValues.within (values : OperandValues) (pattern : OperandPattern) : OperandValues :=
  { values with number := values.number % 2 ^ pattern.immediateWidth }

namespace Descriptor

/-- Whether a word has the fixed bits of a descriptor. An instruction without operands has
its whole immediate among them. -/
def fits (descriptor : Descriptor) (word : BitVec 32) : Bool :=
  let opcode := word.extractLsb' 0 7 == BitVec.ofNat 7 (unsigned descriptor.opcode)
  let funct3 := word.extractLsb' 12 3 == BitVec.ofNat 3 (unsigned descriptor.funct3)
  opcode && match descriptor.pattern with
    | .upper => true
    | .registers =>
        funct3 && word.extractLsb' 25 7 == BitVec.ofNat 7 (unsigned descriptor.funct7)
    | .shift =>
        funct3 && word.extractLsb' 26 6 == BitVec.ofNat 6 (unsigned (descriptor.funct7.take 6))
    | .bare => funct3 && word.extractLsb' 20 12 == BitVec.ofInt 12 descriptor.bareNumber
    | _ => funct3

/-- The operands that a word has under a descriptor. -/
def valuesIn (descriptor : Descriptor) (word : BitVec 32) : OperandValues :=
  let rd := registerAt word 7
  let rs1 := registerAt word 15
  let rs2 := registerAt word 20
  match descriptor.pattern with
  | .registers => { rd, rs1, rs2 }
  | .immediate | .load | .jumpRegister => { rd, rs1, number := (word.extractLsb' 20 12).toNat }
  | .shift => { rd, rs1, number := (word.extractLsb' 20 6).toNat }
  | .store | .branch =>
      { rs1, rs2, number := (word.extractLsb' 25 7 ++ word.extractLsb' 7 5).toNat }
  | .upper => { rd, number := (word.extractLsb' 12 20).toNat }
  | .bare => { number := (word.extractLsb' 20 12).toNat }

end Descriptor

def disassemble (word : BitVec 32) : Option (Text × OperandValues) :=
  (Catalogue.all.find? fun descriptor => descriptor.fits word).map fun descriptor =>
    (descriptor.mnemonic, descriptor.valuesIn word)

/-! Fixed bits. -/

theorem unsigned_eq_of_vector (width : Nat) (narrow : width ≤ 64) (bits other : Text)
    (length : bits.length = width) (otherLength : other.length = width)
    (same : BitVec.ofNat width (unsigned bits) = BitVec.ofNat width (unsigned other)) :
    unsigned bits = unsigned other := by
  have first := unsigned_lt bits (by omega)
  have second := unsigned_lt other (by omega)
  rw [length] at first
  rw [otherLength] at second
  have numbers := congrArg BitVec.toNat same
  rwa [BitVec.toNat_ofNat, BitVec.toNat_ofNat, Nat.mod_eq_of_lt first,
    Nat.mod_eq_of_lt second] at numbers

namespace Descriptor

/-- What two descriptors have to agree in for a word of the first to fit the second. -/
def Confusable (descriptor other : Descriptor) : Prop :=
  unsigned descriptor.opcode = unsigned other.opcode ∧
    (descriptor.format ≠ .u → other.format ≠ .u →
      unsigned descriptor.funct3 = unsigned other.funct3) ∧
    (descriptor.pattern = .registers → other.pattern = .registers →
      unsigned descriptor.funct7 = unsigned other.funct7) ∧
    (descriptor.pattern = .shift → other.pattern = .shift →
      unsigned (descriptor.funct7.take 6) = unsigned (other.funct7.take 6)) ∧
    (descriptor.pattern = .bare → other.pattern = .bare →
      descriptor.bareNumber = other.bareNumber)

instance (descriptor other : Descriptor) : Decidable (descriptor.Confusable other) :=
  inferInstanceAs (Decidable (_ ∧ _))

theorem catalogue_distinct (descriptor other : Descriptor) (member : descriptor ∈ Catalogue.all)
    (listed : other ∈ Catalogue.all) (confusable : descriptor.Confusable other) :
    other = descriptor := by
  have table : ∀ d ∈ Catalogue.all, ∀ e ∈ Catalogue.all, d.Confusable e → e = d := by
    decide +kernel
  exact table descriptor member other listed confusable

theorem bareNumber_of_vector (descriptor other : Descriptor)
    (same : BitVec.ofInt 12 descriptor.bareNumber = BitVec.ofInt 12 other.bareNumber) :
    descriptor.bareNumber = other.bareNumber := by
  have small (d : Descriptor) : d.bareNumber = 0 ∨ d.bareNumber = 1 := by
    unfold bareNumber
    split <;> simp
  rcases small descriptor with first | first <;> rcases small other with second | second <;>
    rw [first, second] at same ⊢ <;> exact absurd same (by decide)

section Fields

variable (descriptor : Descriptor) (valid : descriptor.WellFormed) (values : OperandValues)

include valid

theorem fits_iff (word : BitVec 32) :
    descriptor.fits word = true ↔
      word.extractLsb' 0 7 = BitVec.ofNat 7 (unsigned descriptor.opcode) ∧
        (descriptor.format ≠ .u →
          word.extractLsb' 12 3 = BitVec.ofNat 3 (unsigned descriptor.funct3)) ∧
        (descriptor.pattern = .registers →
          word.extractLsb' 25 7 = BitVec.ofNat 7 (unsigned descriptor.funct7)) ∧
        (descriptor.pattern = .shift →
          word.extractLsb' 26 6 = BitVec.ofNat 6 (unsigned (descriptor.funct7.take 6))) ∧
        (descriptor.pattern = .bare →
          word.extractLsb' 20 12 = BitVec.ofInt 12 descriptor.bareNumber) := by
  have format := valid.format
  cases shape : descriptor.pattern <;> rw [shape] at format <;>
    simp [fits, shape, format, OperandPattern.format]

theorem funct3_field (low : descriptor.format ≠ .u) :
    (Word.vector (descriptor.wordOf values)).extractLsb' 12 3 =
      BitVec.ofNat 3 (unsigned descriptor.funct3) := by
  cases shape : descriptor.format with
  | r => exact (descriptor.r_fields valid values shape).2.1
  | i => exact (descriptor.i_fields valid values shape).2.1
  | s => exact (descriptor.s_fields valid values shape).1
  | u => exact absurd shape low

theorem funct7_field (shape : descriptor.pattern = .registers) :
    (Word.vector (descriptor.wordOf values)).extractLsb' 25 7 =
      BitVec.ofNat 7 (unsigned descriptor.funct7) :=
  (descriptor.r_fields valid values (by rw [valid.format, shape]; rfl)).2.2.2.2

theorem bare_field (shape : descriptor.pattern = .bare) :
    (Word.vector (descriptor.wordOf values)).extractLsb' 20 12 =
      BitVec.ofInt 12 values.number :=
  descriptor.immediate_field valid values (by rw [valid.format, shape]; rfl)
    (by rw [shape]; decide)

variable (bare : descriptor.pattern = .bare → values.number = descriptor.bareNumber)

include bare

theorem fits_wordOf : descriptor.fits (Word.vector (descriptor.wordOf values)) = true := by
  rw [descriptor.fits_iff valid]
  refine ⟨descriptor.opcode_field valid values, descriptor.funct3_field valid values,
    descriptor.funct7_field valid values,
    fun shape => (descriptor.shift_fields valid values shape).1, ?_⟩
  intro shape
  rw [descriptor.bare_field valid values shape, bare shape]

theorem confusable_of_fits (other : Descriptor) (otherValid : other.WellFormed)
    (fitting : other.fits (Word.vector (descriptor.wordOf values)) = true) :
    descriptor.Confusable other := by
  obtain ⟨opcode, funct3, funct7, code, imm⟩ := (other.fits_iff otherValid _).mp fitting
  refine ⟨?_, ?_, ?_, ?_, ?_⟩
  · rw [descriptor.opcode_field valid] at opcode
    exact unsigned_eq_of_vector 7 (by decide) _ _ valid.opcode_length otherValid.opcode_length
      opcode
  · intro low otherLow
    have field := funct3 otherLow
    rw [descriptor.funct3_field valid values low] at field
    exact unsigned_eq_of_vector 3 (by decide) _ _ valid.funct3_length otherValid.funct3_length
      field
  · intro shape otherShape
    have field := funct7 otherShape
    rw [descriptor.funct7_field valid values shape] at field
    exact unsigned_eq_of_vector 7 (by decide) _ _ valid.funct7_length otherValid.funct7_length
      field
  · intro shape otherShape
    have field := code otherShape
    rw [(descriptor.shift_fields valid values shape).1] at field
    exact unsigned_eq_of_vector 6 (by decide) _ _ (by simp [valid.funct7_length])
      (by simp [otherValid.funct7_length]) field
  · intro shape otherShape
    have field := imm otherShape
    rw [descriptor.bare_field valid values shape, bare shape] at field
    exact descriptor.bareNumber_of_vector other field

/-- The descriptor of a word is the only one that the word fits. -/
theorem find_fits (member : descriptor ∈ Catalogue.all) :
    (Catalogue.all.find? fun other => other.fits (Word.vector (descriptor.wordOf values))) =
      some descriptor := by
  cases found : Catalogue.all.find? fun other =>
      other.fits (Word.vector (descriptor.wordOf values)) with
  | none =>
      have unfit := List.find?_eq_none.mp found descriptor member
      exact absurd (descriptor.fits_wordOf valid values bare) unfit
  | some other =>
      have listed := List.mem_of_find?_eq_some found
      have fitting := List.find?_some found
      have confusable := descriptor.confusable_of_fits valid values bare other
        (other.catalogue_wellFormed listed) fitting
      rw [descriptor.catalogue_distinct other member listed confusable]

end Fields

end Descriptor

/-! Operands. -/

theorem natCast_ofInt (width : Nat) (number : Int) :
    ((BitVec.ofInt width number).toNat : Int) = number % 2 ^ width := by
  have nonnegative : 0 ≤ number % (2 ^ width : Nat) :=
    Int.emod_nonneg number (Int.natCast_ne_zero.mpr (Nat.ne_of_gt (Nat.two_pow_pos width)))
  rw [BitVec.toNat_ofInt, Int.toNat_of_nonneg nonnegative, Int.natCast_pow]
  rfl

namespace Descriptor

theorem valuesIn_wordOf (descriptor : Descriptor) (valid : descriptor.WellFormed)
    (values : OperandValues) :
    descriptor.valuesIn (Word.vector (descriptor.wordOf values)) =
      (descriptor.pattern.keep values).within descriptor.pattern := by
  have format := valid.format
  cases shape : descriptor.pattern with
  | registers =>
      rw [shape] at format
      obtain ⟨rd, -, rs1, rs2, -⟩ := descriptor.r_fields valid values format
      simp only [valuesIn, shape, registerAt_vector _ _ _ rd, registerAt_vector _ _ _ rs1,
        registerAt_vector _ _ _ rs2]
      rfl
  | shift =>
      rw [shape] at format
      obtain ⟨rd, -, rs1⟩ := descriptor.i_fields valid values format
      have amount := (descriptor.shift_fields valid values shape).2
      simp only [valuesIn, shape, registerAt_vector _ _ _ rd, registerAt_vector _ _ _ rs1, amount,
        natCast_ofInt]
      rfl
  | upper =>
      obtain ⟨rd, imm⟩ := descriptor.upper_fields valid values shape
      simp only [valuesIn, shape, registerAt_vector _ _ _ rd, imm, natCast_ofInt]
      rfl
  | bare =>
      have imm := descriptor.bare_field valid values shape
      simp only [valuesIn, shape, imm, natCast_ofInt]
      rfl
  | store | branch =>
      rw [shape] at format
      obtain ⟨-, rs1, rs2⟩ := descriptor.s_fields valid values format
      have offset := descriptor.offset_field valid values format
      simp only [valuesIn, shape, registerAt_vector _ _ _ rs1, registerAt_vector _ _ _ rs2,
        offset, natCast_ofInt]
      rfl
  | immediate | load | jumpRegister =>
      rw [shape] at format
      obtain ⟨rd, -, rs1⟩ := descriptor.i_fields valid values format
      have imm := descriptor.immediate_field valid values format (by rw [shape]; decide)
      simp only [valuesIn, shape, registerAt_vector _ _ _ rd, registerAt_vector _ _ _ rs1, imm,
        natCast_ofInt]
      rfl

theorem disassemble_wordOf (descriptor : Descriptor) (member : descriptor ∈ Catalogue.all)
    (operands : List Text) (values : OperandValues)
    (read : descriptor.operandValues? operands = some values) :
    disassemble (Word.vector (descriptor.wordOf values)) =
      some (descriptor.mnemonic, values.within descriptor.pattern) := by
  have valid := descriptor.catalogue_wellFormed member
  have gives := descriptor.gives_of_values operands values read
  have bare : descriptor.pattern = .bare → values.number = descriptor.bareNumber := by
    intro shape
    rw [shape] at gives
    cases gives with
    | baseFirst _ _ _ _ _ _ _ listed => exact absurd listed (by decide)
    | offsetFirst _ _ _ _ _ _ _ listed => exact absurd listed (by decide)
    | bare => rfl
  rw [disassemble, descriptor.find_fits valid values bare member, Option.map_some,
    descriptor.valuesIn_wordOf valid, gives.keep_eq]

/-- The word holds no more of the number than its field. -/
theorem wordOf_within (descriptor : Descriptor) (values : OperandValues) :
    descriptor.wordOf (values.within descriptor.pattern) = descriptor.wordOf values := by
  have imm : descriptor.immediateOf (values.number % 2 ^ descriptor.pattern.immediateWidth) =
      descriptor.immediateOf values.number := by
    unfold immediateOf OperandPattern.immediateWidth
    cases descriptor.pattern <;> simp only [Int.emod_emod]
  simp only [wordOf, fieldsOf, OperandValues.within, imm]

end Descriptor

theorem encode_values (tokens : List Text) (word : Word) (encoded : encode tokens = .ok word) :
    ∃ descriptor values, instructionValues? tokens = some (descriptor, values) ∧
      Catalogue.find? descriptor.mnemonic = some descriptor ∧
      tokens.head? = some descriptor.mnemonic ∧
      word = descriptor.wordOf values ∧
      disassemble (Word.vector word) =
        some (descriptor.mnemonic, values.within descriptor.pattern) := by
  cases tokens with
  | nil => cases encoded
  | cons mnemonic operands =>
      obtain ⟨descriptor, values, found, read, rfl⟩ :=
        (encode_ok_iff mnemonic operands word).mp encoded
      have member := List.mem_of_find?_eq_some found
      have named : descriptor.mnemonic = mnemonic := by simpa using List.find?_some found
      refine ⟨descriptor, values, ?_, ?_, ?_, rfl,
        descriptor.disassemble_wordOf member operands values read⟩
      · simp [instructionValues?, found, read]
      · rw [named, found]
      · rw [List.head?_cons, named]

theorem encode_uniquely_decodable (first second : List Text) (word other : Word)
    (encoded : encode first = .ok word) (encodedOther : encode second = .ok other) :
    ∃ descriptor values otherDescriptor otherValues,
      instructionValues? first = some (descriptor, values) ∧
      instructionValues? second = some (otherDescriptor, otherValues) ∧
      (encode first = encode second ↔
        first.head? = second.head? ∧ values.rd = otherValues.rd ∧
          values.rs1 = otherValues.rs1 ∧ values.rs2 = otherValues.rs2 ∧
          values.number % 2 ^ descriptor.pattern.immediateWidth =
            otherValues.number % 2 ^ descriptor.pattern.immediateWidth) ∧
      first.head? = some descriptor.mnemonic ∧
      disassemble (Word.vector word) =
        some (descriptor.mnemonic, values.within descriptor.pattern) := by
  obtain ⟨descriptor, values, meaning, found, head, rfl, back⟩ := encode_values first word encoded
  obtain ⟨otherDescriptor, otherValues, otherMeaning, otherFound, otherHead, rfl, otherBack⟩ :=
    encode_values second other encodedOther
  refine ⟨descriptor, values, otherDescriptor, otherValues, meaning, otherMeaning, ?_, head, back⟩
  rw [encoded, encodedOther, Except.ok.injEq, head, otherHead, Option.some.injEq]
  constructor
  · -- Equal words are read back as the same instruction.
    intro same
    rw [same, otherBack, Option.some.injEq, Prod.mk.injEq] at back
    obtain ⟨mnemonic, within⟩ := back
    obtain rfl : descriptor = otherDescriptor := by
      rw [mnemonic, found] at otherFound
      exact Option.some.inj otherFound
    simp only [OperandValues.within, OperandValues.mk.injEq] at within
    exact ⟨rfl, within.1.symm, within.2.1.symm, within.2.2.1.symm, within.2.2.2.symm⟩
  · rintro ⟨mnemonic, rd, rs1, rs2, number⟩
    obtain rfl : descriptor = otherDescriptor := by
      rw [← mnemonic, found] at otherFound
      exact Option.some.inj otherFound
    rw [← descriptor.wordOf_within values, ← descriptor.wordOf_within otherValues]
    simp only [OperandValues.within, rd, rs1, rs2, number]

/-- Both orders of the operands of a register jump, with offsets that differ by 2^12. -/
theorem encode_uniquely_decodable_jump :
    let first := ["jalr".toList, "ra".toList, "t0".toList, "4100".toList]
    ∃ word, encode first = .ok word ∧
      disassemble (Word.vector word) = some ("jalr".toList, { rd := 1, rs1 := 5, number := 4 }) ∧
      encode first = encode ["jalr".toList, "x1".toList, "4".toList, "$5".toList] := by
  obtain ⟨descriptor, values, otherDescriptor, otherValues, meaning, otherMeaning, same, -, back⟩ :=
    encode_uniquely_decodable ["jalr".toList, "ra".toList, "t0".toList, "4100".toList]
      ["jalr".toList, "x1".toList, "4".toList, "$5".toList] _ _ rfl rfl
  cases meaning
  cases otherMeaning
  exact ⟨_, rfl, back, same.mpr (by decide)⟩

end RiscAssembly
