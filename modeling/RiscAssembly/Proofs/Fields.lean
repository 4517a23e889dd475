import RiscAssembly.Proofs.Encoding

/-!
The fields of an instruction word, taken from the 32-bit number that the word is. For each
format the fields hold the fixed bits of the descriptor, the numbers of the registers and
the low bits of the immediate, in two pieces where the format has it so.
-/

namespace RiscAssembly

open BitString

/-- A word as the machine reads it. -/
def Word.vector (word : Word) : BitVec 32 := BitVec.ofNat 32 (unsigned word)

namespace BitString

theorem extract_vector (word high middle low : Text) (start width : Nat)
    (parts : word = high ++ (middle ++ low)) (whole : word.length = 32)
    (below : low.length = start) (wide : middle.length = width) :
    (Word.vector word).extractLsb' start width = BitVec.ofNat width (unsigned middle) := by
  subst parts below wide
  simp only [List.length_append] at whole
  have value : unsigned (high ++ (middle ++ low)) =
      (unsigned high * 2 ^ middle.length + unsigned middle) * 2 ^ low.length + unsigned low := by
    rw [unsigned_append _ _ (by simp only [List.length_append]; omega),
      unsigned_append _ _ (by omega), List.length_append, Nat.pow_add, Nat.add_mul,
      Nat.mul_assoc, Nat.add_assoc]
  have bound : unsigned (high ++ (middle ++ low)) < 2 ^ 32 := by
    have := unsigned_lt (high ++ (middle ++ low)) (by simp only [List.length_append]; omega)
    rwa [List.length_append, List.length_append, whole] at this
  have lower := unsigned_lt low (by omega)
  -- Shifting drops what is below the field, the remainder drops what is above it.
  apply BitVec.eq_of_toNat_eq
  rw [BitVec.extractLsb'_toNat, Word.vector, BitVec.toNat_ofNat, Nat.mod_eq_of_lt bound, value,
    Nat.shiftRight_eq_div_pow, Nat.add_comm, Nat.add_mul_div_right _ _ (Nat.two_pow_pos _),
    Nat.div_eq_of_lt lower, Nat.zero_add, BitVec.toNat_ofNat, Nat.mul_add_mod_self_right]

/-- The low bits of a number, read back, are the number as a vector. -/
theorem residue_vector (width : Nat) (narrow : width ≤ 64) (number : Int) :
    BitVec.ofNat width (unsigned (binary width (number % 2 ^ width).toNat)) =
      BitVec.ofInt width number := by
  rw [unsigned_binary width _ narrow, ← ofNat_residue]
  apply BitVec.eq_of_toNat_eq
  rw [BitVec.toNat_ofNat, BitVec.toNat_ofNat, Nat.mod_mod]

theorem append_vector (high low : Text) (narrow : high.length + low.length ≤ 64) :
    BitVec.ofNat high.length (unsigned high) ++ BitVec.ofNat low.length (unsigned low) =
      BitVec.ofNat (high.length + low.length) (unsigned (high ++ low)) := by
  have upper := unsigned_lt high (by omega)
  have lower := unsigned_lt low (by omega)
  apply BitVec.eq_of_toNat_eq
  rw [BitVec.toNat_append, BitVec.toNat_ofNat, BitVec.toNat_ofNat, Nat.mod_eq_of_lt upper,
    Nat.mod_eq_of_lt lower, ← Nat.shiftLeft_add_eq_or_of_lt lower, Nat.shiftLeft_eq,
    BitVec.toNat_ofNat, unsigned_append high low narrow, Nat.mod_eq_of_lt]
  rw [← unsigned_append high low narrow, ← List.length_append]
  exact unsigned_lt _ (by rwa [List.length_append])

end BitString

theorem Register.unsigned_bits (register : Register) : unsigned register.bits = register.val := by
  rw [Register.bits, unsigned_binary 5 _ (by decide)]
  exact Nat.mod_eq_of_lt register.isLt

namespace Descriptor

variable (descriptor : Descriptor) (valid : descriptor.WellFormed) (values : OperandValues)

include valid

theorem opcode_field :
    (Word.vector (descriptor.wordOf values)).extractLsb' 0 7 =
      BitVec.ofNat 7 (unsigned descriptor.opcode) := by
  have whole := (descriptor.wordOf_width valid values).1
  have behind : ∃ front, descriptor.wordOf values = front ++ (descriptor.opcode ++ []) := by
    unfold wordOf
    cases descriptor.format <;> exact ⟨_, by rw [List.append_nil]⟩
  obtain ⟨front, parts⟩ := behind
  exact extract_vector _ _ _ _ 0 7 parts whole rfl valid.opcode_length

theorem r_fields (shape : descriptor.format = .r) :
    let word := Word.vector (descriptor.wordOf values)
    word.extractLsb' 7 5 = BitVec.ofNat 5 values.rd.val ∧
      word.extractLsb' 12 3 = BitVec.ofNat 3 (unsigned descriptor.funct3) ∧
      word.extractLsb' 15 5 = BitVec.ofNat 5 values.rs1.val ∧
      word.extractLsb' 20 5 = BitVec.ofNat 5 values.rs2.val ∧
      word.extractLsb' 25 7 = BitVec.ofNat 7 (unsigned descriptor.funct7) := by
  have whole := (descriptor.wordOf_width valid values).1
  have opcode := valid.opcode_length
  have funct3 := valid.funct3_length
  have funct7 := valid.funct7_length
  have layout : descriptor.wordOf values = descriptor.funct7 ++ (values.rs2.bits ++
      (values.rs1.bits ++ (descriptor.funct3 ++ (values.rd.bits ++ descriptor.opcode)))) := by
    simp only [wordOf, fieldsOf, shape, List.append_assoc]
  refine ⟨?_, ?_, ?_, ?_, ?_⟩
  · rw [← values.rd.unsigned_bits]
    apply extract_vector _ (descriptor.funct7 ++ values.rs2.bits ++ values.rs1.bits ++
      descriptor.funct3) _ descriptor.opcode 7 5 _ whole <;> simp [layout, opcode]
  · apply extract_vector _ (descriptor.funct7 ++ values.rs2.bits ++ values.rs1.bits) _
      (values.rd.bits ++ descriptor.opcode) 12 3 _ whole <;> simp [layout, opcode, funct3]
  · rw [← values.rs1.unsigned_bits]
    apply extract_vector _ (descriptor.funct7 ++ values.rs2.bits) _
      (descriptor.funct3 ++ (values.rd.bits ++ descriptor.opcode)) 15 5 _ whole <;>
      simp [layout, opcode, funct3]
  · rw [← values.rs2.unsigned_bits]
    apply extract_vector _ descriptor.funct7 _ (values.rs1.bits ++ (descriptor.funct3 ++
      (values.rd.bits ++ descriptor.opcode))) 20 5 _ whole <;> simp [layout, opcode, funct3]
  · apply extract_vector _ [] _ (values.rs2.bits ++ (values.rs1.bits ++ (descriptor.funct3 ++
      (values.rd.bits ++ descriptor.opcode)))) 25 7 _ whole <;>
      simp [layout, opcode, funct3, funct7]

theorem i_fields (shape : descriptor.format = .i) :
    let word := Word.vector (descriptor.wordOf values)
    word.extractLsb' 7 5 = BitVec.ofNat 5 values.rd.val ∧
      word.extractLsb' 12 3 = BitVec.ofNat 3 (unsigned descriptor.funct3) ∧
      word.extractLsb' 15 5 = BitVec.ofNat 5 values.rs1.val := by
  have whole := (descriptor.wordOf_width valid values).1
  have opcode := valid.opcode_length
  have funct3 := valid.funct3_length
  have layout : descriptor.wordOf values = descriptor.immediateOf values.number ++
      (values.rs1.bits ++ (descriptor.funct3 ++ (values.rd.bits ++ descriptor.opcode))) := by
    simp only [wordOf, fieldsOf, shape, List.append_assoc]
  refine ⟨?_, ?_, ?_⟩
  · rw [← values.rd.unsigned_bits]
    apply extract_vector _ (descriptor.immediateOf values.number ++ values.rs1.bits ++
      descriptor.funct3) _ descriptor.opcode 7 5 _ whole <;> simp [layout, opcode]
  · apply extract_vector _ (descriptor.immediateOf values.number ++ values.rs1.bits) _
      (values.rd.bits ++ descriptor.opcode) 12 3 _ whole <;> simp [layout, opcode, funct3]
  · rw [← values.rs1.unsigned_bits]
    apply extract_vector _ (descriptor.immediateOf values.number) _
      (descriptor.funct3 ++ (values.rd.bits ++ descriptor.opcode)) 15 5 _ whole <;>
      simp [layout, opcode, funct3]

theorem immediateOf_twelve (format : descriptor.format = .i ∨ descriptor.format = .s)
    (whole : descriptor.pattern ≠ .shift) (number : Int) :
    descriptor.immediateOf number = binary 12 (number % 2 ^ 12).toNat := by
  rw [valid.format] at format
  unfold immediateOf
  cases shape : descriptor.pattern <;> simp_all [OperandPattern.format]

theorem immediate_field (format : descriptor.format = .i) (shape : descriptor.pattern ≠ .shift) :
    (Word.vector (descriptor.wordOf values)).extractLsb' 20 12 =
      BitVec.ofInt 12 values.number := by
  have whole := (descriptor.wordOf_width valid values).1
  rw [← residue_vector 12 (by decide)]
  apply extract_vector _ [] _
    (values.rs1.bits ++ (descriptor.funct3 ++ (values.rd.bits ++ descriptor.opcode))) 20 12 _
    whole <;>
    simp [wordOf, fieldsOf, format, descriptor.immediateOf_twelve valid (.inl format) shape,
      valid.opcode_length, valid.funct3_length]

/-- A shift has a part of its function code above the amount. -/
theorem shift_fields (shape : descriptor.pattern = .shift) :
    let word := Word.vector (descriptor.wordOf values)
    word.extractLsb' 26 6 = BitVec.ofNat 6 (unsigned (descriptor.funct7.take 6)) ∧
      word.extractLsb' 20 6 = BitVec.ofInt 6 values.number := by
  have format : descriptor.format = .i := by rw [valid.format, shape]; rfl
  have whole := (descriptor.wordOf_width valid values).1
  constructor
  · apply extract_vector _ [] _ (binary 6 (values.number % 2 ^ 6).toNat ++ (values.rs1.bits ++
      (descriptor.funct3 ++ (values.rd.bits ++ descriptor.opcode)))) 26 6 _ whole <;>
      simp [wordOf, fieldsOf, format, immediateOf, shape, valid.opcode_length,
        valid.funct3_length, valid.funct7_length]
  · rw [← residue_vector 6 (by decide)]
    apply extract_vector _ (descriptor.funct7.take 6) _
      (values.rs1.bits ++ (descriptor.funct3 ++ (values.rd.bits ++ descriptor.opcode))) 20 6 _
      whole <;>
      simp [wordOf, fieldsOf, format, immediateOf, shape, valid.opcode_length,
        valid.funct3_length]

theorem upper_fields (shape : descriptor.pattern = .upper) :
    let word := Word.vector (descriptor.wordOf values)
    word.extractLsb' 7 5 = BitVec.ofNat 5 values.rd.val ∧
      word.extractLsb' 12 20 = BitVec.ofInt 20 values.number := by
  have format : descriptor.format = .u := by rw [valid.format, shape]; rfl
  have whole := (descriptor.wordOf_width valid values).1
  constructor
  · rw [← values.rd.unsigned_bits]
    apply extract_vector _ (descriptor.immediateOf values.number) _ descriptor.opcode 7 5 _
      whole <;>
      simp [wordOf, fieldsOf, format, valid.opcode_length]
  · rw [← residue_vector 20 (by decide)]
    apply extract_vector _ [] _ (values.rd.bits ++ descriptor.opcode) 12 20 _ whole <;>
      simp [wordOf, fieldsOf, format, immediateOf, shape, valid.opcode_length]

theorem s_fields (shape : descriptor.format = .s) :
    let word := Word.vector (descriptor.wordOf values)
    word.extractLsb' 12 3 = BitVec.ofNat 3 (unsigned descriptor.funct3) ∧
      word.extractLsb' 15 5 = BitVec.ofNat 5 values.rs1.val ∧
      word.extractLsb' 20 5 = BitVec.ofNat 5 values.rs2.val := by
  have whole := (descriptor.wordOf_width valid values).1
  have opcode := valid.opcode_length
  have funct3 := valid.funct3_length
  have width := descriptor.immediateOf_length valid values.number
  simp only [shape] at width
  let offset := descriptor.immediateOf values.number
  have layout : descriptor.wordOf values = offset.take 7 ++ (values.rs2.bits ++
      (values.rs1.bits ++ (descriptor.funct3 ++ (offset.drop 7 ++ descriptor.opcode)))) := by
    simp only [wordOf, fieldsOf, shape, List.append_assoc, offset]
  refine ⟨?_, ?_, ?_⟩
  · apply extract_vector _ (offset.take 7 ++ values.rs2.bits ++ values.rs1.bits) _
      (offset.drop 7 ++ descriptor.opcode) 12 3 _ whole <;>
      simp [layout, offset, width, opcode, funct3]
  · rw [← values.rs1.unsigned_bits]
    apply extract_vector _ (offset.take 7 ++ values.rs2.bits) _
      (descriptor.funct3 ++ (offset.drop 7 ++ descriptor.opcode)) 15 5 _ whole <;>
      simp [layout, offset, width, opcode, funct3]
  · rw [← values.rs2.unsigned_bits]
    apply extract_vector _ (offset.take 7) _
      (values.rs1.bits ++ (descriptor.funct3 ++ (offset.drop 7 ++ descriptor.opcode))) 20 5 _
      whole <;>
      simp [layout, offset, width, opcode, funct3]

/-- The offset of a store or a branch is in two pieces, on both sides of the registers. -/
theorem offset_field (format : descriptor.format = .s) :
    let word := Word.vector (descriptor.wordOf values)
    word.extractLsb' 25 7 ++ word.extractLsb' 7 5 = BitVec.ofInt 12 values.number := by
  have whole := (descriptor.wordOf_width valid values).1
  have shape : descriptor.pattern ≠ .shift := by
    intro shift
    rw [valid.format, shift] at format
    cases format
  let offset := binary 12 (values.number % 2 ^ 12).toNat
  have layout : descriptor.wordOf values = offset.take 7 ++ (values.rs2.bits ++
      (values.rs1.bits ++ (descriptor.funct3 ++ (offset.drop 7 ++ descriptor.opcode)))) := by
    simp [wordOf, fieldsOf, format, descriptor.immediateOf_twelve valid (.inr format) shape,
      offset]
  have upper : (Word.vector (descriptor.wordOf values)).extractLsb' 25 7 =
      BitVec.ofNat 7 (unsigned (offset.take 7)) := by
    apply extract_vector _ [] _ _ 25 7 layout whole <;>
      simp [offset, valid.opcode_length, valid.funct3_length]
  have lower : (Word.vector (descriptor.wordOf values)).extractLsb' 7 5 =
      BitVec.ofNat 5 (unsigned (offset.drop 7)) := by
    apply extract_vector _ (offset.take 7 ++ values.rs2.bits ++ values.rs1.bits ++
      descriptor.funct3) _ descriptor.opcode 7 5 _ whole <;>
      simp [layout, offset, valid.opcode_length]
  -- The two pieces were cut from the same string, which is put together again.
  simp only [upper, lower]
  rw [← residue_vector 12 (by decide), ← List.take_append_drop 7 offset]
  exact append_vector (offset.take 7) (offset.drop 7) (by simp [offset])

end Descriptor

end RiscAssembly
