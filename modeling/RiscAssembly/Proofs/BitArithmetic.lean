import Mathlib.Data.List.Induction
import Mathlib.Data.Nat.Digits.Defs
import RiscAssembly.Proofs.BitString

/-!
The operations on bit strings as arithmetic. A string stands for the number whose binary
digits it has, and as a signed number it stands for the same with its first bit counted
negatively. A slice is a quotient and a remainder, neighbouring slices join, zeros in front
keep the number and copies of the first bit keep the signed one. An extension is refused only
if the string is longer than the width that is asked for.
-/

namespace RiscAssembly

namespace BitString

/-- The number of any size that has these binary digits, the last of them counting units. -/
def binaryValue (bits : Text) : Nat :=
  Nat.ofDigits 2 (bits.reverse.map fun c => if c = '1' then 1 else 0)

/-- The bit that is repeated in front where the sign is to be kept. -/
def signBit (bits : Text) : Char := bits.head?.getD '0'

/-! The binary value. -/

theorem binaryValue_concat (front : Text) (c : Char) :
    binaryValue (front ++ [c]) = 2 * binaryValue front + if c = '1' then 1 else 0 := by
  simp [binaryValue, Nat.ofDigits_cons, Nat.add_comm]

theorem unsigned_concat (front : Text) (c : Char) :
    unsigned (front ++ [c]) = (2 * unsigned front + if c = '1' then 1 else 0) % 2 ^ 64 := by
  rw [unsigned, valueFrom_append]
  rfl

/-- Of a string of any length the low 64 bits are read. -/
theorem unsigned_binaryValue (text : Text) : unsigned text = binaryValue text % 2 ^ 64 := by
  -- One bit more at the end doubles the number, so the induction takes the last bit off.
  induction text using List.reverseRecOn with
  | nil => rfl
  | append_singleton front c ih =>
      rw [unsigned_concat, binaryValue_concat, ih]
      omega

theorem binaryValue_lt (text : Text) : binaryValue text < 2 ^ text.length := by
  have digits : ∀ digit ∈ text.reverse.map (fun c => if c = '1' then 1 else 0), digit < 2 := by
    intro digit member
    obtain ⟨c, -, rfl⟩ := List.mem_map.mp member
    split <;> decide
  have bound := Nat.ofDigits_lt_base_pow_length (by decide) digits
  rwa [List.length_map, List.length_reverse] at bound

theorem unsigned_narrow (text : Text) (narrow : text.length ≤ 64) :
    unsigned text = binaryValue text := by
  rw [unsigned_binaryValue]
  exact Nat.mod_eq_of_lt
    (Nat.lt_of_lt_of_le (binaryValue_lt text) (Nat.pow_le_pow_right (by decide) narrow))

/-! Slices. -/

section Slices

variable {bits : Text} (valid : IsBits bits) (narrow : bits.length ≤ 64)

include valid narrow

theorem slice_quotient (high low : Nat) (ordered : low ≤ high) (inside : high < bits.length) :
    slice bits high low = .ok (binary (high - low + 1) (unsigned bits / 2 ^ low)) := by
  have cut := slice_binary bits.length (unsigned bits) high low ordered inside
  rwa [binary_unsigned bits valid narrow] at cut

theorem slice_value (high low : Nat) (ordered : low ≤ high) (inside : high < bits.length) :
    ∃ part, slice bits high low = .ok part ∧ IsBits part ∧ part.length = high - low + 1 ∧
      unsigned part = unsigned bits / 2 ^ low % 2 ^ (high - low + 1) :=
  ⟨_, slice_quotient valid narrow high low ordered inside, isBits_binary _ _, length_binary _ _,
    unsigned_binary _ _ (by omega)⟩

theorem slice_join (high middle low : Nat) (ordered : low ≤ middle) (above : middle < high)
    (inside : high < bits.length) :
    ∃ upper lower, slice bits high (middle + 1) = .ok upper ∧ slice bits middle low = .ok lower ∧
      slice bits high low = .ok (upper ++ lower) := by
  refine ⟨_, _, slice_quotient valid narrow high (middle + 1) above inside,
    slice_quotient valid narrow middle low ordered (by omega), ?_⟩
  -- The upper slice is also one of what is left when the bits below `low` are dropped.
  have quotient : unsigned bits / 2 ^ (middle + 1) =
      unsigned bits / 2 ^ low / 2 ^ (middle - low + 1) := by
    rw [Nat.div_div_eq_div_mul, ← Nat.pow_add,
      show low + (middle - low + 1) = middle + 1 by omega]
  rw [slice_quotient valid narrow high low (by omega) inside, quotient, ← binary_append,
    show high - (middle + 1) + 1 + (middle - low + 1) = high - low + 1 by omega]

end Slices

/-! Signed numbers. -/

/-- The first bit counts negatively. -/
theorem signed_cons (c : Char) (rest : Text) (valid : IsBits (c :: rest))
    (narrow : rest.length < 64) :
    signed (c :: rest) = unsigned rest - (if c = '1' then 1 else 0) * 2 ^ rest.length := by
  have below : (unsigned rest : Int) < 2 ^ rest.length := by
    exact_mod_cast unsigned_lt rest (by omega)
  have power : ((2 ^ (rest.length + 1) : Nat) : Int) = 2 * 2 ^ rest.length := by
    rw [Nat.pow_succ']
    simp
  have whole : (unsigned (c :: rest) : Int) =
      (if c = '1' then 1 else 0) * 2 ^ rest.length + unsigned rest := by
    rw [unsigned_cons c rest narrow]
    push_cast
    rfl
  rw [signed_bits _ valid narrow, List.length_cons, Int.bmod_eq_iff (Nat.two_pow_pos _), power,
    whole]
  split
  · exact ⟨by omega, by omega, -1, by omega⟩
  · exact ⟨by omega, by omega, 0, by omega⟩

section Signs

variable {bits : Text} (valid : IsBits bits)

include valid

theorem signed_residue (narrow : bits.length ≤ 64) :
    signed bits % 2 ^ bits.length = unsigned bits % 2 ^ bits.length := by
  rw [signed_bits bits valid narrow]
  have residue := Int.bmod_emod (x := unsigned bits) (m := 2 ^ bits.length)
  rwa [Int.natCast_pow] at residue

theorem signed_range (narrow : bits.length ≤ 64) (positive : 1 ≤ bits.length) :
    -2 ^ (bits.length - 1) ≤ signed bits ∧ signed bits < 2 ^ (bits.length - 1) := by
  cases bits with
  | nil => cases positive
  | cons c rest =>
      have below : (unsigned rest : Int) < 2 ^ rest.length := by
        exact_mod_cast unsigned_lt rest (Nat.le_of_succ_le narrow)
      rw [signed_cons c rest valid narrow, List.length_cons, Nat.add_sub_cancel]
      split <;> omega

theorem signBit_isBit : signBit bits = '0' ∨ signBit bits = '1' := by
  cases bits with
  | nil => exact .inl rfl
  | cons c rest => exact valid c List.mem_cons_self

/-- A copy of the first bit counts negatively twice what the bit then counts positively. -/
theorem signed_signBit (narrow : bits.length < 64) :
    signed (signBit bits :: bits) = signed bits := by
  cases bits with
  | nil => rfl
  | cons c rest =>
      have doubled : IsBits (c :: c :: rest) :=
        (isBits_cons c (c :: rest)).mpr ⟨valid c List.mem_cons_self, valid⟩
      have shorter : rest.length < 64 := Nat.lt_of_succ_lt narrow
      change signed (c :: c :: rest) = signed (c :: rest)
      rw [signed_cons c (c :: rest) doubled narrow, signed_cons c rest valid shorter,
        unsigned_cons c rest shorter, List.length_cons, Int.pow_succ']
      split <;> push_cast <;> omega

end Signs

/-! Extensions. -/

theorem isBits_replicate_append (count : Nat) (fill : Char) (bits : Text) (valid : IsBits bits)
    (isBit : fill = '0' ∨ fill = '1') : IsBits (List.replicate count fill ++ bits) := by
  rw [isBits_append]
  refine ⟨?_, valid⟩
  intro c member
  rwa [List.eq_of_mem_replicate member]

theorem unsigned_replicate_zero (count : Nat) (bits : Text) :
    unsigned (List.replicate count '0' ++ bits) = unsigned bits := by
  induction count with
  | zero => rfl
  | succ count ih => exact ih

theorem signBit_replicate (count : Nat) (bits : Text) :
    signBit (List.replicate count (signBit bits) ++ bits) = signBit bits := by
  cases count <;> rfl

theorem signed_replicate_signBit (count : Nat) (bits : Text) (valid : IsBits bits)
    (narrow : count + bits.length ≤ 64) :
    signed (List.replicate count (signBit bits) ++ bits) = signed bits := by
  induction count with
  | zero => rfl
  | succ count ih =>
      have copies := isBits_replicate_append count (signBit bits) bits valid (signBit_isBit valid)
      have step := signed_signBit copies (by simp; omega)
      rw [signBit_replicate] at step
      rw [List.replicate_succ, List.cons_append, step, ih (by omega)]

section Extensions

variable {bits : Text} (valid : IsBits bits)

include valid

theorem extend_eq (fill : Char) (width : Nat) (fits : bits.length ≤ width) :
    extend fill bits width = .ok (List.replicate (width - bits.length) fill ++ bits) := by
  rw [extend, byteLength_bits bits valid, if_pos fits]

theorem extend_error_iff (fill : Char) (width : Nat) (cause : InstructionError) :
    extend fill bits width = .error cause ↔
      width < bits.length ∧ cause = .tooWide bits width := by
  rw [extend, byteLength_bits bits valid]
  by_cases fits : bits.length ≤ width
  · simp [fits]
  · simp [fits, eq_comm, Nat.lt_of_not_le fits]

theorem zeroExtend_value (width : Nat) (fits : bits.length ≤ width) :
    ∃ wide, zeroExtend bits width = .ok wide ∧ IsBits wide ∧ wide.length = width ∧
      unsigned wide = unsigned bits :=
  ⟨_, extend_eq valid '0' width fits, isBits_replicate_append _ '0' bits valid (.inl rfl),
    by simp [fits], unsigned_replicate_zero _ bits⟩

theorem signExtend_value (width : Nat) (fits : bits.length ≤ width) (narrow : width ≤ 64) :
    ∃ wide, signExtend bits width = .ok wide ∧ IsBits wide ∧ wide.length = width ∧
      signed wide = signed bits :=
  ⟨_, extend_eq valid (signBit bits) width fits,
    isBits_replicate_append _ _ bits valid (signBit_isBit valid), by simp [fits],
    signed_replicate_signBit _ bits valid (by omega)⟩

end Extensions

end BitString

open BitString

/-- The operations on bit strings are those on the numbers that the strings stand for. -/
theorem bitString_arithmetic :
    (∀ text, unsigned text = binaryValue text % 2 ^ 64) ∧
    (∀ bits, IsBits bits → ∀ width cause,
      (zeroExtend bits width = .error cause ↔
        width < bits.length ∧ cause = .tooWide bits width) ∧
      (signExtend bits width = .error cause ↔
        width < bits.length ∧ cause = .tooWide bits width)) ∧
    ∀ bits, IsBits bits → bits.length ≤ 64 →
      (∀ high low, low ≤ high → high < bits.length →
        ∃ part, slice bits high low = .ok part ∧ IsBits part ∧ part.length = high - low + 1 ∧
          unsigned part = unsigned bits / 2 ^ low % 2 ^ (high - low + 1)) ∧
      (∀ high middle low, low ≤ middle → middle < high → high < bits.length →
        ∃ upper lower, slice bits high (middle + 1) = .ok upper ∧
          slice bits middle low = .ok lower ∧ slice bits high low = .ok (upper ++ lower)) ∧
      (∀ width, bits.length ≤ width → width ≤ 64 →
        (∃ wide, zeroExtend bits width = .ok wide ∧ IsBits wide ∧ wide.length = width ∧
          unsigned wide = unsigned bits) ∧
        ∃ wide, signExtend bits width = .ok wide ∧ IsBits wide ∧ wide.length = width ∧
          signed wide = signed bits) ∧
      signed bits % 2 ^ bits.length = unsigned bits % 2 ^ bits.length ∧
      (1 ≤ bits.length →
        -2 ^ (bits.length - 1) ≤ signed bits ∧ signed bits < 2 ^ (bits.length - 1)) := by
  refine ⟨unsigned_binaryValue, ?_, ?_⟩
  · intro bits valid width cause
    exact ⟨extend_error_iff valid '0' width cause,
      extend_error_iff valid (signBit bits) width cause⟩
  · intro bits valid narrow
    refine ⟨slice_value valid narrow, slice_join valid narrow, ?_, signed_residue valid narrow,
      signed_range valid narrow⟩
    intro width fits within
    exact ⟨zeroExtend_value valid width fits, signExtend_value valid width fits within⟩

/-- A negative number cut and extended, the empty string extended, and a width too small. -/
theorem bitString_arithmetic_negative :
    let bits := "1010".toList
    (∃ part, slice bits 2 1 = .ok part ∧ unsigned part = 1) ∧
    (∃ upper lower, slice bits 3 2 = .ok upper ∧ slice bits 1 0 = .ok lower ∧
      slice bits 3 0 = .ok (upper ++ lower)) ∧
    (∃ wide, zeroExtend bits 64 = .ok wide ∧ wide.length = 64 ∧ unsigned wide = 10) ∧
    (∃ wide, signExtend bits 64 = .ok wide ∧ wide.length = 64 ∧ signed wide = -6) ∧
    (∃ wide, signExtend [] 64 = .ok wide ∧ wide.length = 64 ∧ signed wide = 0) ∧
    signExtend bits 3 = .error (.tooWide bits 3) ∧
    -8 ≤ signed bits ∧ signed bits < 8 := by
  intro bits
  obtain ⟨-, refused, arithmetic⟩ := bitString_arithmetic
  have valid : IsBits bits := by decide
  obtain ⟨cut, join, extended, -, range⟩ := arithmetic bits valid (by decide)
  obtain ⟨-, -, empty, -, -⟩ := arithmetic [] (by decide) (by decide)
  obtain ⟨part, sliced, -, -, value⟩ := cut 2 1 (by decide) (by decide)
  obtain ⟨⟨zeros, zeroExtended, -, zerosLength, unsignedKept⟩,
    signs, signExtended, -, signsLength, signedKept⟩ := extended 64 (by decide) (by decide)
  obtain ⟨-, blank, blankExtended, -, blankLength, blankKept⟩ := empty 64 (by decide) (by decide)
  exact ⟨⟨part, sliced, value.trans (by decide +zetaReduce)⟩,
    join 3 1 0 (by decide) (by decide) (by decide),
    ⟨zeros, zeroExtended, zerosLength, unsignedKept⟩,
    ⟨signs, signExtended, signsLength, signedKept⟩,
    ⟨blank, blankExtended, blankLength, blankKept⟩,
    ((refused bits valid 3 _).2).mpr ⟨by decide, rfl⟩, range (by decide)⟩

end RiscAssembly
