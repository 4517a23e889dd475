import RiscAssembly.Isa.BitString
import RiscAssembly.Proofs.Outcome

/-!
Strings of zeros and ones against the numbers they stand for. For such strings a byte is a
character, so that slices are `take` and `drop`. The string of a number in a given width is
`binary`; cutting it divides the number by a power of two, and reading it back gives the
number modulo its width. Of two strings that are read as one, the first is the upper part.
-/

namespace RiscAssembly.BitString

open Text

def IsBits (bits : Text) : Prop := ∀ c ∈ bits, c = '0' ∨ c = '1'

instance (bits : Text) : Decidable (IsBits bits) := List.decidableBAll _ bits

theorem isBits_cons (c : Char) (rest : Text) :
    IsBits (c :: rest) ↔ (c = '0' ∨ c = '1') ∧ IsBits rest := by
  simp [IsBits]

theorem isBits_append (high low : Text) :
    IsBits (high ++ low) ↔ IsBits high ∧ IsBits low := by
  simp only [IsBits, List.mem_append]
  constructor
  · intro both
    exact ⟨fun c member => both c (.inl member), fun c member => both c (.inr member)⟩
  · rintro ⟨upper, lower⟩ c (member | member)
    · exact upper c member
    · exact lower c member

theorem isBits_binary (width n : Nat) : IsBits (binary width n) := by
  induction width with
  | zero => simp [IsBits, binary]
  | succ width ih =>
      rw [binary, isBits_cons]
      refine ⟨?_, ih⟩
      cases n.testBit width <;> simp [bit]

@[simp]
theorem length_binary (width n : Nat) : (binary width n).length = width := by
  induction width with
  | zero => rfl
  | succ width ih => simp [binary, ih]

/-! Slices. -/

theorem utf8Size_bit (c : Char) (isBit : c = '0' ∨ c = '1') : c.utf8Size = 1 := by
  rcases isBit with rfl | rfl <;> rfl

theorem byteLength_bits (bits : Text) (valid : IsBits bits) : byteLength bits = bits.length := by
  induction bits with
  | nil => rfl
  | cons c rest ih =>
      rw [isBits_cons] at valid
      rw [byteLength, utf8Size_bit c valid.1, ih valid.2, List.length_cons, Nat.add_comm]

theorem cutBytes_bits (count : Nat) (bits : Text) (valid : IsBits bits)
    (inside : count ≤ bits.length) :
    cutBytes count bits = some (bits.take count, bits.drop count) := by
  induction bits generalizing count with
  | nil =>
      have none : count = 0 := by simpa using inside
      subst count
      rfl
  | cons c rest ih =>
      cases count with
      | zero => rfl
      | succ count =>
          rw [isBits_cons] at valid
          have tail := ih count valid.2 (by simpa using inside)
          simp [cutBytes, utf8Size_bit c valid.1, tail]

theorem slice_bits (bits : Text) (high low : Nat) (valid : IsBits bits) (ordered : low ≤ high)
    (inside : high < bits.length) :
    slice bits high low = .ok ((bits.drop (bits.length - 1 - high)).take (high - low + 1)) := by
  have upper := cutBytes_bits (bits.length - 1 - high) bits valid (by omega)
  have rest : IsBits (bits.drop (bits.length - 1 - high)) :=
    fun c member => valid c (List.mem_of_mem_drop member)
  have middle := cutBytes_bits (high - low + 1) _ rest (by rw [List.length_drop]; omega)
  simp only [slice, byteLength_bits bits valid]
  rw [if_pos ⟨ordered, inside⟩, upper]
  simp only [middle]

/-! Numbers in a given width. -/

theorem binary_append (high low n : Nat) :
    binary (high + low) n = binary high (n / 2 ^ low) ++ binary low n := by
  induction high with
  | zero => simp [binary]
  | succ high ih =>
      rw [Nat.succ_add]
      simp only [binary, List.cons_append, ih, Nat.testBit_div_two_pow]

theorem binary_mod (width bound n : Nat) (within : width ≤ bound) :
    binary width (n % 2 ^ bound) = binary width n := by
  induction width with
  | zero => rfl
  | succ width ih =>
      have kept : (n % 2 ^ bound).testBit width = n.testBit width := by
        rw [Nat.testBit_mod_two_pow]
        simp [show width < bound by omega]
      rw [binary, binary, kept, ih (by omega)]

theorem slice_binary (width n high low : Nat) (ordered : low ≤ high) (inside : high < width) :
    slice (binary width n) high low = .ok (binary (high - low + 1) (n / 2 ^ low)) := by
  rw [slice_bits _ high low (isBits_binary width n) ordered (by simpa using inside)]
  -- The string is what stands above the slice, the slice, and what stands below it.
  have parts : binary width n =
      binary (width - 1 - high) (n / 2 ^ (high + 1)) ++
        (binary (high - low + 1) (n / 2 ^ low) ++ binary low n) := by
    rw [← binary_append, show high - low + 1 + low = high + 1 by omega, ← binary_append,
      show width - 1 - high + (high + 1) = width by omega]
  rw [length_binary, parts, List.drop_left' (length_binary _ _),
    List.take_left' (length_binary _ _)]

/-! Reading back. -/

/-- As long as nothing overflows, bits follow the value before them like the digits of a
numeral. -/
theorem valueFrom_narrow (start : Nat) (bits : Text)
    (fits : (start + 1) * 2 ^ bits.length ≤ 2 ^ 64) :
    valueFrom start bits = start * 2 ^ bits.length + unsigned bits ∧
      unsigned bits < 2 ^ bits.length := by
  induction bits generalizing start with
  | nil => simp [valueFrom, unsigned]
  | cons c rest ih =>
      have size : UInt64.size = 2 ^ 64 := rfl
      obtain ⟨digit, small, value⟩ : ∃ digit, digit < 2 ∧ (if c = '1' then 1 else 0) = digit := by
        split <;> exact ⟨_, by decide, rfl⟩
      have next : (2 * start + digit + 1) * 2 ^ rest.length ≤ 2 ^ 64 := by
        refine Nat.le_trans (Nat.mul_le_mul_right _ (by omega : _ ≤ (start + 1) * 2)) ?_
        rwa [Nat.mul_assoc, ← Nat.pow_succ']
      have alone : (digit + 1) * 2 ^ rest.length ≤ 2 ^ 64 :=
        Nat.le_trans (Nat.mul_le_mul_right _ (by omega)) next
      have positive := Nat.two_pow_pos rest.length
      -- No remainder is taken, neither after the start nor in front of the bits alone.
      have below : 2 * start + digit < 2 ^ 64 := by
        have := Nat.le_trans (Nat.le_mul_of_pos_right _ positive) next
        omega
      obtain ⟨after, bounded⟩ := ih (2 * start + digit) next
      obtain ⟨first, -⟩ := ih digit alone
      have read : unsigned (c :: rest) = digit * 2 ^ rest.length + unsigned rest := by
        rw [unsigned, valueFrom, value, Nat.mul_zero, Nat.zero_add,
          Nat.mod_eq_of_lt (by rw [size]; omega), first]
      rw [read, valueFrom, value, Nat.mod_eq_of_lt (by rwa [size]), after, List.length_cons,
        Nat.pow_succ']
      constructor
      · rw [Nat.add_mul, Nat.mul_comm 2 start, Nat.mul_assoc, Nat.add_assoc]
      · have := Nat.mul_le_mul_right (2 ^ rest.length) (show digit ≤ 1 by omega)
        omega

theorem unsigned_lt (bits : Text) (narrow : bits.length ≤ 64) :
    unsigned bits < 2 ^ bits.length :=
  (valueFrom_narrow 0 bits (by simpa using Nat.pow_le_pow_right (by decide) narrow)).2

theorem valueFrom_append (start : Nat) (high low : Text) :
    valueFrom start (high ++ low) = valueFrom (valueFrom start high) low := by
  induction high generalizing start with
  | nil => rfl
  | cons c rest ih => exact ih _

theorem unsigned_append (high low : Text) (narrow : high.length + low.length ≤ 64) :
    unsigned (high ++ low) = unsigned high * 2 ^ low.length + unsigned low := by
  have upper : unsigned high + 1 ≤ 2 ^ high.length := unsigned_lt high (by omega)
  have fits : (unsigned high + 1) * 2 ^ low.length ≤ 2 ^ 64 :=
    calc (unsigned high + 1) * 2 ^ low.length
        ≤ 2 ^ high.length * 2 ^ low.length := Nat.mul_le_mul_right _ upper
      _ = 2 ^ (high.length + low.length) := (Nat.pow_add 2 _ _).symm
      _ ≤ 2 ^ 64 := Nat.pow_le_pow_right (by decide) narrow
  rw [unsigned, valueFrom_append]
  exact (valueFrom_narrow (unsigned high) low fits).1

theorem unsigned_binary (width n : Nat) (narrow : width ≤ 64) :
    unsigned (binary width n) = n % 2 ^ width := by
  induction width with
  | zero => simp [binary, unsigned, valueFrom, Nat.mod_one]
  | succ width ih =>
      have digit : unsigned [bit (n.testBit width)] = n / 2 ^ width % 2 := by
        rw [← Nat.toNat_testBit]
        cases n.testBit width <;> rfl
      rw [binary, ← List.singleton_append, unsigned_append _ _ (by simp; omega), digit,
        ih (by omega), length_binary, Nat.pow_succ, Nat.mod_mul, Nat.mul_comm (2 ^ width),
        Nat.add_comm]

theorem unsigned_cons (c : Char) (rest : Text) (narrow : rest.length < 64) :
    unsigned (c :: rest) = (if c = '1' then 1 else 0) * 2 ^ rest.length + unsigned rest := by
  have digit : unsigned [c] = if c = '1' then 1 else 0 := by
    by_cases one : c = '1' <;> simp [unsigned, valueFrom, one]
  rw [← List.singleton_append, unsigned_append _ _ (by simp; omega), digit]

theorem binary_unsigned (bits : Text) (valid : IsBits bits) (narrow : bits.length ≤ 64) :
    binary bits.length (unsigned bits) = bits := by
  induction bits with
  | nil => rfl
  | cons c rest ih =>
      rw [isBits_cons] at valid
      rw [List.length_cons] at narrow
      have below := unsigned_lt rest (by omega)
      have tail := ih valid.2 (by omega)
      have value := unsigned_cons c rest (by omega)
      have low : unsigned (c :: rest) % 2 ^ rest.length = unsigned rest := by
        rw [value, Nat.mul_add_mod_self_right, Nat.mod_eq_of_lt below]
      have high : unsigned (c :: rest) / 2 ^ rest.length = if c = '1' then 1 else 0 := by
        rw [value, Nat.add_comm, Nat.add_mul_div_right _ _ (Nat.two_pow_pos _),
          Nat.div_eq_of_lt below, Nat.zero_add]
      rw [List.length_cons, Nat.add_comm, binary_append, high,
        ← binary_mod _ _ _ (Nat.le_refl rest.length), low, tail]
      rcases valid.1 with rfl | rfl <;> rfl

/-- The residue of an integer has the bits of its two's complement. -/
theorem ofNat_residue (width : Nat) (number : Int) :
    BitVec.ofNat width (number % 2 ^ width).toNat = BitVec.ofInt width number := by
  have positive : (0 : Int) < 2 ^ width := Int.pow_pos (by decide)
  have lower := Int.emod_nonneg number (Int.ne_of_gt positive)
  have upper := Int.emod_lt_of_pos number positive
  apply BitVec.eq_of_toNat_eq
  rw [BitVec.toNat_ofNat, BitVec.toNat_ofInt,
    Nat.mod_eq_of_lt ((Int.toNat_lt lower).mpr (by simpa using upper))]
  simp

/-! Signs. -/

/-- The sign is the first bit: it is what makes the number reach half of its range. -/
theorem head_one_iff (c : Char) (rest : Text) (narrow : rest.length < 64) :
    c = '1' ↔ 2 ^ rest.length ≤ unsigned (c :: rest) := by
  have lower := unsigned_lt rest (by omega)
  rw [unsigned_cons c rest narrow]
  by_cases one : c = '1'
  · simp [one]
  · simp [one, lower]

theorem signed_bits (bits : Text) (valid : IsBits bits) (narrow : bits.length ≤ 64) :
    signed bits = Int.bmod (unsigned bits) (2 ^ bits.length) := by
  cases bits with
  | nil => rfl
  | cons c rest =>
      have length : (c :: rest).length = rest.length + 1 := rfl
      have below := unsigned_lt (c :: rest) narrow
      have half := head_one_iff c rest (by omega)
      have power : 2 ^ (rest.length + 1) = 2 * 2 ^ rest.length := Nat.pow_succ'
      rw [length] at below narrow
      -- Both tests of the sign ask whether the number is in the upper half.
      have sign : (if rest.length + 1 < 64 then decide ((c :: rest).head? = some '1')
          else decide (UInt64.size / 2 ≤ unsigned (c :: rest))) =
            decide (2 ^ rest.length ≤ unsigned (c :: rest)) := by
        by_cases short : rest.length + 1 < 64
        · simp only [if_pos short, List.head?_cons, Option.some.injEq, half]
        · have full : rest.length = 63 := by omega
          rw [if_neg short, full]
          rfl
      have remainder : (unsigned (c :: rest) : Int) % (2 ^ (rest.length + 1) : Nat) =
          unsigned (c :: rest) := by
        exact_mod_cast Nat.mod_eq_of_lt below
      simp only [signed, byteLength_bits _ valid, length, Nat.min_eq_left narrow, sign,
        Int.bmod_def, remainder, decide_eq_true_eq, Nat.one_shiftLeft]
      by_cases upper : 2 ^ rest.length ≤ unsigned (c :: rest)
      · rw [if_pos upper, if_neg (by omega)]
      · rw [if_neg upper, if_pos (by omega)]

theorem signed_binary (width n : Nat) (narrow : width ≤ 64) :
    signed (binary width n) = Int.bmod n (2 ^ width) := by
  rw [signed_bits _ (isBits_binary width n) (by simpa using narrow), length_binary,
    unsigned_binary width n narrow, Int.natCast_emod, Int.emod_bmod]

/-- The residue nearest to zero, by what characterises it. -/
theorem bmod_two_pow (width : Nat) (positive : 0 < width) (number : Int) :
    ∃ quotient, number = number.bmod (2 ^ width) + 2 ^ width * quotient ∧
      -2 ^ width ≤ 2 * number.bmod (2 ^ width) ∧ 2 * number.bmod (2 ^ width) < 2 ^ width := by
  have power : ((2 ^ width : Nat) : Int) = 2 ^ width := Int.natCast_pow 2 width
  have even : (2 : Int) ∣ 2 ^ width :=
    ⟨2 ^ (width - 1), by rw [← Int.pow_succ', Nat.sub_add_cancel positive]⟩
  have least := Int.le_bmod (x := number) (Nat.two_pow_pos width)
  have most := Int.bmod_lt (x := number) (Nat.two_pow_pos width)
  have whole := Int.bmod_add_bdiv number (2 ^ width)
  rw [power] at least most whole
  exact ⟨_, whole.symm, by omega, by omega⟩

end RiscAssembly.BitString
