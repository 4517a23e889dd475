import RiscAssembly.Proofs.Expansion
import RiscAssembly.Proofs.Machine

/-!
Loading an address. The lower twelve bits are added with their sign, and the upper part is
the address divided by 2^12 to the nearest, which makes up for a negative lower part. Both
together are the address modulo 2^32. The upper part is extended by its own sign before the
lower one is added, so the addresses that are loaded exactly reach 2^11 below the range of
32 bits and end as much before its top.
-/

namespace RiscAssembly

open BitString

theorem upperPart_binary (n : Nat) :
    upperPart (binary 20 (n / 2 ^ 12)) (binary 12 n) = (n + 2 ^ 11) / 2 ^ 12 % 2 ^ 20 := by
  have lower : (binary 12 n).head? = some '1' ↔ 2 ^ 11 ≤ n % 2 ^ 12 := by
    have half := head_one_iff (bit (n.testBit 11)) (binary 11 n) (by simp)
    rw [length_binary] at half
    rw [← unsigned_binary 12 n (by decide)]
    simpa [binary] using half
  rw [upperPart, unsigned_binary 20 _ (by decide)]
  by_cases carry : (binary 12 n).head? = some '1'
  · have reached := lower.mp carry
    rw [if_pos carry]
    omega
  · have short : n % 2 ^ 12 < 2 ^ 11 := Nat.lt_of_not_le fun reached => carry (lower.mpr reached)
    rw [if_neg carry]
    omega

/-- An upper part, and a lower part that is added to it. -/
def loadParts (rd : Text) (upper : Nat) (lower : Int) : List (List Text) :=
  [["lui".toList, rd, Text.decimal upper], ["addi".toList, rd, rd, Text.signedDecimal lower]]

theorem expand_loadAddress (rd literal : Text) (n : Nat)
    (read : Literal.number literal = .ok n) :
    expand ["la".toList, rd, literal] =
      .ok (loadParts rd ((n + 2 ^ 11) / 2 ^ 12 % 2 ^ 20) (Int.bmod n (2 ^ 12))) := by
  refine (expand_ok_iff _ _ _).mpr (.inl ⟨⟨"la".toList, 2, 8, .loadAddress⟩, rfl, rfl, ?_⟩)
  rw [Expansion.apply_load _ (.inl rfl), read, ok_bind, Expansion.loaded, upperPart_binary,
    signed_binary 12 n (by decide)]
  rfl

/-! What the two instructions leave in the register. -/

-- Both parts are far from the limits of 64 bits, so the sum of the vectors is the sum of
-- the numbers.
theorem toInt_upper_add_lower (upper lower : Int) :
    ((BitVec.ofInt 20 upper ++ (0 : BitVec 12)).signExtend 64 +
        (BitVec.ofInt 12 lower).signExtend 64).toInt =
      2 ^ 12 * upper.bmod (2 ^ 20) + lower.bmod (2 ^ 12) := by
  obtain ⟨-, -, upperLeast, upperMost⟩ := bmod_two_pow 20 (by decide) upper
  obtain ⟨-, -, lowerLeast, lowerMost⟩ := bmod_two_pow 12 (by decide) lower
  have none : ((0 : BitVec 12).toNat : Int) = 0 := rfl
  rw [BitVec.toInt_add, BitVec.toInt_signExtend_of_le (by decide),
    BitVec.toInt_signExtend_of_le (by decide), BitVec.toInt_append, BitVec.toInt_ofInt,
    BitVec.toInt_ofInt, if_neg (by decide), none, Int.add_zero]
  apply Int.bmod_eq_of_le <;> omega

theorem runs_loadParts (rd : Text) (target : Register)
    (named : Register.ofName? rd = some target) (writable : target ≠ .zero) (upper : Nat)
    (lower : Int) (upperFits : upper < 2 ^ 64) (least : -2 ^ 63 ≤ lower)
    (most : lower < 2 ^ 64) :
    ∃ value : BitVec 64,
      value.toInt = 2 ^ 12 * Int.bmod upper (2 ^ 20) + lower.bmod (2 ^ 12) ∧
      Runs (loadParts rd upper lower) fun registers => registers.write target value := by
  have first := runs_loadUpper rd _ target _ named (Literal.value_decimal upper upperFits)
  have second := runs_addImmediate rd rd _ target target _ named
    (Literal.value_signedDecimal lower least most) named
  have both := runs_append _ _ _ _ first second
  simp only [Registers.value_write _ _ _ writable, Registers.write_write] at both
  exact ⟨_, toInt_upper_add_lower upper lower, both⟩

theorem joined_window (n : Nat) :
    let joined := 2 ^ 12 * Int.bmod ((n + 2 ^ 11) / 2 ^ 12 % 2 ^ 20 : Nat) (2 ^ 20) +
      Int.bmod n (2 ^ 12)
    let value := Int.bmod n (2 ^ 64)
    joined % 2 ^ 32 = value % 2 ^ 32 ∧
      (joined = value ↔ -2 ^ 31 - 2 ^ 11 ≤ value ∧ value ≤ 2 ^ 31 - 2 ^ 11 - 1) := by
  obtain ⟨carry, upper, upperLeast, upperMost⟩ :=
    bmod_two_pow 20 (by decide) ((n + 2 ^ 11) / 2 ^ 12 % 2 ^ 20 : Nat)
  obtain ⟨rest, lower, lowerLeast, lowerMost⟩ := bmod_two_pow 12 (by decide) n
  obtain ⟨high, whole, least, most⟩ := bmod_two_pow 64 (by decide) n
  -- Only the sizes of the three residues matter from here on, and what they leave of `n`.
  generalize Int.bmod _ (2 ^ 20) = upperPart at *
  generalize Int.bmod _ (2 ^ 12) = lowerPart at *
  generalize Int.bmod _ (2 ^ 64) = value at *
  simp only
  omega

theorem loadAddress_loads (rd literal bits : Text) (target : Register)
    (named : Register.parse rd = .ok target) (writable : target ≠ .zero)
    (read : Literal.twosComplement literal = .ok bits) :
    ∃ machine words, expand ["la".toList, rd, literal] = .ok machine ∧ machine.length = 2 ∧
      List.Forall₂ (fun tokens word => encode tokens = .ok word) machine words ∧
      (∀ word ∈ words, word.length = 32 ∧ IsBits word) ∧
      ∀ registers, ∃ after, run words registers = some after ∧
        (after.value target).toInt % 2 ^ 32 = signed bits % 2 ^ 32 ∧
        ((after.value target).toInt = signed bits ↔
          -2 ^ 31 - 2 ^ 11 ≤ signed bits ∧ signed bits ≤ 2 ^ 31 - 2 ^ 11 - 1) ∧
        ∀ other, other ≠ target → after.value other = registers.value other := by
  obtain ⟨value, found, rfl⟩ := (Literal.twosComplement_ok_iff literal bits).mp read
  have number := (Literal.number_ok_iff literal _).mpr ⟨value, found, rfl⟩
  generalize (value % 2 ^ 64).toNat = n at *
  obtain ⟨-, -, least, most⟩ := bmod_two_pow 12 (by decide) n
  obtain ⟨loaded, sum, words, encoded, ran⟩ := runs_loadParts rd target
    ((Register.parse_ok_iff rd target).mp named) writable ((n + 2 ^ 11) / 2 ^ 12 % 2 ^ 20)
    (Int.bmod n (2 ^ 12)) (by omega) (by omega) (by omega)
  refine ⟨_, words, expand_loadAddress rd literal n number, rfl, encoded,
    encoded_width _ words encoded, ?_⟩
  intro registers
  obtain ⟨congruent, window⟩ := joined_window n
  rw [Int.bmod_bmod] at sum
  rw [← sum, ← signed_binary 64 n (by decide)] at congruent window
  refine ⟨_, ran registers, ?_, ?_, ?_⟩
  · rw [Registers.value_write _ _ _ writable]
    exact congruent
  · rw [Registers.value_write _ _ _ writable]
    exact window
  · intro other different
    exact registers.value_write_other target other _ different

/-- The greatest address that is loaded, and the one behind it. -/
theorem loadAddress_loads_end :
    (∃ machine words, expand ["la".toList, "$5".toList, "0x7FFFF7FF".toList] = .ok machine ∧
      List.Forall₂ (fun tokens word => encode tokens = .ok word) machine words ∧
      ∀ registers, ∃ after, run words registers = some after ∧
        (after.value 5).toInt = 0x7FFFF7FF) ∧
    ∃ machine words, expand ["la".toList, "$5".toList, "0x7FFFF800".toList] = .ok machine ∧
      List.Forall₂ (fun tokens word => encode tokens = .ok word) machine words ∧
      ∀ registers, ∃ after, run words registers = some after ∧
        (after.value 5).toInt ≠ 0x7FFFF800 := by
  have last : signed (binary 64 0x7FFFF7FF) = 0x7FFFF7FF := by decide +kernel
  have beyond : signed (binary 64 0x7FFFF800) = 0x7FFFF800 := by decide +kernel
  constructor
  · obtain ⟨machine, words, expanded, -, encoded, -, ran⟩ := loadAddress_loads "$5".toList
      "0x7FFFF7FF".toList (binary 64 0x7FFFF7FF) 5 rfl (by decide) rfl
    refine ⟨machine, words, expanded, encoded, ?_⟩
    intro registers
    obtain ⟨after, final, -, window, -⟩ := ran registers
    rw [last] at window
    exact ⟨after, final, window.mpr (by decide)⟩
  · obtain ⟨machine, words, expanded, -, encoded, -, ran⟩ := loadAddress_loads "$5".toList
      "0x7FFFF800".toList (binary 64 0x7FFFF800) 5 rfl (by decide) rfl
    refine ⟨machine, words, expanded, encoded, ?_⟩
    intro registers
    obtain ⟨after, final, -, window, -⟩ := ran registers
    rw [beyond] at window
    exact ⟨after, final, fun same => absurd (window.mp same) (by decide)⟩

end RiscAssembly
