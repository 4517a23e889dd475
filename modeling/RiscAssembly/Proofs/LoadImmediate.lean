import RiscAssembly.Proofs.Expansion
import RiscAssembly.Proofs.Machine

/-!
Loading a constant. The value is cut into four bits and three times twenty; the register
is cleared, takes the four bits, and then three times makes room for the next twenty and
takes them. Each chunk is at most twenty bits wide and is added without a sign, so that no
chunk disturbs another, and the register ends up with the value whatever it held before.
-/

namespace RiscAssembly

open BitString

section Chunk

variable (rd : Text) (target : Register) (named : Register.ofName? rd = some target)

include named

theorem runs_clear :
    Runs [["addi".toList, rd, "zero".toList, "0".toList]] fun registers =>
      registers.write target 0#64 := by
  have cleared := runs_addImmediate rd "zero".toList "0".toList target .zero 0 named rfl rfl
  simpa [Registers.value_zero] using cleared

theorem runs_addChunk (width n : Nat) (narrow : width ≤ 20) :
    Runs [addChunk rd (binary width n)] fun registers =>
      registers.write target (registers.value target + BitVec.ofNat 64 (n % 2 ^ width)) := by
  have small : n % 2 ^ width < 2 ^ 20 :=
    Nat.lt_of_lt_of_le (Nat.mod_lt _ (Nat.two_pow_pos width))
      (Nat.pow_le_pow_right (by decide) narrow)
  have value := Literal.value_decimal (n % 2 ^ width) (by omega)
  -- The chunk fits into the field, so it is extended by zeros.
  have extended : (BitVec.ofInt 20 (n % 2 ^ width : Nat)).setWidth 64 =
      BitVec.ofNat 64 (n % 2 ^ width) := by
    apply BitVec.eq_of_toNat_eq
    rw [BitVec.ofInt_natCast, BitVec.toNat_setWidth, BitVec.toNat_ofNat, BitVec.toNat_ofNat,
      Nat.mod_eq_of_lt small]
  have added := runs_addUnsigned rd _ target _ named value
  rw [extended] at added
  rwa [addChunk, unsigned_binary width n (by omega)]

theorem runs_shiftIn (writable : target ≠ .zero) (n : Nat) :
    Runs [makeRoom rd, addChunk rd (binary 20 n)] fun registers =>
      registers.write target
        (registers.value target <<< 20 + BitVec.ofNat 64 (n % 2 ^ 20)) := by
  have shifted := runs_shiftLeft rd rd "20".toList target target 20 named rfl named
  have both := runs_append _ _ _ _ shifted (runs_addChunk rd target named 20 n (by decide))
  simpa [makeRoom, writable] using both

end Chunk

theorem shiftIn_ofNat (high low : Nat) :
    BitVec.ofNat 64 high <<< 20 + BitVec.ofNat 64 low = BitVec.ofNat 64 (high * 2 ^ 20 + low) := by
  apply BitVec.eq_of_toNat_eq
  simp only [BitVec.toNat_add, BitVec.toNat_shiftLeft, BitVec.toNat_ofNat, Nat.shiftLeft_eq]
  omega

/-- Four chunks, shifted by twenty from one to the next, make up the number again. -/
theorem chunks_join (n : Nat) :
    ((BitVec.ofNat 64 (n / 2 ^ 60 % 2 ^ 4) <<< 20 + BitVec.ofNat 64 (n / 2 ^ 40 % 2 ^ 20)) <<< 20 +
        BitVec.ofNat 64 (n / 2 ^ 20 % 2 ^ 20)) <<< 20 + BitVec.ofNat 64 (n % 2 ^ 20) =
      BitVec.ofNat 64 n := by
  rw [shiftIn_ofNat, shiftIn_ofNat, shiftIn_ofNat]
  apply BitVec.eq_of_toNat_eq
  rw [BitVec.toNat_ofNat, BitVec.toNat_ofNat]
  omega

theorem expand_loadImmediate (rd literal : Text) (n : Nat) (read : Literal.number literal = .ok n) :
    expand ["li".toList, rd, literal] = .ok (loadChunks rd n) := by
  refine (expand_ok_iff _ _ _).mpr (.inl ⟨⟨"li".toList, 2, 32, .loadImmediate⟩, rfl, rfl, ?_⟩)
  rw [Expansion.apply_load _ (.inr rfl), read]
  rfl

theorem runs_loadChunks (rd : Text) (target : Register)
    (named : Register.ofName? rd = some target) (writable : target ≠ .zero) (n : Nat) :
    Runs (loadChunks rd n) fun registers => registers.write target (BitVec.ofNat 64 n) := by
  have first := runs_append _ _ _ _ (runs_clear rd target named)
    (runs_addChunk rd target named 4 (n / 2 ^ 60) (by decide))
  have second := runs_append _ _ _ _ first
    (runs_shiftIn rd target named writable (n / 2 ^ 40))
  have third := runs_append _ _ _ _ second
    (runs_shiftIn rd target named writable (n / 2 ^ 20))
  have fourth := runs_append _ _ _ _ third (runs_shiftIn rd target named writable n)
  -- Each step overwrites the register that the one before has left.
  simp only [Registers.value_write _ _ _ writable, Registers.write_write, BitVec.zero_add,
    chunks_join] at fourth
  exact fourth

theorem loadImmediate_loads (rd literal bits : Text) (target : Register)
    (named : Register.parse rd = .ok target) (writable : target ≠ .zero)
    (read : Literal.twosComplement literal = .ok bits) :
    ∃ machine words, expand ["li".toList, rd, literal] = .ok machine ∧ machine.length = 8 ∧
      List.Forall₂ (fun tokens word => encode tokens = .ok word) machine words ∧
      (∀ word ∈ words, word.length = 32 ∧ IsBits word) ∧
      ∀ registers, ∃ after, run words registers = some after ∧
        after.value target = BitVec.ofNat 64 (unsigned bits) ∧
        ∀ other, other ≠ target → after.value other = registers.value other := by
  obtain ⟨value, found, rfl⟩ := (Literal.twosComplement_ok_iff literal bits).mp read
  have number := (Literal.number_ok_iff literal _).mpr ⟨value, found, rfl⟩
  obtain ⟨words, encoded, ran⟩ := runs_loadChunks rd target
    ((Register.parse_ok_iff rd target).mp named) writable (value % 2 ^ 64).toNat
  refine ⟨loadChunks rd _, words, expand_loadImmediate rd literal _ number, rfl, encoded,
    encoded_width _ words encoded, ?_⟩
  intro registers
  refine ⟨_, ran registers, ?_, ?_⟩
  · rw [Registers.value_write _ _ _ writable, unsigned_binary 64 _ (by decide)]
    apply BitVec.eq_of_toNat_eq
    rw [BitVec.toNat_ofNat, BitVec.toNat_ofNat, Nat.mod_mod]
  · intro other different
    exact registers.value_write_other target other _ different

/-- The value with all bits set, through the second name of register eight. -/
theorem loadImmediate_loads_minus_one :
    ∃ machine words, expand ["li".toList, "fp".toList, "-1".toList] = .ok machine ∧
      List.Forall₂ (fun tokens word => encode tokens = .ok word) machine words ∧
      ∀ registers, ∃ after, run words registers = some after ∧ after.value 8 = -1 := by
  obtain ⟨machine, words, expanded, -, encoded, -, ran⟩ := loadImmediate_loads "fp".toList
    "-1".toList (List.replicate 64 '1') 8 rfl (by decide) rfl
  refine ⟨machine, words, expanded, encoded, ?_⟩
  intro registers
  obtain ⟨after, final, loaded, -⟩ := ran registers
  exact ⟨after, final, loaded.trans (by decide +kernel)⟩

end RiscAssembly
