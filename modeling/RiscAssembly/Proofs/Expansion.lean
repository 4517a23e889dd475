import RiscAssembly.Isa.Pseudo
import RiscAssembly.Proofs.Literal

/-!
Expansions and the sizes that are declared for them. How many machine instructions an
expansion has depends on its kind alone, and the table declares four bytes for each of
them; so the size that a mnemonic announces is the size of what it expands to, whatever its
operands are.
-/

namespace RiscAssembly

open BitString

/-! Loads. -/

/-- Four chunks of a number, each added behind what is there already. -/
def loadChunks (rd : Text) (n : Nat) : List (List Text) :=
  [["addi".toList, rd, "zero".toList, "0".toList]] ++ [addChunk rd (binary 4 (n / 2 ^ 60))] ++
    [makeRoom rd, addChunk rd (binary 20 (n / 2 ^ 40))] ++
    [makeRoom rd, addChunk rd (binary 20 (n / 2 ^ 20))] ++
    [makeRoom rd, addChunk rd (binary 20 n)]

namespace Expansion

/-- The instructions that an expansion loads a number with. -/
def loaded (rd : Text) (n : Nat) : Expansion → List (List Text)
  | .template _ => []
  | .loadAddress =>
      [["lui".toList, rd, Text.decimal (upperPart (binary 20 (n / 2 ^ 12)) (binary 12 n))],
        ["addi".toList, rd, rd, Text.signedDecimal (signed (binary 12 n))]]
  | .loadImmediate => loadChunks rd n

/-- Once the literal is read, nothing fails: all slices are inside of 64 bits. -/
theorem apply_load (expansion : Expansion)
    (load : expansion = .loadAddress ∨ expansion = .loadImmediate) (rd literal : Text) :
    expansion.apply [rd, literal] = do
      let n ← Literal.number literal
      return expansion.loaded rd n := by
  cases found : Literal.value? literal with
  | none =>
      rw [(Literal.number_error_iff literal _).mpr ⟨found, rfl⟩]
      rcases load with rfl | rfl
      · simp only [apply, RiscAssembly.loadAddress, Literal.twosComplement, found]
        rfl
      · simp only [apply, RiscAssembly.loadImmediate, Literal.twosComplement, found]
        rfl
  | some value =>
      have read := (Literal.twosComplement_ok_iff literal _).mpr ⟨value, found, rfl⟩
      rw [(Literal.number_ok_iff literal _).mpr ⟨value, found, rfl⟩]
      generalize (value % 2 ^ 64).toNat = n at read ⊢
      rcases load with rfl | rfl
      · have lower := slice_binary 64 n 11 0 (by decide) (by decide)
        have upper := slice_binary 64 n 31 12 (by decide) (by decide)
        rw [Nat.pow_zero, Nat.div_one] at lower
        rw [apply, RiscAssembly.loadAddress, read, ok_bind, lower, ok_bind, upper]
        rfl
      · have chunk3 := slice_binary 64 n 63 60 (by decide) (by decide)
        have chunk2 := slice_binary 64 n 59 40 (by decide) (by decide)
        have chunk1 := slice_binary 64 n 39 20 (by decide) (by decide)
        have chunk0 := slice_binary 64 n 19 0 (by decide) (by decide)
        rw [Nat.pow_zero, Nat.div_one] at chunk0
        rw [apply, RiscAssembly.loadImmediate, read, ok_bind, chunk3, ok_bind, chunk2, ok_bind,
          chunk1, ok_bind, chunk0]
        rfl

theorem load_ok (expansion : Expansion)
    (load : expansion = .loadAddress ∨ expansion = .loadImmediate) (operands : List Text)
    (machine : List (List Text)) (applied : expansion.apply operands = .ok machine) :
    ∃ rd literal n, operands = [rd, literal] ∧ Literal.number literal = .ok n ∧
      machine = expansion.loaded rd n := by
  have pair : ∃ rd literal, operands = [rd, literal] := by
    unfold apply at applied
    split at applied <;> simp_all
  obtain ⟨rd, literal, rfl⟩ := pair
  rw [expansion.apply_load load, bind_ok_iff] at applied
  obtain ⟨n, read, same⟩ := applied
  cases same
  exact ⟨rd, literal, n, rfl, read, rfl⟩

/-- The number of machine instructions of an expansion. -/
def count : Expansion → Nat
  | .template _ => 1
  | .loadAddress => 2
  | .loadImmediate => 8

theorem apply_length (expansion : Expansion) (operands : List Text) (machine : List (List Text))
    (applied : expansion.apply operands = .ok machine) : machine.length = expansion.count := by
  cases expansion with
  | template slots =>
      simp only [apply, bind_ok_iff, pure_ok_iff] at applied
      obtain ⟨tokens, -, rfl⟩ := applied
      rfl
  | loadAddress =>
      obtain ⟨rd, literal, n, -, -, rfl⟩ := load_ok _ (.inl rfl) operands machine applied
      rfl
  | loadImmediate =>
      obtain ⟨rd, literal, n, -, -, rfl⟩ := load_ok _ (.inr rfl) operands machine applied
      rfl

end Expansion

theorem fillAll_ok_iff (operands : List Text) (slots : List Slot) (tokens : List Text) :
    slots.mapM (Slot.fill operands) = .ok tokens ↔
      slots.map (Slot.fill operands) = tokens.map .ok := by
  induction slots generalizing tokens with
  | nil => cases tokens <;> simp [pure, Except.pure]
  | cons slot rest ih =>
      simp only [List.mapM_cons, bind_ok_iff, pure_ok_iff, ih, List.map_cons]
      constructor
      · rintro ⟨token, filled, tail, later, rfl⟩
        rw [List.map_cons, filled, later]
      · intro filled
        cases tokens with
        | nil => cases filled
        | cons token tail =>
            simp only [List.map_cons, List.cons.injEq] at filled
            exact ⟨token, filled.1, tail, filled.2, rfl⟩

namespace Pseudo

theorem size_declared (pseudo : Pseudo) (member : pseudo ∈ all) :
    pseudo.expansion.count * 4 = pseudo.size := by
  have table : ∀ p ∈ all, p.expansion.count * 4 = p.size := by decide
  exact table pseudo member

/-- An expansion never fails for its size: only the number of operands and the operands
themselves decide. -/
theorem expand_ok_iff (pseudo : Pseudo) (member : pseudo ∈ all) (operands : List Text)
    (machine : List (List Text)) :
    pseudo.expand operands = .ok machine ↔
      operands.length = pseudo.arity ∧ pseudo.expansion.apply operands = .ok machine := by
  by_cases counted : operands.length = pseudo.arity
  · simp only [Pseudo.expand, if_pos counted, bind_ok_iff]
    constructor
    · rintro ⟨instructions, applied, checked⟩
      split at checked
      · cases checked
        exact ⟨counted, applied⟩
      · cases checked
    · rintro ⟨-, applied⟩
      have size : machine.length * 4 = pseudo.size := by
        rw [pseudo.expansion.apply_length operands machine applied, pseudo.size_declared member]
      exact ⟨machine, applied, if_pos size⟩
  · simp [Pseudo.expand, counted]

end Pseudo

theorem expand_ok_iff (mnemonic : Text) (operands : List Text) (machine : List (List Text)) :
    expand (mnemonic :: operands) = .ok machine ↔
      (∃ pseudo, Pseudo.find? mnemonic = some pseudo ∧ operands.length = pseudo.arity ∧
        pseudo.expansion.apply operands = .ok machine) ∨
      (Pseudo.find? mnemonic = none ∧ (Catalogue.find? mnemonic).isSome = true ∧
        machine = [mnemonic :: operands]) := by
  cases found : Pseudo.find? mnemonic with
  | some pseudo =>
      have member := List.mem_of_find?_eq_some found
      simp [expand, found, pseudo.expand_ok_iff member]
  | none =>
      cases listed : Catalogue.find? mnemonic <;> simp [expand, found, listed, eq_comm]

theorem expand_length (mnemonic : Text) (operands : List Text) (machine : List (List Text))
    (expanded : expand (mnemonic :: operands) = .ok machine) :
    4 * machine.length = byteSize mnemonic := by
  rcases (expand_ok_iff mnemonic operands machine).mp expanded with
    ⟨pseudo, found, -, applied⟩ | ⟨found, -, rfl⟩
  · have size := pseudo.size_declared (List.mem_of_find?_eq_some found)
    have length := pseudo.expansion.apply_length operands machine applied
    simp only [byteSize, found]
    omega
  · simp [byteSize, found]

theorem byteSize_words (mnemonic : Text) :
    0 < byteSize mnemonic ∧ byteSize mnemonic % 4 = 0 := by
  have table : ∀ p ∈ Pseudo.all, 0 < p.size ∧ p.size % 4 = 0 := by decide
  cases found : Pseudo.find? mnemonic with
  | some pseudo =>
      simpa [byteSize, found] using table pseudo (List.mem_of_find?_eq_some found)
  | none => simp [byteSize, found]

end RiscAssembly
