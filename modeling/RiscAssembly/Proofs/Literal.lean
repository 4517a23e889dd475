import RiscAssembly.Isa.Literal
import RiscAssembly.Proofs.BitString

/-!
Numerals as literals. What is written in decimal reads back as the same number, with or
without a sign, so long as it has a 64-bit form. A literal that is accepted has a value,
and its field of a given width is the value modulo two to that width.
-/

namespace RiscAssembly

namespace Text

theorem isDigit_eq (c : Char) : isDigit c = c.isDigit := by
  simp only [isDigit, Char.isDigit, Char.le_def, ge_iff_le]

theorem digit_ten (c : Char) (valid : c.isDigit = true) :
    digit? 10 c = some (c.toNat - '0'.toNat) := by
  have range : '0'.toNat ≤ c.toNat ∧ c.toNat ≤ '9'.toNat := by
    simpa [Char.isDigit, UInt32.le_iff_toNat_le] using valid
  have below : c.toNat - '0'.toNat < 10 := by
    have top : '9'.toNat = '0'.toNat + 9 := rfl
    omega
  simp only [digit?, isDigit_eq, valid, if_true, Option.filter_some, below, decide_true]

theorem digit_ten_isDigit (c : Char) (d : Nat) (digit : digit? 10 c = some d) :
    c.isDigit = true := by
  rw [← isDigit_eq]
  by_cases numeral : isDigit c = true
  · exact numeral
  · rw [digit?, Option.filter_eq_some_iff, if_neg numeral] at digit
    obtain ⟨letter, below⟩ := digit
    have small : d < 10 := by simpa using below
    split at letter
    · cases letter
      omega
    · split at letter
      · cases letter
        omega
      · cases letter

theorem digitsFrom_digits (start : Nat) (digits : Text)
    (valid : ∀ c ∈ digits, c.isDigit = true) :
    digitsFrom? 10 start digits = some (Nat.ofDigitChars 10 digits start) := by
  induction digits generalizing start with
  | nil => simp [digitsFrom?]
  | cons c rest ih =>
      have tail := ih (10 * start + (c.toNat - '0'.toNat))
        (fun d member => valid d (List.mem_cons_of_mem c member))
      rw [digitsFrom?, digit_ten c (valid c List.mem_cons_self), Option.bind_some, tail,
        Nat.ofDigitChars_cons]

theorem digitsFrom_ten (start n : Nat) (digits : Text)
    (read : digitsFrom? 10 start digits = some n) : ∀ c ∈ digits, c.isDigit = true := by
  induction digits generalizing start with
  | nil =>
      intro c member
      cases member
  | cons first rest ih =>
      rw [digitsFrom?, Option.bind_eq_some_iff] at read
      obtain ⟨d, digit, later⟩ := read
      intro c member
      rcases List.mem_cons.mp member with rfl | inRest
      · exact digit_ten_isDigit c d digit
      · exact ih _ later c inRest

theorem natural_ten_iff (digits : Text) (n : Nat) :
    natural? 10 digits = some n ↔
      digits ≠ [] ∧ (∀ c ∈ digits, c.isDigit = true) ∧ n = Nat.ofDigitChars 10 digits 0 := by
  unfold natural?
  constructor
  · intro read
    split at read
    · cases read
    · rename_i some
      have valid := digitsFrom_ten 0 n digits read
      rw [digitsFrom_digits 0 digits valid] at read
      exact ⟨by simpa using some, valid, (Option.some.inj read).symm⟩
  · rintro ⟨some, valid, rfl⟩
    rw [if_neg (by simpa using some), digitsFrom_digits 0 digits valid]

theorem isDigit_of_decimal (n : Nat) (c : Char) (member : c ∈ decimal n) : c.isDigit = true :=
  Nat.isDigit_of_mem_toDigits (by decide) (by decide) member

theorem natural_decimal (n : Nat) : natural? 10 (decimal n) = some n := by
  have digits := digitsFrom_digits 0 (decimal n) (isDigit_of_decimal n)
  rw [natural?, digits, decimal, Nat.ofDigitChars_ten_toDigits]
  simp

/-- A numeral begins with a digit, so neither with a sign nor with the mark of a base. -/
theorem decimal_shape (n : Nat) :
    ∃ first rest, decimal n = first :: rest ∧ first.isDigit = true ∧
      ∀ c ∈ rest, c.isDigit = true := by
  cases shape : decimal n with
  | nil => exact absurd shape Nat.toDigits_ne_nil
  | cons first rest =>
      have digits := isDigit_of_decimal n
      rw [shape] at digits
      exact ⟨first, rest, rfl, digits first List.mem_cons_self,
        fun c member => digits c (List.mem_cons_of_mem first member)⟩

end Text

namespace Literal

open Text BitString

theorem signAndBody_digit (first : Char) (rest : Text) (valid : first.isDigit = true) :
    signAndBody (first :: rest) = (false, first :: rest) := by
  unfold signAndBody
  split
  · rename_i same
    cases same
    simp at valid
  · rename_i same
    cases same
    simp at valid
  · rfl

theorem magnitude_decimal (n : Nat) : magnitude? (decimal n) = some n := by
  have whole := natural_decimal n
  obtain ⟨first, rest, shape, -, digits⟩ := decimal_shape n
  rw [shape] at whole ⊢
  unfold magnitude?
  split
  · rename_i mark same
    cases same
    have letter := digits 'x' List.mem_cons_self
    simp at letter
  · rename_i mark _ same
    cases same
    have letter := digits 'X' List.mem_cons_self
    simp at letter
  · exact whole

theorem value_decimal (n : Nat) (small : n < 2 ^ 64) : value? (decimal n) = some (n : Int) := by
  have magnitude := magnitude_decimal n
  obtain ⟨first, rest, shape, digit, -⟩ := decimal_shape n
  have body : signAndBody (decimal n) = (false, decimal n) := by
    rw [shape]
    exact signAndBody_digit first rest digit
  have fits : n < UInt64.size := small
  simp only [value?, body, magnitude, if_pos fits]
  rfl

theorem value_signedDecimal (d : Int) (least : -2 ^ 63 ≤ d) (most : d < 2 ^ 64) :
    value? (signedDecimal d) = some d := by
  cases d with
  | ofNat n => exact value_decimal n (Int.ofNat_lt.mp most)
  | negSucc n =>
      have magnitude := magnitude_decimal (n + 1)
      have bounded : n + 1 ≤ UInt64.size / 2 := by
        have half : UInt64.size / 2 = 2 ^ 63 := rfl
        omega
      simp only [value?, signedDecimal, signAndBody, magnitude, if_true, if_pos bounded]
      rfl

theorem twosComplement_ok_iff (literal bits : Text) :
    twosComplement literal = .ok bits ↔
      ∃ value, value? literal = some value ∧ bits = binary 64 (value % 2 ^ 64).toNat := by
  cases found : value? literal with
  | none => simp [twosComplement, found]
  | some value => simp [twosComplement, found, eq_comm]

/-- The number that the 64 bits of a literal have. -/
def number (literal : Text) : Except InstructionError Nat :=
  match value? literal with
  | none => .error (.literalFormat literal)
  | some value => .ok (value % 2 ^ 64).toNat

theorem number_ok_iff (literal : Text) (n : Nat) :
    number literal = .ok n ↔ ∃ value, value? literal = some value ∧ n = (value % 2 ^ 64).toNat := by
  cases found : value? literal with
  | none => simp [number, found]
  | some value => simp [number, found, eq_comm]

theorem number_error_iff (literal : Text) (cause : InstructionError) :
    number literal = .error cause ↔ value? literal = none ∧ cause = .literalFormat literal := by
  cases found : value? literal with
  | none => simp [number, found, eq_comm]
  | some value => simp [number, found]

/-- The low bits of a value do not depend on the width it is first cut to. -/
theorem binary_residue (value : Int) (width bound : Nat) (within : width ≤ bound) :
    binary width (value % 2 ^ bound).toNat = binary width (value % 2 ^ width).toNat := by
  have step : (value % 2 ^ width).toNat = (value % 2 ^ bound).toNat % 2 ^ width := by
    have divides : (2 : Int) ^ width ∣ 2 ^ bound := by
      exact_mod_cast Nat.pow_dvd_pow 2 within
    have inner : (0 : Int) ≤ value % 2 ^ bound :=
      Int.emod_nonneg value (Int.ne_of_gt (Int.pow_pos (by decide)))
    rw [← Int.emod_emod_of_dvd value divides, Int.toNat_emod inner (Int.pow_nonneg (by decide))]
    rfl
  rw [step, binary_mod width width _ (Nat.le_refl width)]

theorem field_ok_iff (literal bits : Text) (width : Nat) (positive : 0 < width)
    (narrow : width ≤ 64) :
    field literal width = .ok bits ↔
      ∃ value, value? literal = some value ∧ bits = binary width (value % 2 ^ width).toNat := by
  have cut (value : Int) :
      slice (binary 64 (value % 2 ^ 64).toNat) (width - 1) 0 =
        .ok (binary width (value % 2 ^ width).toNat) := by
    rw [slice_binary 64 _ (width - 1) 0 (Nat.zero_le _) (by omega), Nat.pow_zero, Nat.div_one,
      Nat.sub_zero, Nat.sub_add_cancel positive, binary_residue value width 64 narrow]
  simp only [field, bind_ok_iff, twosComplement_ok_iff, if_neg (Nat.ne_of_gt positive)]
  constructor
  · rintro ⟨whole, ⟨value, found, rfl⟩, sliced⟩
    rw [cut value] at sliced
    cases sliced
    exact ⟨value, found, rfl⟩
  · rintro ⟨value, found, rfl⟩
    exact ⟨_, ⟨value, found, rfl⟩, cut value⟩

end Literal

def IsLiteral (token : Text) : Prop := ∃ number, Literal.value? token = some number

theorem twosComplement_isLiteral (token : Text) :
    (∃ bits, Literal.twosComplement token = .ok bits) ↔ IsLiteral token := by
  simp only [Literal.twosComplement_ok_iff]
  constructor
  · rintro ⟨bits, value, found, -⟩
    exact ⟨value, found⟩
  · rintro ⟨value, found⟩
    exact ⟨_, value, found, rfl⟩

end RiscAssembly
