import Mathlib.Data.List.Forall2
import Mathlib.Data.Nat.Digits.Defs
import RiscAssembly.Proofs.BitArithmetic
import RiscAssembly.Proofs.Literal

/-!
The grammar of integer literals. A literal is a sign or none, the mark of a base or none, and
digits of that base, of which the last counts units. What it denotes has no bound; literals
are accepted exactly if it lies between -2^63 and 2^64 - 1, and then stand for the 64 bits of
its two's complement. So what is printed in decimal is read back, and a field of a literal
has the value of the literal modulo two to the width of the field.
-/

namespace RiscAssembly

open Text BitString

/-- At each value the characters that may be written for it. -/
def digitCharacters : List Text :=
  [['0'], ['1'], ['2'], ['3'], ['4'], ['5'], ['6'], ['7'], ['8'], ['9'],
    ['a', 'A'], ['b', 'B'], ['c', 'C'], ['d', 'D'], ['e', 'E'], ['f', 'F']]

def IsDigitOf (base : Nat) (c : Char) (value : Nat) : Prop :=
  value < base ∧ c ∈ digitCharacters.getD value []

/-- Digits of a base and the number they stand for, leading zeros allowed. -/
def IsNumeral (base : Nat) (digits : Text) (number : Nat) : Prop :=
  digits ≠ [] ∧ ∃ values, List.Forall₂ (IsDigitOf base) digits values ∧
    number = Nat.ofDigits base values.reverse

inductive SignText : Text → Int → Prop
  | absent : SignText [] 1
  | plus : SignText ['+'] 1
  | minus : SignText ['-'] (-1)

inductive BaseText : Text → Nat → Prop
  | decimal : BaseText [] 10
  | lower : BaseText ['0', 'x'] 16
  | upper : BaseText ['0', 'X'] 16

/-- What a literal denotes, if only it has the form of one. -/
inductive Denotes : Text → Int → Prop
  | literal (sign mark digits : Text) (unit : Int) (base number : Nat)
      (signed : SignText sign unit) (marked : BaseText mark base)
      (numeral : IsNumeral base digits number) :
      Denotes (sign ++ mark ++ digits) (unit * number)

/-- A literal of a value that has a 64-bit form, as a signed or as an unsigned number. -/
structure LiteralOf (literal : Text) (value : Int) : Prop where
  denotes : Denotes literal value
  least : -2 ^ 63 ≤ value
  most : value ≤ 2 ^ 64 - 1

/-- A pattern of bits as text, the most significant bit first. -/
def bitText {width : Nat} (pattern : BitVec width) : Text :=
  (List.range width).map fun place => if pattern.getMsbD place then '1' else '0'

/-! Digits. -/

/-- A character between two others, as far behind the first as its value in their row. -/
theorem digit_between (low high c : Char) (start : Nat)
    (between : (decide (low ≤ c) && decide (c ≤ high)) = true)
    (row : ∀ distance ≤ high.toNat - low.toNat,
      Char.ofNat (low.toNat + distance) ∈ digitCharacters.getD (distance + start) []) :
    c ∈ digitCharacters.getD (c.toNat - low.toNat + start) [] := by
  simp only [Bool.and_eq_true, decide_eq_true_eq, Char.le_def, UInt32.le_iff_toNat_le] at between
  have least : low.toNat ≤ c.toNat := between.1
  have most : c.toNat ≤ high.toNat := between.2
  have listed := row (c.toNat - low.toNat) (by omega)
  rwa [Nat.add_sub_cancel' least, Char.ofNat_toNat] at listed

theorem digit_iff (base : Nat) (small : base ≤ 16) (c : Char) (value : Nat) :
    digit? base c = some value ↔ IsDigitOf base c value := by
  constructor
  · intro read
    rw [digit?, Option.filter_eq_some_iff] at read
    obtain ⟨character, below⟩ := read
    refine ⟨of_decide_eq_true below, ?_⟩
    by_cases numeral : isDigit c = true
    · rw [if_pos numeral] at character
      cases character
      exact digit_between '0' '9' c 0 numeral (by decide)
    · rw [if_neg numeral] at character
      by_cases lower : (decide ('a' ≤ c) && decide (c ≤ 'f')) = true
      · rw [if_pos lower] at character
        cases character
        exact digit_between 'a' 'f' c 10 lower (by decide)
      · rw [if_neg lower] at character
        by_cases upper : (decide ('A' ≤ c) && decide (c ≤ 'F')) = true
        · rw [if_pos upper] at character
          cases character
          exact digit_between 'A' 'F' c 10 upper (by decide)
        · rw [if_neg upper] at character
          cases character
  · rintro ⟨below, listed⟩
    -- The table is read for base sixteen; a smaller base only drops its end.
    have table : ((List.range 16).all fun value =>
        (digitCharacters.getD value []).all fun c => digit? 16 c = some value) = true := by decide
    have row := List.all_eq_true.mp table value (List.mem_range.mpr (by omega))
    have read := of_decide_eq_true (List.all_eq_true.mp row c listed)
    rw [digit?, Option.filter_eq_some_iff] at read ⊢
    exact ⟨read.1, decide_eq_true below⟩

/-- Digits behind a numeral move it up by as many places as they take. -/
theorem digitsFrom_iff (base : Nat) (small : base ≤ 16) (start : Nat) (digits : Text)
    (number : Nat) :
    digitsFrom? base start digits = some number ↔
      ∃ values, List.Forall₂ (IsDigitOf base) digits values ∧
        number = Nat.ofDigits base values.reverse + base ^ values.length * start := by
  induction digits generalizing start with
  | nil => simp [digitsFrom?, List.forall₂_nil_left_iff, eq_comm]
  | cons c rest ih =>
      simp only [digitsFrom?, Option.bind_eq_some_iff, ih, digit_iff base small,
        List.forall₂_cons_left_iff]
      have regrouped (value : Nat) (values : List Nat) :
          Nat.ofDigits base (value :: values).reverse + base ^ (value :: values).length * start =
            Nat.ofDigits base values.reverse + base ^ values.length * (base * start + value) := by
        rw [List.reverse_cons, Nat.ofDigits_append, Nat.ofDigits_singleton, List.length_reverse,
          List.length_cons, Nat.pow_succ, Nat.mul_add, Nat.mul_assoc, Nat.add_assoc,
          Nat.add_comm (base ^ values.length * value)]
      constructor
      · rintro ⟨value, digit, values, later, rfl⟩
        exact ⟨value :: values, ⟨value, values, digit, later, rfl⟩, (regrouped value values).symm⟩
      · rintro ⟨_, ⟨value, values, digit, later, rfl⟩, rfl⟩
        exact ⟨value, digit, values, later, regrouped value values⟩

theorem natural_iff (base : Nat) (small : base ≤ 16) (digits : Text) (number : Nat) :
    natural? base digits = some number ↔ IsNumeral base digits number := by
  unfold natural? IsNumeral
  by_cases empty : digits = []
  · simp [empty]
  · simp [empty, digitsFrom_iff base small]

/-! Signs and marks. -/

namespace Literal

theorem numeral_decimal_digits (digits : Text) (number : Nat)
    (numeral : IsNumeral 10 digits number) : ∀ c ∈ digits, c.isDigit = true := by
  have read := (natural_iff 10 (by decide) digits number).mpr numeral
  exact ((natural_ten_iff digits number).mp read).2.1

/-- The mark of a base has a letter, which is no decimal digit. -/
theorem magnitude_unmarked (digits : Text) (number : Nat) (numeral : IsNumeral 10 digits number) :
    magnitude? digits = some number := by
  have digit := numeral_decimal_digits digits number numeral
  have read := (natural_iff 10 (by decide) digits number).mpr numeral
  unfold magnitude?
  split
  · exact absurd (digit 'x' (by simp)) (by decide)
  · exact absurd (digit 'X' (by simp)) (by decide)
  · exact read

theorem magnitude_iff (body : Text) (number : Nat) :
    magnitude? body = some number ↔
      ∃ mark base digits, BaseText mark base ∧ IsNumeral base digits number ∧
        body = mark ++ digits := by
  constructor
  · intro read
    unfold magnitude? at read
    split at read
    · exact ⟨_, 16, _, .lower, (natural_iff 16 (by decide) _ _).mp read, rfl⟩
    · exact ⟨_, 16, _, .upper, (natural_iff 16 (by decide) _ _).mp read, rfl⟩
    · exact ⟨_, 10, _, .decimal, (natural_iff 10 (by decide) _ _).mp read, rfl⟩
  · rintro ⟨mark, base, digits, marked, numeral, rfl⟩
    cases marked with
    | decimal => exact magnitude_unmarked digits number numeral
    | lower => exact (natural_iff 16 (by decide) digits number).mpr numeral
    | upper => exact (natural_iff 16 (by decide) digits number).mpr numeral

/-- Marks and digits begin with a digit, so that no sign is taken from them. -/
theorem signAndBody_numeral (mark digits : Text) (base number : Nat) (marked : BaseText mark base)
    (numeral : IsNumeral base digits number) :
    signAndBody (mark ++ digits) = (false, mark ++ digits) := by
  cases marked with
  | decimal =>
      obtain ⟨first, rest, rfl⟩ := List.exists_cons_of_ne_nil numeral.1
      exact signAndBody_digit first rest
        (numeral_decimal_digits _ number numeral first List.mem_cons_self)
  | lower => rfl
  | upper => rfl

/-- What is taken off in front is a sign or nothing. -/
theorem signAndBody_text (literal : Text) :
    ∃ sign, SignText sign (if (signAndBody literal).1 then -1 else 1) ∧
      literal = sign ++ (signAndBody literal).2 := by
  unfold signAndBody
  split
  · exact ⟨_, .minus, rfl⟩
  · exact ⟨_, .plus, rfl⟩
  · exact ⟨_, .absent, rfl⟩

theorem denotes_value (literal : Text) (value : Int) (read : value? literal = some value) :
    LiteralOf literal value := by
  obtain ⟨sign, signed, parts⟩ := signAndBody_text literal
  unfold value? at read
  split at read
  · cases read
  · rename_i number found
    obtain ⟨mark, base, digits, marked, numeral, body⟩ := (magnitude_iff _ number).mp found
    have denotes := Denotes.literal sign mark digits _ base number signed marked numeral
    rw [List.append_assoc, ← body, ← parts] at denotes
    have size : UInt64.size = 2 ^ 64 := rfl
    split at read
    · rename_i negative
      split at read
      · cases read
        rw [if_pos negative, Int.neg_one_mul] at denotes
        exact ⟨denotes, by omega, by omega⟩
      · cases read
    · rename_i positive
      split at read
      · cases read
        rw [if_neg positive, Int.one_mul] at denotes
        exact ⟨denotes, by omega, by omega⟩
      · cases read

theorem value_of_literal (literal : Text) (value : Int) (valid : LiteralOf literal value) :
    value? literal = some value := by
  obtain ⟨⟨sign, mark, digits, unit, base, number, signed, marked, numeral⟩, least, most⟩ := valid
  have size : UInt64.size = 2 ^ 64 := rfl
  have read := (magnitude_iff (mark ++ digits) number).mpr
    ⟨mark, base, digits, marked, numeral, rfl⟩
  cases signed with
  | absent =>
      have unsigned := signAndBody_numeral mark digits base number marked numeral
      have fits : number < UInt64.size := by omega
      simp [value?, unsigned, read, fits]
  | plus =>
      have fits : number < UInt64.size := by omega
      simp [value?, signAndBody, read, fits]
  | minus =>
      have fits : number ≤ UInt64.size / 2 := by omega
      simp [value?, signAndBody, read, fits]

theorem value_iff (literal : Text) (value : Int) :
    value? literal = some value ↔ LiteralOf literal value :=
  ⟨denotes_value literal value, value_of_literal literal value⟩

end Literal

/-! Patterns of bits. -/

theorem getMsbD_ofNat (width n place : Nat) (inside : place < width) :
    (BitVec.ofNat width n).getMsbD place = n.testBit (width - 1 - place) := by
  have below : width - 1 - place < width := by omega
  rw [BitVec.getMsbD_eq_getLsbD, BitVec.getLsbD_ofNat]
  simp only [inside, below, decide_true, Bool.true_and]

theorem binary_bitText (width n : Nat) : binary width n = bitText (BitVec.ofNat width n) := by
  induction width with
  | zero => rfl
  | succ width ih =>
      rw [binary, ih, bitText, bitText, List.range_succ_eq_map, List.map_cons, List.map_map,
        getMsbD_ofNat (width + 1) n 0 (Nat.zero_lt_succ width)]
      congr 1
      apply List.map_congr_left
      intro place member
      have inside := List.mem_range.mp member
      have same : width + 1 - 1 - (place + 1) = width - 1 - place := by omega
      rw [Function.comp_apply, getMsbD_ofNat width n place inside,
        getMsbD_ofNat (width + 1) n (place + 1) (Nat.succ_lt_succ inside), same]

theorem binary_residue_bitText (width : Nat) (value : Int) :
    binary width (value % 2 ^ width).toNat = bitText (BitVec.ofInt width value) := by
  rw [binary_bitText, ofNat_residue]

namespace Literal

theorem twosComplement_bitText (literal : Text) (value : Int) (valid : LiteralOf literal value) :
    twosComplement literal = .ok (bitText (BitVec.ofInt 64 value)) := by
  rw [← binary_residue_bitText]
  exact (twosComplement_ok_iff literal _).mpr ⟨value, value_of_literal literal value valid, rfl⟩

theorem twosComplement_error_iff (literal : Text) (cause : InstructionError) :
    twosComplement literal = .error cause ↔
      (¬ ∃ value, LiteralOf literal value) ∧ cause = .literalFormat literal := by
  simp only [← value_iff]
  cases found : value? literal with
  | none => simp [twosComplement, found, eq_comm]
  | some value => simp [twosComplement, found]

/-- The field has the residue of the value, and as a signed number the one nearest to zero. -/
theorem field_residue (literal : Text) (value : Int) (valid : LiteralOf literal value)
    (width : Nat) (positive : 1 ≤ width) (narrow : width ≤ 64) :
    ∃ bits, field literal width = .ok bits ∧
      (unsigned bits : Int) = value % 2 ^ width ∧
      signed bits % 2 ^ width = value % 2 ^ width ∧
      -2 ^ (width - 1) ≤ signed bits ∧ signed bits < 2 ^ (width - 1) := by
  have size : (0 : Int) < 2 ^ width := Int.pow_pos (by decide)
  have least := Int.emod_nonneg value (Int.ne_of_gt size)
  have most := Int.emod_lt_of_pos value size
  let bits := binary width (value % 2 ^ width).toNat
  have digits : IsBits bits := isBits_binary width _
  have length : bits.length = width := length_binary width _
  have number : (unsigned bits : Int) = value % 2 ^ width := by
    have below : (value % 2 ^ width).toNat < 2 ^ width :=
      (Int.toNat_lt least).mpr (by simpa using most)
    rw [unsigned_binary width _ narrow, Nat.mod_eq_of_lt below, Int.toNat_of_nonneg least]
  have residue := signed_residue digits (by omega)
  have range := signed_range digits (by omega) (by omega)
  rw [length, number, Int.emod_emod] at residue
  rw [length] at range
  exact ⟨bits, (field_ok_iff literal _ width positive narrow).mpr
    ⟨value, value_of_literal literal value valid, rfl⟩, number, residue, range⟩

/-- A printed number is a literal of it. -/
theorem twosComplement_signedDecimal (value : Int) (least : -2 ^ 63 ≤ value)
    (most : value < 2 ^ 64) :
    twosComplement (signedDecimal value) = .ok (bitText (BitVec.ofInt 64 value)) :=
  twosComplement_bitText _ value ((value_iff _ value).mp (value_signedDecimal value least most))

end Literal

/-- Literals are accepted exactly by their grammar and their range, and stand for the bits of
what they denote; the rest is refused as it stands. -/
theorem twosComplement_exact :
    (∀ literal bits, Literal.twosComplement literal = .ok bits ↔
      ∃ value, LiteralOf literal value ∧ bits = bitText (BitVec.ofInt 64 value)) ∧
    (∀ literal cause, Literal.twosComplement literal = .error cause ↔
      (¬ ∃ value, LiteralOf literal value) ∧ cause = .literalFormat literal) ∧
    (∀ number : UInt64,
      Literal.twosComplement (decimal number.toNat) = .ok (bitText number.toBitVec)) ∧
    (∀ number : Int64,
      Literal.twosComplement (signedDecimal number.toInt) = .ok (bitText number.toBitVec)) ∧
    ∀ literal value, LiteralOf literal value → ∀ width, 1 ≤ width → width ≤ 64 →
      ∃ bits, Literal.field literal width = .ok bits ∧
        (unsigned bits : Int) = value % 2 ^ width ∧
        signed bits % 2 ^ width = value % 2 ^ width ∧
        -2 ^ (width - 1) ≤ signed bits ∧ signed bits < 2 ^ (width - 1) := by
  refine ⟨?_, Literal.twosComplement_error_iff, ?_, ?_, Literal.field_residue⟩
  · intro literal bits
    rw [Literal.twosComplement_ok_iff]
    simp only [Literal.value_iff, binary_residue_bitText]
  · intro number
    have read := Literal.twosComplement_signedDecimal number.toNat (by omega)
      (Int.ofNat_lt.mpr number.toNat_lt)
    have same : BitVec.ofInt 64 number.toNat = number.toBitVec := by simp
    rwa [same] at read
  · intro number
    have read := Literal.twosComplement_signedDecimal number.toInt number.le_toInt
      (Int.lt_trans number.toInt_lt (by decide))
    have same : BitVec.ofInt 64 number.toInt = number.toBitVec := by simp
    rwa [same] at read

/-- The least literal there is, with leading zeros, in its narrowest and its widest field. -/
theorem twosComplement_exact_least :
    let literal := "-0X008000000000000000".toList
    LiteralOf literal (-2 ^ 63) ∧
      (∃ bits, Literal.field literal 1 = .ok bits ∧ unsigned bits = 0) ∧
      ∃ bits, Literal.field literal 64 = .ok bits ∧ signed bits = -2 ^ 63 := by
  intro literal
  have valid : LiteralOf literal (-2 ^ 63) := Literal.denotes_value literal _ (by decide)
  obtain ⟨-, -, -, -, fields⟩ := twosComplement_exact
  obtain ⟨last, narrow, even, -⟩ := fields literal _ valid 1 (by decide) (by decide)
  obtain ⟨all, wide, -, residue, least, most⟩ := fields literal _ valid 64 (by decide) (by decide)
  exact ⟨valid, ⟨last, narrow, by omega⟩, all, wide, by omega⟩

end RiscAssembly
