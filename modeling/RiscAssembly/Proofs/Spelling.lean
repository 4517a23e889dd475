import RiscAssembly.Proofs.Operands
import RiscAssembly.Proofs.RegisterNames
import RiscAssembly.Proofs.Text

/-!
The characters that names and numbers are spelled with. Registers, literals and mnemonics
are made of letters, digits, the dollar and the signs; so they have none of the characters
at which text is cut, and no white space.
-/

namespace RiscAssembly

open Text

def tokenRanges : List (Nat × Nat) :=
  [(0x24, 0x24), (0x2B, 0x2B), (0x2D, 0x2D), (0x30, 0x39), (0x41, 0x5A), (0x61, 0x7A)]

def isTokenCharacter (c : Char) : Bool := inRanges tokenRanges c

/-- What a register, a literal and a mnemonic look like. -/
structure IsToken (text : Text) : Prop where
  nonempty : text ≠ []
  spelled : ∀ c ∈ text, isTokenCharacter c = true

theorem isToken_iff (text : Text) :
    (!text.isEmpty && text.all isTokenCharacter) = true ↔ IsToken text := by
  rw [Bool.and_eq_true, List.all_eq_true, Bool.not_eq_true', List.isEmpty_eq_false_iff]
  exact ⟨fun both => ⟨both.1, both.2⟩, fun token => ⟨token.nonempty, token.spelled⟩⟩

instance (text : Text) : Decidable (IsToken text) := decidable_of_iff _ (isToken_iff text)

theorem inRanges_iff (ranges : List (Nat × Nat)) (c : Char) :
    inRanges ranges c = true ↔ ∃ range ∈ ranges, range.1 ≤ c.toNat ∧ c.toNat ≤ range.2 := by
  simp [inRanges]

theorem isSpace_tokenCharacter (c : Char) (valid : isTokenCharacter c = true) :
    isSpace c = false := by
  simp only [isTokenCharacter, inRanges, tokenRanges, List.any_cons, List.any_nil, Bool.or_false,
    Bool.or_eq_true, Bool.and_eq_true, decide_eq_true_eq] at valid
  simp only [isSpace, inRanges, spaceRanges, List.any_cons, List.any_nil, Bool.or_false,
    Bool.or_eq_false_iff, Bool.and_eq_false_iff, decide_eq_false_iff_not]
  omega

section Token

variable {text : Text} (token : IsToken text)

include token

theorem IsToken.free (separator : Char → Bool)
    (apart : ∀ c, isTokenCharacter c = true → separator c = false) : Free separator text :=
  fun c member => apart c (token.spelled c member)

theorem IsToken.solid : Solid text :=
  solid_of_free text (token.free isSpace isSpace_tokenCharacter)

end Token

/-! Digits. -/

theorem tokenCharacter_between (low high c : Char) (start stop : Nat)
    (listed : (start, stop) ∈ tokenRanges) (least : start ≤ low.toNat) (most : high.toNat ≤ stop)
    (between : (decide (low ≤ c) && decide (c ≤ high)) = true) : isTokenCharacter c = true := by
  simp only [Bool.and_eq_true, decide_eq_true_eq, Char.le_def, UInt32.le_iff_toNat_le] at between
  exact (inRanges_iff tokenRanges c).mpr
    ⟨(start, stop), listed, Nat.le_trans least between.1, Nat.le_trans between.2 most⟩

theorem digit_tokenCharacter (base : Nat) (c : Char) (d : Nat) (digit : digit? base c = some d) :
    isTokenCharacter c = true := by
  rw [digit?, Option.filter_eq_some_iff] at digit
  obtain ⟨value, -⟩ := digit
  split at value
  · rename_i numeral
    exact tokenCharacter_between '0' '9' c 0x30 0x39 (by decide) (by decide) (by decide) numeral
  · split at value
    · rename_i lower
      exact tokenCharacter_between 'a' 'f' c 0x61 0x7A (by decide) (by decide) (by decide) lower
    · split at value
      · rename_i upper
        exact tokenCharacter_between 'A' 'F' c 0x41 0x5A (by decide) (by decide) (by decide) upper
      · cases value

theorem digitsFrom_spelled (base start n : Nat) (digits : Text)
    (read : digitsFrom? base start digits = some n) :
    ∀ c ∈ digits, isTokenCharacter c = true := by
  induction digits generalizing start with
  | nil =>
      intro c member
      cases member
  | cons first rest ih =>
      rw [digitsFrom?, Option.bind_eq_some_iff] at read
      obtain ⟨d, digit, later⟩ := read
      intro c member
      rcases List.mem_cons.mp member with rfl | inRest
      · exact digit_tokenCharacter base c d digit
      · exact ih _ later c inRest

theorem natural_isToken (base n : Nat) (digits : Text) (read : natural? base digits = some n) :
    IsToken digits := by
  unfold natural? at read
  split at read
  · cases read
  · rename_i some
    exact ⟨by simpa using some, digitsFrom_spelled base 0 n digits read⟩

theorem isToken_cons (c : Char) (rest : Text) (spelled : isTokenCharacter c = true)
    (token : IsToken rest) : IsToken (c :: rest) where
  nonempty := List.cons_ne_nil c rest
  spelled d member := by
    rcases List.mem_cons.mp member with rfl | inRest
    · exact spelled
    · exact token.spelled d inRest

/-! Registers, literals and mnemonics. -/

theorem Register.ofName_isToken (text : Text) (register : Register)
    (named : ofName? text = some register) : IsToken text := by
  cases (ofName_iff text register).mp named with
  | name =>
      have table : ∀ register : Register, IsToken register.name := by decide
      exact table register
  | frame => decide
  | number mark marked =>
      have digits := natural_isToken 10 register.val _ (natural_decimal register.val)
      refine isToken_cons mark _ ?_ digits
      rcases marked with rfl | rfl <;> decide

namespace Literal

theorem magnitude_isToken (body : Text) (n : Nat) (read : magnitude? body = some n) :
    IsToken body := by
  unfold magnitude? at read
  split at read
  · exact isToken_cons '0' _ (by decide)
      (isToken_cons 'x' _ (by decide) (natural_isToken 16 n _ read))
  · exact isToken_cons '0' _ (by decide)
      (isToken_cons 'X' _ (by decide) (natural_isToken 16 n _ read))
  · exact natural_isToken 10 n _ read

theorem value_isToken (literal : Text) (value : Int) (read : value? literal = some value) :
    IsToken literal := by
  unfold value? at read
  split at read
  · cases read
  · rename_i n found
    have body := magnitude_isToken _ n found
    unfold signAndBody at body
    split at body
    · exact isToken_cons '-' _ (by decide) body
    · exact isToken_cons '+' _ (by decide) body
    · exact body

end Literal

theorem IsOperand.isToken (operand : Text) (valid : IsOperand operand) : IsToken operand := by
  rcases valid with ⟨register, named⟩ | ⟨number, value⟩
  · exact Register.ofName_isToken operand register named
  · exact Literal.value_isToken operand number value

/-- A name that is found in a table is spelled like the names of the table. -/
theorem find_isToken {Entry : Type} (entries : List Entry) (name : Entry → Text)
    (table : ∀ entry ∈ entries, IsToken (name entry)) (text : Text) (entry : Entry)
    (found : entries.find? (fun other => name other = text) = some entry) : IsToken text := by
  have named : name entry = text := by simpa using List.find?_some found
  exact named ▸ table entry (List.mem_of_find?_eq_some found)

/-- All that an instruction with words is written with are tokens. -/
theorem expand_isToken (mnemonic : Text) (operands : List Text) (machine : List (List Text))
    (words : List Word) (expanded : expand (mnemonic :: operands) = .ok machine)
    (encoded : List.Forall₂ (fun tokens word => encode tokens = .ok word) machine words) :
    ∀ token ∈ mnemonic :: operands, IsToken token := by
  rw [List.forall_mem_cons]
  constructor
  · rcases (expand_ok_iff mnemonic operands machine).mp expanded with
      ⟨pseudo, found, -, -⟩ | ⟨-, found, -⟩
    · exact find_isToken Pseudo.all Pseudo.mnemonic (by decide) mnemonic pseudo found
    · obtain ⟨descriptor, listed⟩ := Option.isSome_iff_exists.mp found
      exact find_isToken Catalogue.all Descriptor.mnemonic (by decide) mnemonic descriptor listed
  · intro operand member
    exact IsOperand.isToken operand
      (expand_operands mnemonic operands machine words expanded encoded operand member)

end RiscAssembly
