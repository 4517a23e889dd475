import RiscAssembly.Proofs.BitArithmetic
import RiscAssembly.Proofs.Fields
import RiscAssembly.Proofs.LiteralGrammar

/-!
The spellings of registers. A register is written by its name, by the second name that
register eight has, or by a mark and its number in decimal. Names and numerals exclude each
other, and a numeral is read only as it is printed, so every text names one register at most
and all other texts are refused. The field of a register has the five binary digits of its
number.
-/

namespace RiscAssembly

open Text BitString

/-- The ways to write a register. -/
inductive Register.SpelledBy (register : Register) : Text → Prop
  | name : SpelledBy register register.name
  | frame (eighth : register.val = 8) : SpelledBy register "fp".toList
  | number (mark : Char) (marked : mark = 'x' ∨ mark = '$') :
      SpelledBy register (mark :: decimal register.val)

/-- Small letters, digits and a mark, all of them ASCII. -/
def Register.isNameCharacter (c : Char) : Bool := c.isLower || c.isDigit || c = '$'

/-! Numerals as they are printed. -/

theorem decimal_digit (c : Char) (value : Nat) (digit : digit? 10 c = some value) :
    decimal value = [c] := by
  have table : ((List.range 10).all fun value =>
      (digitCharacters.getD value []).all fun c => decimal value = [c]) = true := by decide
  obtain ⟨below, listed⟩ := (digit_iff 10 (by decide) c value).mp digit
  have row := List.all_eq_true.mp table value (List.mem_range.mpr below)
  exact of_decide_eq_true (List.all_eq_true.mp row c listed)

/-- Digits behind a positive number stand behind its numeral. -/
theorem decimal_digitsFrom (start number : Nat) (digits : Text) (positive : 0 < start)
    (read : digitsFrom? 10 start digits = some number) :
    decimal number = decimal start ++ digits := by
  induction digits generalizing start with
  | nil =>
      cases read
      rw [List.append_nil]
  | cons c rest ih =>
      rw [digitsFrom?, Option.bind_eq_some_iff] at read
      obtain ⟨value, digit, later⟩ := read
      have below := ((digit_iff 10 (by decide) c value).mp digit).1
      have next : decimal start ++ [c] = decimal (10 * start + value) := by
        rw [← decimal_digit c value digit]
        exact Nat.toDigits_append_toDigits (by decide) positive below
      rw [ih (10 * start + value) (by omega) later, ← next, List.append_assoc,
        List.singleton_append]

theorem decimal_natural (first : Char) (rest : Text) (number : Nat)
    (read : natural? 10 (first :: rest) = some number) (leading : first = '0' → rest = []) :
    decimal number = first :: rest := by
  rw [natural?, if_neg (by simp), digitsFrom?, Option.bind_eq_some_iff] at read
  obtain ⟨value, digit, later⟩ := read
  have printed := decimal_digit first value digit
  rw [Nat.mul_zero, Nat.zero_add] at later
  by_cases zero : value = 0
  · -- A zero in front stands alone, so no digit is left to read.
    subst value
    obtain rfl := leading (List.singleton_inj.mp printed).symm
    cases later
    exact printed
  · rw [decimal_digitsFrom value number rest (Nat.pos_of_ne_zero zero) later, printed,
      List.singleton_append]

/-- Only zero is printed with a zero in front. -/
theorem decimal_first (number : Nat) (positive : 0 < number) :
    ∃ first rest, decimal number = first :: rest ∧ first ≠ '0' := by
  -- The first digit stays the same when the last one is taken off.
  induction number using Nat.strongRecOn with
  | ind number ih =>
      by_cases below : number < 10
      · have table : ∀ digit < 10, 0 < digit → digit.digitChar ≠ '0' := by decide
        exact ⟨_, [], Nat.toDigits_of_lt_base below, table number below positive⟩
      · obtain ⟨first, rest, shape, nonzero⟩ := ih (number / 10) (by omega) (by omega)
        have parts : decimal number = decimal (number / 10) ++ [(number % 10).digitChar] :=
          Nat.toDigits_of_base_le (by decide) (by omega)
        exact ⟨first, rest ++ [_], by rw [parts, shape, List.cons_append], nonzero⟩

theorem decimal_leading (number : Nat) (rest : Text) (shape : decimal number = '0' :: rest) :
    rest = [] := by
  by_cases zero : number = 0
  · subst number
    cases shape
    rfl
  · obtain ⟨first, _, other, nonzero⟩ := decimal_first number (Nat.pos_of_ne_zero zero)
    rw [shape] at other
    cases other
    exact absurd rfl nonzero

namespace Register

theorem number_cons_iff (first : Char) (rest : Text) (number : Nat) :
    number? (first :: rest) = some number ↔
      natural? 10 (first :: rest) = some number ∧ (first = '0' → rest = []) := by
  cases rest with
  | nil => simp [number?]
  | cons second rest =>
      by_cases zero : first = '0'
      · simp [number?, zero]
      · simp [number?, zero]

/-- A number is read only as it is printed. -/
theorem number_iff (digits : Text) (number : Nat) :
    number? digits = some number ↔ digits = decimal number := by
  cases digits with
  | nil => exact iff_of_false nofun fun same => Nat.toDigits_ne_nil same.symm
  | cons first rest =>
      rw [number_cons_iff]
      constructor
      · rintro ⟨read, leading⟩
        exact (decimal_natural first rest number read leading).symm
      · intro printed
        refine ⟨printed ▸ natural_decimal number, ?_⟩
        rintro rfl
        exact decimal_leading number rest printed.symm

theorem ofIndex_iff (index : Nat) (register : Register) :
    ofIndex? index = some register ↔ index = register.val := by
  unfold ofIndex?
  split
  · simp [Fin.ext_iff]
  · have inside := register.isLt
    simp
    omega

theorem numbered_iff (text : Text) (register : Register) :
    numbered? text = some register ↔
      ∃ mark, (mark = 'x' ∨ mark = '$') ∧ text = mark :: decimal register.val := by
  have behind (digits : Text) : (number? digits).bind ofIndex? = some register ↔
      digits = decimal register.val := by
    simp [Option.bind_eq_some_iff, number_iff, ofIndex_iff]
  constructor
  · intro read
    unfold numbered? at read
    split at read
    · exact ⟨'x', .inl rfl, congrArg _ ((behind _).mp read)⟩
    · exact ⟨'$', .inr rfl, congrArg _ ((behind _).mp read)⟩
    · cases read
  · rintro ⟨mark, rfl | rfl, rfl⟩
    · exact (behind _).mpr rfl
    · exact (behind _).mpr rfl

/-! Names. -/

theorem names_distinct : names.Nodup := by decide

theorem findIdx_names (text : Text) (index : Nat) :
    names.findIdx? (· = text) = some index ↔
      ∃ register : Register, register.val = index ∧ register.name = text := by
  simp only [List.findIdx?_eq_some_iff_getElem, decide_eq_true_eq]
  constructor
  · rintro ⟨inside, same, -⟩
    exact ⟨⟨index, inside⟩, rfl, same⟩
  · rintro ⟨register, rfl, same⟩
    refine ⟨register.isLt, same, ?_⟩
    -- The search stops at the first place, which has to be the only one.
    intro earlier before equal
    exact List.pairwise_iff_getElem.mp names_distinct earlier register.val
      (Nat.lt_trans before register.isLt) register.isLt before (equal.trans same.symm)

theorem name_unmarked (register : Register) (mark : Char) (rest : Text)
    (marked : mark = 'x' ∨ mark = '$') : register.name ≠ mark :: rest := by
  have table : ∀ register : Register,
      register.name.head? ≠ some 'x' ∧ register.name.head? ≠ some '$' := by decide
  intro same
  have heads := table register
  rw [same] at heads
  rcases marked with rfl | rfl
  · exact heads.1 rfl
  · exact heads.2 rfl

theorem ofName_name (register : Register) : ofName? register.name = some register := by
  have other : ∀ register : Register, register.name ≠ "fp".toList := by decide
  have found := (findIdx_names register.name register.val).mpr ⟨register, rfl, rfl⟩
  rw [ofName?, if_neg (other register), found]
  exact (ofIndex_iff register.val register).mpr rfl

theorem ofName_marked (mark : Char) (rest : Text) (marked : mark = 'x' ∨ mark = '$') :
    ofName? (mark :: rest) = numbered? (mark :: rest) := by
  have other : mark :: rest ≠ "fp".toList := by
    rcases marked with rfl | rfl <;> simp
  rw [ofName?, if_neg other]
  cases found : names.findIdx? (· = mark :: rest) with
  | none => rfl
  | some index =>
      obtain ⟨register, -, same⟩ := (findIdx_names _ index).mp found
      exact absurd same (register.name_unmarked mark rest marked)

theorem ofName_iff (text : Text) (register : Register) :
    ofName? text = some register ↔ register.SpelledBy text := by
  constructor
  · intro named
    unfold ofName? at named
    split at named
    · rename_i frame
      cases named
      rw [frame]
      exact .frame rfl
    · split at named
      · rename_i index found
        obtain ⟨other, place, rfl⟩ := (findIdx_names text index).mp found
        have same : register = other :=
          Fin.ext (((ofIndex_iff index register).mp named).symm.trans place.symm)
        rw [same]
        exact .name
      · obtain ⟨mark, marked, rfl⟩ := (numbered_iff text register).mp named
        exact .number mark marked
  · intro spelled
    cases spelled with
    | name => exact register.ofName_name
    | frame eighth =>
        have same : register = 8 := Fin.ext eighth
        rw [same]
        rfl
    | number mark marked =>
        rw [ofName_marked mark _ marked]
        exact (numbered_iff _ register).mpr ⟨mark, marked, rfl⟩

theorem parse_error_iff (text : Text) (cause : InstructionError) :
    parse text = .error cause ↔
      (¬ ∃ register : Register, register.SpelledBy text) ∧ cause = .invalidRegister text := by
  simp only [← ofName_iff]
  cases found : ofName? text with
  | none => simp [parse, found, eq_comm]
  | some register => simp [parse, found]

theorem parse_refused (text : Text)
    (unspelled : ∀ register : Register, ¬ register.SpelledBy text) :
    parse text = .error (.invalidRegister text) :=
  (parse_error_iff text _).mpr ⟨not_exists.mpr unspelled, rfl⟩

/-! What no spelling has. -/

theorem SpelledBy.characters {register : Register} {text : Text}
    (spelled : register.SpelledBy text) : text.all isNameCharacter = true := by
  cases spelled with
  | name =>
      have table : ∀ register : Register, register.name.all isNameCharacter = true := by decide
      exact table register
  | frame => rfl
  | number mark marked =>
      have digits : (decimal register.val).all isNameCharacter = true := by
        rw [List.all_eq_true]
        intro c member
        simp [isNameCharacter, isDigit_of_decimal register.val c member]
      rcases marked with rfl | rfl
      · exact digits
      · exact digits

theorem SpelledBy.numeral {register : Register} {mark : Char} {digits : Text}
    (spelled : register.SpelledBy (mark :: digits)) (marked : mark = 'x' ∨ mark = '$') :
    digits = decimal register.val := by
  have named := (ofName_iff _ register).mpr spelled
  rw [ofName_marked mark digits marked] at named
  obtain ⟨_, -, same⟩ := (numbered_iff _ register).mp named
  exact (List.cons.inj same).2

theorem parse_unusual (text : Text) (c : Char) (member : c ∈ text)
    (unusual : isNameCharacter c = false) : parse text = .error (.invalidRegister text) := by
  apply parse_refused
  intro register spelled
  have usual := List.all_eq_true.mp spelled.characters c member
  rw [unusual] at usual
  cases usual

theorem parse_numeral (mark : Char) (digits : Text) (number : Nat)
    (marked : mark = 'x' ∨ mark = '$') (numeral : IsNumeral 10 digits number)
    (other : 31 < number ∨ digits ≠ decimal number) :
    parse (mark :: digits) = .error (.invalidRegister (mark :: digits)) := by
  apply parse_refused
  intro register spelled
  have printed := spelled.numeral marked
  have read := (natural_iff 10 (by decide) digits number).mpr numeral
  rw [printed, natural_decimal, Option.some.injEq] at read
  have inside := register.isLt
  rcases other with beyond | padded
  · omega
  · exact padded (read ▸ printed)

/-! The field of a register. -/

theorem binaryValue_bits (register : Register) : binaryValue register.bits = register.val := by
  rw [← unsigned_narrow register.bits (by simp), register.unsigned_bits]

theorem bits_eq_iff (left right : Register) : left.bits = right.bits ↔ left.val = right.val := by
  constructor
  · intro same
    rw [← left.unsigned_bits, same, right.unsigned_bits]
  · intro same
    rw [Fin.ext same]

end Register

theorem Descriptor.registerField_eq_iff (left right : Text) (first second : Register)
    (leftParsed : Register.parse left = .ok first)
    (rightParsed : Register.parse right = .ok second) :
    registerField left = registerField right ↔ first.val = second.val := by
  have leftField : registerField left = .ok first.bits := by
    rw [registerField, leftParsed]
    rfl
  have rightField : registerField right = .ok second.bits := by
    rw [registerField, rightParsed]
    rfl
  rw [leftField, rightField, Except.ok.injEq, Register.bits_eq_iff]

/-- Registers are accepted exactly by their spellings, anything else is refused as it stands,
and spellings have the same field exactly if they are of one register. -/
theorem register_names_exact :
    (∀ text register, Register.parse text = .ok register ↔ register.SpelledBy text) ∧
    (∀ text cause, Register.parse text = .error cause ↔
      (¬ ∃ register : Register, register.SpelledBy text) ∧ cause = .invalidRegister text) ∧
    (∀ mark digits number, mark = 'x' ∨ mark = '$' → IsNumeral 10 digits number →
      31 < number ∨ digits ≠ decimal number →
      Register.parse (mark :: digits) = .error (.invalidRegister (mark :: digits))) ∧
    (∀ text, ∀ c ∈ text, Register.isNameCharacter c = false →
      Register.parse text = .error (.invalidRegister text)) ∧
    (∀ register : Register, register.bits.length = 5 ∧ IsBits register.bits ∧
      binaryValue register.bits = register.val) ∧
    ∀ left right first second, Register.parse left = .ok first →
      Register.parse right = .ok second →
      (Descriptor.registerField left = Descriptor.registerField right ↔
        first.val = second.val) := by
  refine ⟨?_, Register.parse_error_iff, Register.parse_numeral, Register.parse_unusual, ?_,
    Descriptor.registerField_eq_iff⟩
  · intro text register
    rw [Register.parse_ok_iff, Register.ofName_iff]
  · intro register
    exact ⟨register.length_bits, register.isBits_bits, register.binaryValue_bits⟩

/-- The last name of the table, two spellings of one register, and texts that come close to a
spelling: a number that is too large, a leading zero, a digit of another script and a capital
letter. -/
theorem register_names_exact_near :
    Register.parse "t6".toList = .ok 31 ∧
    Descriptor.registerField "fp".toList = Descriptor.registerField "$8".toList ∧
    Register.parse "x256".toList = .error (.invalidRegister "x256".toList) ∧
    Register.parse "$08".toList = .error (.invalidRegister "$08".toList) ∧
    Register.parse "x\uff11".toList = .error (.invalidRegister "x\uff11".toList) ∧
    Register.parse "A0".toList = .error (.invalidRegister "A0".toList) := by
  obtain ⟨accepted, -, numerals, unusual, -, fields⟩ := register_names_exact
  have frame := (accepted "fp".toList 8).mpr (.frame rfl)
  have marked := (accepted "$8".toList 8).mpr (.number '$' (.inr rfl))
  have numeral (digits : Text) (number : Nat) (read : natural? 10 digits = some number) :=
    (natural_iff 10 (by decide) digits number).mp read
  refine ⟨(accepted _ 31).mpr .name, (fields _ _ 8 8 frame marked).mpr rfl, ?_, ?_, ?_, ?_⟩
  · exact numerals 'x' "256".toList 256 (.inl rfl) (numeral _ _ (by decide)) (.inl (by decide))
  · exact numerals '$' "08".toList 8 (.inr rfl) (numeral _ _ (by decide)) (.inr (by decide))
  · exact unusual _ '\uff11' (by decide) (by decide)
  · exact unusual _ 'A' (by decide) (by decide)

end RiscAssembly
