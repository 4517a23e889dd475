import RiscAssembly.Proofs.Disassembly
import RiscAssembly.Proofs.Interchange

/-!
The operands that a machine instruction takes, and where they go. A pattern gives every
operand a role: a register field of the word, or its immediate. Encoding accepts exactly the
instructions of the catalogue whose operands are what their roles ask for, and the word then
holds every operand in the place of its role, between the fixed bits of the descriptor. What
is refused is refused for its mnemonic, for the number of its operands or for one of them;
no check of a width or a bit range ever fails.
-/

namespace RiscAssembly

open BitString

/-- The roles of the operands under a pattern, as they are written. A register jump may have
its base and its offset in either order. -/
def OperandPattern.orders : OperandPattern → List (List OperandRole)
  | .registers => [[.rd, .rs1, .rs2]]
  | .immediate | .shift => [[.rd, .rs1, .number]]
  | .load => [[.rd, .number, .rs1]]
  | .jumpRegister => [[.rd, .rs1, .number], [.rd, .number, .rs1]]
  | .store => [[.rs2, .number, .rs1]]
  | .branch => [[.rs1, .rs2, .number]]
  | .upper => [[.rd, .number]]
  | .bare => [[]]

/-- Bits of a word, each range from its higher end down, one range behind the other. -/
def Word.read (word : Word) (ranges : List (Nat × Nat)) : Except InstructionError Text := do
  let parts ← ranges.mapM fun range => slice word range.1 range.2
  return parts.flatten

namespace OperandRole

/-- Where the word has its field. -/
def place (pattern : OperandPattern) : OperandRole → List (Nat × Nat)
  | .rd => [(11, 7)]
  | .rs1 => [(19, 15)]
  | .rs2 => [(24, 20)]
  | .number => match pattern with
    | .shift => [(25, 20)]
    | .upper => [(31, 12)]
    | .store | .branch => [(31, 25), (11, 7)]
    | _ => [(31, 20)]

def Accepts : OperandRole → Text → Prop
  | .number, operand => ∃ bits, Literal.twosComplement operand = .ok bits
  | _, operand => ∃ register, Register.parse operand = .ok register

/-- The word has the operand in the place of its role: the number of the register that it
names, or its value modulo the width of the field. -/
def HeldBy (pattern : OperandPattern) (word : Word) : OperandRole → Text → Prop
  | .number, operand => ∃ value, Literal.value? operand = some value ∧
      word.read (place pattern .number) =
        .ok (binary pattern.immediateWidth (value % 2 ^ pattern.immediateWidth).toNat)
  | role, operand => ∃ register : Register, Register.parse operand = .ok register ∧
      word.read (place pattern role) = .ok (binary 5 register.val)

/-- The values have the operand in its role. -/
def GivenBy (values : OperandValues) : OperandRole → Text → Prop
  | .rd, operand => Register.ofName? operand = some values.rd
  | .rs1, operand => Register.ofName? operand = some values.rs1
  | .rs2, operand => Register.ofName? operand = some values.rs2
  | .number, operand => Literal.value? operand = some values.number

end OperandRole

/-- Tokens that are an instruction of the catalogue, with the roles of its operands. -/
inductive IsInstruction : List Text → Descriptor → List OperandRole → Prop
  | tokens (mnemonic : Text) (operands : List Text) (descriptor : Descriptor)
      (roles : List OperandRole) (listed : Catalogue.find? mnemonic = some descriptor)
      (counted : operands.length = descriptor.pattern.arity)
      (ordered : roles ∈ descriptor.pattern.orders)
      (accepted : List.Forall₂ OperandRole.Accepts roles operands) :
      IsInstruction (mnemonic :: operands) descriptor roles

/-- What the word of an instruction is made of. -/
structure Descriptor.Fills (descriptor : Descriptor) (roles : List OperandRole)
    (operands : List Text) (word : Word) : Prop where
  length : word.length = 32
  digits : ∀ digit ∈ word, digit = '0' ∨ digit = '1'
  opcode : word.read [(6, 0)] = .ok descriptor.opcode
  funct3 : descriptor.format ≠ .u → word.read [(14, 12)] = .ok descriptor.funct3
  funct7 : descriptor.format = .r → word.read [(31, 25)] = .ok descriptor.funct7
  shift : descriptor.pattern = .shift → word.read [(31, 26)] = .ok (descriptor.funct7.take 6)
  operands : List.Forall₂ (OperandRole.HeldBy descriptor.pattern word) roles operands
  unused : descriptor.format = .i → ∀ role, role = .rd ∨ role = .rs1 → role ∉ roles →
    word.read (role.place descriptor.pattern) = .ok (binary 5 0)
  bare : descriptor.pattern = .bare →
    word.read [(31, 20)] = .ok (binary 12 descriptor.bareNumber.toNat)

/-- Why tokens are no instruction of the catalogue. -/
inductive Refused : List Text → InstructionError → Prop
  | empty : Refused [] (.unsupportedMnemonic [])
  | mnemonic (mnemonic : Text) (operands : List Text)
      (unlisted : Catalogue.find? mnemonic = none) :
      Refused (mnemonic :: operands) (.unsupportedMnemonic mnemonic)
  | arity (mnemonic : Text) (operands : List Text) (descriptor : Descriptor)
      (listed : Catalogue.find? mnemonic = some descriptor)
      (miscounted : operands.length ≠ descriptor.pattern.arity) :
      Refused (mnemonic :: operands)
        (.operandArity mnemonic descriptor.pattern.arity operands.length)
  | register (mnemonic : Text) (operands : List Text) (operand : Text)
      (written : operand ∈ operands) (unnamed : Register.ofName? operand = none) :
      Refused (mnemonic :: operands) (.invalidRegister operand)
  | literal (mnemonic : Text) (operands : List Text) (operand : Text)
      (written : operand ∈ operands) (unread : Literal.value? operand = none) :
      Refused (mnemonic :: operands) (.literalFormat operand)

/-! Operands and their values. -/

theorem accepts_register_iff (operand : Text) :
    (∃ register, Register.parse operand = .ok register) ↔
      ∃ register, Register.ofName? operand = some register := by
  simp only [Register.parse_ok_iff]

theorem accepts_literal_iff (operand : Text) :
    (∃ bits, Literal.twosComplement operand = .ok bits) ↔
      ∃ number, Literal.value? operand = some number :=
  twosComplement_isLiteral operand

theorem OperandRole.GivenBy.accepts {values : OperandValues} {role : OperandRole} {operand : Text}
    (given : role.GivenBy values operand) : role.Accepts operand := by
  cases role with
  | number => exact (accepts_literal_iff operand).mpr ⟨_, given⟩
  | _ => exact (accepts_register_iff operand).mpr ⟨_, given⟩

theorem OperandPattern.Gives.roles {fixed : Int} {pattern : OperandPattern}
    {operands : List Text} {values : OperandValues}
    (gives : pattern.Gives fixed operands values) :
    ∃ roles ∈ pattern.orders, List.Forall₂ (OperandRole.GivenBy values) roles operands := by
  cases gives with
  | registers first second third rd rs1 rs2 rdNamed rs1Named rs2Named =>
      exact ⟨_, List.mem_singleton_self _, .cons rdNamed (.cons rs1Named (.cons rs2Named .nil))⟩
  | baseFirst _ first second third rd rs1 number shape rdNamed rs1Named value =>
      refine ⟨[.rd, .rs1, .number], ?_, .cons rdNamed (.cons rs1Named (.cons value .nil))⟩
      simp only [List.mem_cons, List.not_mem_nil, or_false] at shape
      rcases shape with rfl | rfl | rfl <;> simp [OperandPattern.orders]
  | offsetFirst _ first second third rd rs1 number shape rdNamed value rs1Named =>
      refine ⟨[.rd, .number, .rs1], ?_, .cons rdNamed (.cons value (.cons rs1Named .nil))⟩
      simp only [List.mem_cons, List.not_mem_nil, or_false] at shape
      rcases shape with rfl | rfl <;> simp [OperandPattern.orders]
  | store first second third rs1 rs2 number rs2Named value rs1Named =>
      exact ⟨_, List.mem_singleton_self _, .cons rs2Named (.cons value (.cons rs1Named .nil))⟩
  | branch first second third rs1 rs2 number rs1Named rs2Named value =>
      exact ⟨_, List.mem_singleton_self _, .cons rs1Named (.cons rs2Named (.cons value .nil))⟩
  | upper first second rd number rdNamed value =>
      exact ⟨_, List.mem_singleton_self _, .cons rdNamed (.cons value .nil)⟩
  | bare => exact ⟨_, List.mem_singleton_self _, .nil⟩

theorem accepted_three {first second third : OperandRole} {operands : List Text}
    (accepted : List.Forall₂ OperandRole.Accepts [first, second, third] operands) :
    ∃ one two three, operands = [one, two, three] ∧ first.Accepts one ∧ second.Accepts two ∧
      third.Accepts three := by
  rcases accepted with _ | ⟨one, _ | ⟨two, _ | ⟨three, _ | _⟩⟩⟩
  exact ⟨_, _, _, rfl, one, two, three⟩

/-! Operands read by their roles. -/

/-- Reading an operand that its role accepts gives the role its value, and no other role. -/
theorem OperandRole.Accepts.read {role : OperandRole} {operand : Text}
    (accepts : role.Accepts operand) (values : OperandValues) :
    ∃ next, values.read? (role, operand) = some next ∧ role.GivenBy next operand ∧
      ∀ other token, other ≠ role → OperandRole.GivenBy values other token →
        OperandRole.GivenBy next other token := by
  cases role with
  | number =>
      obtain ⟨number, value⟩ := (accepts_literal_iff operand).mp accepts
      refine ⟨_, Option.bind_eq_some_iff.mpr ⟨number, value, rfl⟩, value, ?_⟩
      intro other token different given
      cases other <;> first | exact given | exact absurd rfl different
  | rd | rs1 | rs2 =>
      obtain ⟨register, named⟩ := (accepts_register_iff operand).mp accepts
      refine ⟨_, Option.bind_eq_some_iff.mpr ⟨register, named, rfl⟩, named, ?_⟩
      intro other token different given
      cases other <;> first | exact given | exact absurd rfl different

theorem read_all (reads : List (OperandRole × Text)) (distinct : (reads.map Prod.fst).Nodup)
    (accepted : ∀ read ∈ reads, read.1.Accepts read.2) (values : OperandValues) :
    ∃ last, reads.foldlM OperandValues.read? values = some last ∧
      (∀ read ∈ reads, read.1.GivenBy last read.2) ∧
      ∀ role token, role ∉ reads.map Prod.fst → OperandRole.GivenBy values role token →
        OperandRole.GivenBy last role token := by
  -- No role comes twice, so what is read for one of them stays.
  induction reads generalizing values with
  | nil => exact ⟨values, rfl, fun _ => nofun, fun _ _ _ given => given⟩
  | cons read rest ih =>
      rw [List.map_cons, List.nodup_cons] at distinct
      obtain ⟨next, taken, given, kept⟩ :=
        (accepted read List.mem_cons_self).read values
      obtain ⟨last, reached, all, others⟩ := ih distinct.2
        (fun other member => accepted other (List.mem_cons_of_mem read member)) next
      refine ⟨last, ?_, ?_, ?_⟩
      · rw [List.foldlM_cons, taken]
        exact reached
      · rw [List.forall_mem_cons]
        exact ⟨others read.1 read.2 distinct.1 given, all⟩
      · intro role token absent before
        rw [List.map_cons, List.mem_cons, not_or] at absent
        exact others role token absent.2 (kept role token absent.1 before)

/-- What is read are the operands with their roles. The two orders of a register jump do not
compete, since no literal names a register. -/
theorem OperandPattern.reads_perm (pattern : OperandPattern) (roles : List OperandRole)
    (operands : List Text) (ordered : roles ∈ pattern.orders)
    (accepted : List.Forall₂ OperandRole.Accepts roles operands) :
    (pattern.reads operands).Perm (roles.zip operands) := by
  have lastFirst (one two three : OperandRole × Text) : [three, one, two].Perm [one, two, three] :=
    (List.perm_append_singleton three [one, two]).symm
  cases pattern with
  | registers | immediate | load | store | branch =>
      obtain rfl := List.mem_singleton.mp ordered
      obtain ⟨first, second, third, rfl, -⟩ := accepted_three accepted
      exact .refl _
  | shift =>
      obtain rfl := List.mem_singleton.mp ordered
      obtain ⟨first, second, third, rfl, -⟩ := accepted_three accepted
      exact lastFirst _ _ _
  | jumpRegister =>
      rcases List.mem_pair.mp ordered with rfl | rfl
      · obtain ⟨first, second, third, rfl, -, base, -⟩ := accepted_three accepted
        obtain ⟨register, named⟩ := (accepts_register_iff second).mp base
        simp only [reads, named, Option.isSome_some, if_true]
        exact .swap _ _ _
      · obtain ⟨first, second, third, rfl, -, offset, -⟩ := accepted_three accepted
        have unnamed := IsLiteral.not_register ((accepts_literal_iff second).mp offset)
        simp only [reads, unnamed, Option.isSome_none, Bool.false_eq_true, if_false]
        exact lastFirst _ _ _
  | upper =>
      obtain rfl := List.mem_singleton.mp ordered
      rcases accepted with _ | ⟨first, _ | ⟨second, _ | _⟩⟩
      exact .refl _
  | bare =>
      obtain rfl := List.mem_singleton.mp ordered
      cases accepted
      exact .refl _

theorem OperandPattern.orders_shape (pattern : OperandPattern) (roles : List OperandRole)
    (ordered : roles ∈ pattern.orders) : roles.length = pattern.arity ∧ roles.Nodup := by
  have table : ∀ roles ∈ pattern.orders, roles.length = pattern.arity ∧ roles.Nodup := by
    cases pattern <;> decide
  exact table roles ordered

namespace Descriptor

variable (descriptor : Descriptor)

theorem values_bare (operands : List Text) (values : OperandValues)
    (bare : descriptor.pattern = .bare) (read : descriptor.operandValues? operands = some values) :
    values = { number := descriptor.bareNumber } := by
  have gives := descriptor.gives_of_values operands values read
  rw [bare] at gives
  cases gives with
  | bare => rfl
  | baseFirst _ _ _ _ _ _ _ shape => simp at shape
  | offsetFirst _ _ _ _ _ _ _ shape => simp at shape

theorem values_of_roles (roles : List OperandRole) (operands : List Text)
    (ordered : roles ∈ descriptor.pattern.orders)
    (accepted : List.Forall₂ OperandRole.Accepts roles operands) :
    ∃ values, descriptor.operandValues? operands = some values ∧
      List.Forall₂ (OperandRole.GivenBy values) roles operands := by
  obtain ⟨counted, distinct⟩ := descriptor.pattern.orders_shape roles ordered
  have perm := descriptor.pattern.reads_perm roles operands ordered accepted
  obtain ⟨same, each⟩ := List.forall₂_iff_zip.mp accepted
  have once : ((descriptor.pattern.reads operands).map Prod.fst).Nodup := by
    rw [(perm.map Prod.fst).nodup_iff, List.map_fst_zip (Nat.le_of_eq same)]
    exact distinct
  obtain ⟨values, read, given, -⟩ := read_all _ once
    (fun read member => each (perm.mem_iff.mp member)) descriptor.unread
  refine ⟨values, ?_, List.forall₂_iff_zip.mpr ⟨same, fun member => ?_⟩⟩
  · rwa [descriptor.operandValues_eq_reads operands (same.symm.trans counted)]
  · exact given _ (perm.mem_iff.mpr member)

end Descriptor

/-! Places in the word. -/

theorem Word.slice_field {word : Word} (whole : word.length = 32) (digits : IsBits word)
    (high low : Nat) (ordered : low ≤ high) (inside : high < 32) :
    slice word high low = .ok (binary (high - low + 1)
      ((Word.vector word).extractLsb' low (high - low + 1)).toNat) := by
  have value := binary_unsigned word digits (by omega)
  have bound := unsigned_lt word (by omega)
  rw [whole] at value bound
  have cut := slice_binary 32 (unsigned word) high low ordered inside
  rw [value] at cut
  rw [cut, BitVec.extractLsb'_toNat, Word.vector, BitVec.toNat_ofNat, Nat.mod_eq_of_lt bound,
    Nat.shiftRight_eq_div_pow, binary_mod _ _ _ (Nat.le_refl _)]

theorem Word.read_cons (word : Word) (range : Nat × Nat) (ranges : List (Nat × Nat))
    (part parts : Text) (first : slice word range.1 range.2 = .ok part)
    (rest : word.read ranges = .ok parts) : word.read (range :: ranges) = .ok (part ++ parts) := by
  simp only [Word.read, List.mapM_cons, bind_ok_iff, pure_ok_iff] at rest ⊢
  obtain ⟨later, each, rfl⟩ := rest
  exact ⟨_, ⟨part, first, later, each, rfl⟩, rfl⟩

theorem Word.read_single (word : Word) (range : Nat × Nat) (part : Text)
    (only : slice word range.1 range.2 = .ok part) : word.read [range] = .ok part := by
  rw [word.read_cons range [] part [] only rfl, List.append_nil]

theorem binary_vectors {high low : Nat} (upper : BitVec high) (lower : BitVec low) :
    binary high upper.toNat ++ binary low lower.toNat =
      binary (high + low) (upper ++ lower).toNat := by
  have value : (upper ++ lower).toNat = upper.toNat * 2 ^ low + lower.toNat := by
    rw [BitVec.toNat_append, ← Nat.shiftLeft_add_eq_or_of_lt lower.isLt, Nat.shiftLeft_eq]
  rw [binary_append, value, Nat.add_comm, Nat.add_mul_div_right _ _ (Nat.two_pow_pos _),
    Nat.div_eq_of_lt lower.isLt, Nat.zero_add, ← binary_mod _ _ _ (Nat.le_refl low),
    ← binary_mod low low (_ + _) (Nat.le_refl low), Nat.add_mul_mod_self_right]

namespace Descriptor

variable (descriptor : Descriptor) (valid : descriptor.WellFormed) (values : OperandValues)

include valid

theorem read_field (high low : Nat) (ordered : low ≤ high) (inside : high < 32)
    (field : BitVec (high - low + 1))
    (stored : (Word.vector (descriptor.wordOf values)).extractLsb' low (high - low + 1) = field) :
    Word.read (descriptor.wordOf values) [(high, low)] =
      .ok (binary (high - low + 1) field.toNat) := by
  obtain ⟨whole, digits⟩ := descriptor.wordOf_width valid values
  rw [← stored]
  exact Word.read_single _ (high, low) _ (Word.slice_field whole digits high low ordered inside)

/-- Fixed bits are read as they are in the descriptor. -/
theorem read_fixed (high low : Nat) (ordered : low ≤ high) (inside : high < 32) (bits : Text)
    (digits : IsBits bits) (length : bits.length = high - low + 1)
    (stored : (Word.vector (descriptor.wordOf values)).extractLsb' low (high - low + 1) =
      BitVec.ofNat (high - low + 1) (unsigned bits)) :
    Word.read (descriptor.wordOf values) [(high, low)] = .ok bits := by
  have bound := unsigned_lt bits (by omega)
  rw [length] at bound
  rw [descriptor.read_field valid values high low ordered inside _ stored, BitVec.toNat_ofNat,
    Nat.mod_eq_of_lt bound, ← length, binary_unsigned bits digits (by omega)]

theorem read_register (start : Nat) (inside : start + 4 < 32) (register : Register)
    (stored : (Word.vector (descriptor.wordOf values)).extractLsb' start 5 =
      BitVec.ofNat 5 register.val) :
    Word.read (descriptor.wordOf values) [(start + 4, start)] = .ok (binary 5 register.val) := by
  have width : start + 4 - start + 1 = 5 := by omega
  have read := descriptor.read_fixed valid values (start + 4) start (by omega) inside
    register.bits register.isBits_bits (by rw [width, Register.length_bits])
  rw [width, register.unsigned_bits] at read
  exact read stored

theorem read_rd (present : descriptor.pattern.format ≠ .s) :
    Word.read (descriptor.wordOf values) [(11, 7)] = .ok (binary 5 values.rd.val) := by
  apply descriptor.read_register valid values 7 (by decide)
  cases shape : descriptor.format with
  | r => exact (descriptor.r_fields valid values shape).1
  | i => exact (descriptor.i_fields valid values shape).1
  | s => exact absurd (valid.format ▸ shape) present
  | u =>
      have upper : descriptor.pattern = .upper := by
        rw [valid.format] at shape
        cases pattern : descriptor.pattern <;> simp_all [OperandPattern.format]
      exact (descriptor.upper_fields valid values upper).1

theorem read_rs1 (present : descriptor.pattern.format ≠ .u) :
    Word.read (descriptor.wordOf values) [(19, 15)] = .ok (binary 5 values.rs1.val) := by
  apply descriptor.read_register valid values 15 (by decide)
  cases shape : descriptor.format with
  | r => exact (descriptor.r_fields valid values shape).2.2.1
  | i => exact (descriptor.i_fields valid values shape).2.2
  | s => exact (descriptor.s_fields valid values shape).2.1
  | u => exact absurd (valid.format ▸ shape) present

theorem read_rs2 (present : descriptor.pattern.format = .r ∨ descriptor.pattern.format = .s) :
    Word.read (descriptor.wordOf values) [(24, 20)] = .ok (binary 5 values.rs2.val) := by
  apply descriptor.read_register valid values 20 (by decide)
  rw [← valid.format] at present
  rcases present with shape | shape
  · exact (descriptor.r_fields valid values shape).2.2.2.1
  · exact (descriptor.s_fields valid values shape).2.2

theorem read_number (present : descriptor.pattern ≠ .registers) :
    Word.read (descriptor.wordOf values) (OperandRole.place descriptor.pattern .number) =
      .ok (binary descriptor.pattern.immediateWidth
        (values.number % 2 ^ descriptor.pattern.immediateWidth).toNat) := by
  have residue (width : Nat) :
      (BitVec.ofInt width values.number).toNat = (values.number % 2 ^ width).toNat := by
    rw [BitVec.toNat_ofInt, Int.natCast_pow]
    rfl
  have twelve (format : descriptor.format = .i) (shape : descriptor.pattern ≠ .shift) :
      Word.read (descriptor.wordOf values) [(31, 20)] =
        .ok (binary 12 (values.number % 2 ^ 12).toNat) := by
    rw [← residue]
    exact descriptor.read_field valid values 31 20 (by decide) (by decide) _
      (descriptor.immediate_field valid values format shape)
  have pieces (format : descriptor.format = .s) :
      Word.read (descriptor.wordOf values) [(31, 25), (11, 7)] =
        .ok (binary 12 (values.number % 2 ^ 12).toNat) := by
    obtain ⟨whole, digits⟩ := descriptor.wordOf_width valid values
    have upper := Word.slice_field whole digits 31 25 (by decide) (by decide)
    have lower := Word.slice_field whole digits 11 7 (by decide) (by decide)
    rw [Word.read_cons _ (31, 25) [(11, 7)] _ _ upper (Word.read_single _ (11, 7) _ lower),
      binary_vectors, ← residue, ← descriptor.offset_field valid values format]
  have format := valid.format
  cases shape : descriptor.pattern with
  | registers => exact absurd shape present
  | shift =>
      rw [OperandPattern.immediateWidth, ← residue]
      exact descriptor.read_field valid values 25 20 (by decide) (by decide) _
        (descriptor.shift_fields valid values shape).2
  | upper =>
      rw [OperandPattern.immediateWidth, ← residue]
      exact descriptor.read_field valid values 31 12 (by decide) (by decide) _
        (descriptor.upper_fields valid values shape).2
  | store | branch =>
      rw [shape] at format
      exact pieces format
  | immediate | load | jumpRegister | bare =>
      rw [shape] at format
      exact twelve format (by rw [shape]; decide)

theorem heldBy_of_givenBy (roles : List OperandRole) (ordered : roles ∈ descriptor.pattern.orders)
    (role : OperandRole) (used : role ∈ roles) (operand : Text)
    (given : role.GivenBy values operand) :
    role.HeldBy descriptor.pattern (descriptor.wordOf values) operand := by
  -- Which format has a field for the role can be seen from the table of the patterns.
  cases role with
  | rd =>
      have table : ∀ pattern : OperandPattern, ∀ roles ∈ pattern.orders, .rd ∈ roles →
          pattern.format ≠ .s := by
        intro pattern
        cases pattern <;> decide
      exact ⟨values.rd, (Register.parse_ok_iff _ _).mpr given,
        descriptor.read_rd valid values (table _ roles ordered used)⟩
  | rs1 =>
      have table : ∀ pattern : OperandPattern, ∀ roles ∈ pattern.orders, .rs1 ∈ roles →
          pattern.format ≠ .u := by
        intro pattern
        cases pattern <;> decide
      exact ⟨values.rs1, (Register.parse_ok_iff _ _).mpr given,
        descriptor.read_rs1 valid values (table _ roles ordered used)⟩
  | rs2 =>
      have table : ∀ pattern : OperandPattern, ∀ roles ∈ pattern.orders, .rs2 ∈ roles →
          pattern.format = .r ∨ pattern.format = .s := by
        intro pattern
        cases pattern <;> decide
      exact ⟨values.rs2, (Register.parse_ok_iff _ _).mpr given,
        descriptor.read_rs2 valid values (table _ roles ordered used)⟩
  | number =>
      have table : ∀ pattern : OperandPattern, ∀ roles ∈ pattern.orders, .number ∈ roles →
          pattern ≠ .registers := by
        intro pattern
        cases pattern <;> decide
      exact ⟨values.number, given, descriptor.read_number valid values (table _ roles ordered used)⟩

theorem fills_wordOf (roles : List OperandRole) (operands : List Text)
    (ordered : roles ∈ descriptor.pattern.orders)
    (read : descriptor.operandValues? operands = some values)
    (given : List.Forall₂ (OperandRole.GivenBy values) roles operands) :
    descriptor.Fills roles operands (descriptor.wordOf values) where
  length := (descriptor.wordOf_width valid values).1
  digits := (descriptor.wordOf_width valid values).2
  opcode := descriptor.read_fixed valid values 6 0 (by decide) (by decide) _ valid.opcode_bits
    valid.opcode_length (descriptor.opcode_field valid values)
  funct3 low := descriptor.read_fixed valid values 14 12 (by decide) (by decide) _
    valid.funct3_bits valid.funct3_length (descriptor.funct3_field valid values low)
  funct7 shape := descriptor.read_fixed valid values 31 25 (by decide) (by decide) _
    valid.funct7_bits valid.funct7_length (descriptor.r_fields valid values shape).2.2.2.2
  shift shape := descriptor.read_fixed valid values 31 26 (by decide) (by decide) _
    (fun c member => valid.funct7_bits c (List.mem_of_mem_take member))
    (by rw [List.length_take, valid.funct7_length]; rfl)
    (descriptor.shift_fields valid values shape).1
  operands := by
    have held := descriptor.heldBy_of_givenBy valid values roles ordered
    clear ordered read
    induction given with
    | nil => exact .nil
    | cons first _ ih =>
        exact .cons (held _ List.mem_cons_self _ first)
          (ih fun role used => held role (List.mem_cons_of_mem _ used))
  unused := by
    intro format role fields absent
    -- Only an instruction without operands leaves these fields empty.
    have table : ∀ pattern : OperandPattern, pattern.format = .i → pattern ≠ .bare →
        ∀ roles ∈ pattern.orders, .rd ∈ roles ∧ .rs1 ∈ roles := by
      intro pattern
      cases pattern <;> decide
    rw [valid.format] at format
    have bare : descriptor.pattern = .bare := by
      by_contra other
      obtain ⟨rd, rs1⟩ := table _ format other roles ordered
      rcases fields with rfl | rfl
      · exact absent rd
      · exact absent rs1
    have empty := descriptor.values_bare operands values bare read
    have low : descriptor.pattern.format ≠ .s ∧ descriptor.pattern.format ≠ .u := by
      rw [bare]
      decide
    rw [empty]
    rcases fields with rfl | rfl
    · exact descriptor.read_rd valid _ low.1
    · exact descriptor.read_rs1 valid _ low.2
  bare := by
    intro bare
    have small : descriptor.bareNumber % 2 ^ 12 = descriptor.bareNumber := by
      unfold bareNumber
      split <;> rfl
    have number := descriptor.read_number valid values (by rw [bare]; decide)
    rw [descriptor.values_bare operands values bare read] at number ⊢
    simpa only [bare, OperandRole.place, OperandPattern.immediateWidth, small] using number

end Descriptor

theorem encode_fills (tokens : List Text) (descriptor : Descriptor) (roles : List OperandRole)
    (instruction : IsInstruction tokens descriptor roles) :
    ∃ word, encode tokens = .ok word ∧ descriptor.Fills roles tokens.tail word := by
  obtain ⟨mnemonic, operands, _, _, listed, -, ordered, accepted⟩ := instruction
  have valid := Catalogue.find_wellFormed mnemonic descriptor listed
  obtain ⟨values, read, given⟩ := descriptor.values_of_roles roles operands ordered accepted
  exact ⟨_, (encode_ok_iff mnemonic operands _).mpr ⟨descriptor, values, listed, read, rfl⟩,
    descriptor.fills_wordOf valid values roles operands ordered read given⟩

theorem isInstruction_of_encode (tokens : List Text) (word : Word)
    (encoded : encode tokens = .ok word) :
    ∃ descriptor roles, IsInstruction tokens descriptor roles := by
  cases tokens with
  | nil => cases encoded
  | cons mnemonic operands =>
      obtain ⟨descriptor, values, listed, read, -⟩ :=
        (encode_ok_iff mnemonic operands word).mp encoded
      have valid := Catalogue.find_wellFormed mnemonic descriptor listed
      obtain ⟨roles, ordered, given⟩ := (descriptor.gives_of_values operands values read).roles
      have counted := (descriptor.matchOperands_ok_iff valid operands _).mpr ⟨values, read, rfl⟩
      exact ⟨descriptor, roles, mnemonic, operands, _, _, listed, counted.1, ordered,
        given.imp fun _ _ => OperandRole.GivenBy.accepts⟩

/-! Refusals. -/

section Refused

variable {mnemonic operand : Text} {operands : List Text} (written : operand ∈ operands)

include written

theorem registerField_refused :
    FailsWithin (Refused (mnemonic :: operands)) (Descriptor.registerField operand) := by
  rw [Descriptor.registerField, Register.parse]
  cases unnamed : Register.ofName? operand with
  | none => exact failsWithin_error _ _ (.register mnemonic operands operand written unnamed)
  | some register => exact failsWithin_ok _ _

theorem field_refused (width : Nat) (positive : 0 < width) (narrow : width ≤ 64) :
    FailsWithin (Refused (mnemonic :: operands)) (Literal.field operand width) := by
  cases unread : Literal.value? operand with
  | none =>
      rw [Literal.field, Literal.twosComplement, unread]
      exact failsWithin_error _ _ (.literal mnemonic operands operand written unread)
  | some value =>
      rw [(Literal.field_ok_iff operand _ width positive narrow).mpr ⟨value, unread, rfl⟩]
      exact failsWithin_ok _ _

end Refused

section Descriptor

variable (descriptor : Descriptor) (mnemonic : Text)

theorem reads_written (pattern : OperandPattern) (operands : List Text) :
    ∀ read ∈ pattern.reads operands, read.2 ∈ operands := by
  fun_cases pattern.reads operands <;> simp

theorem readField_refused {operands : List Text} (read : OperandRole × Text)
    (used : read.1 = .number → descriptor.pattern ≠ .registers) (written : read.2 ∈ operands)
    (fields : WordFields) :
    FailsWithin (Refused (mnemonic :: operands)) (descriptor.readField fields read) := by
  obtain ⟨role, token⟩ := read
  cases role with
  | rd | rs1 | rs2 => exact (registerField_refused written).bind fun _ _ => failsWithin_ok _ _
  | number =>
      obtain ⟨positive, narrow⟩ := Descriptor.immediateWidth_present _ (used rfl)
      exact (field_refused written _ positive narrow).bind fun _ _ => failsWithin_ok _ _

theorem readOperands_refused (valid : descriptor.WellFormed) (operands : List Text)
    (listed : Catalogue.find? mnemonic = some descriptor) :
    FailsWithin (Refused (mnemonic :: operands)) (descriptor.readOperands operands) := by
  have name : descriptor.mnemonic = mnemonic := by simpa using List.find?_some listed
  unfold Descriptor.readOperands
  split
  · rename_i counted
    rw [descriptor.matchOperands_eq_reads valid operands counted]
    refine failsWithin_foldlM _ _ _ (fun read member fields => ?_) _
    exact readField_refused descriptor mnemonic read
      (Descriptor.reads_number _ operands read member)
      (reads_written _ operands read member) fields
  · rename_i miscounted
    rw [name]
    exact failsWithin_error _ _ (.arity mnemonic operands descriptor listed miscounted)

end Descriptor

theorem encode_refused (tokens : List Text) : FailsWithin (Refused tokens) (encode tokens) := by
  cases tokens with
  | nil => exact failsWithin_error _ _ .empty
  | cons mnemonic operands =>
      rw [encode, Catalogue.lookup]
      cases listed : Catalogue.find? mnemonic with
      | none => exact failsWithin_error _ _ (.mnemonic mnemonic operands listed)
      | some descriptor =>
          have valid := Catalogue.find_wellFormed mnemonic descriptor listed
          refine (readOperands_refused descriptor mnemonic valid operands listed).bind
            fun fields read => ?_
          obtain ⟨word, laid⟩ := readOperands_layout descriptor valid operands fields read
          rw [laid]
          exact failsWithin_ok _ _

/-- Encoding accepts exactly the instructions of the catalogue, fills the word with them, and
otherwise says what is wrong with the tokens. -/
theorem encode_accepts_exactly (tokens : List Text) :
    ((∃ word, encode tokens = .ok word) ↔
      ∃ descriptor roles, IsInstruction tokens descriptor roles) ∧
    (∀ word descriptor roles, encode tokens = .ok word → IsInstruction tokens descriptor roles →
      descriptor.Fills roles tokens.tail word) ∧
    ∀ cause, encode tokens = .error cause → Refused tokens cause := by
  refine ⟨⟨?_, ?_⟩, ?_, encode_refused tokens⟩
  · rintro ⟨word, encoded⟩
    exact isInstruction_of_encode tokens word encoded
  · rintro ⟨descriptor, roles, instruction⟩
    obtain ⟨word, encoded, -⟩ := encode_fills tokens descriptor roles instruction
    exact ⟨word, encoded⟩
  · intro word descriptor roles encoded instruction
    obtain ⟨other, same, fills⟩ := encode_fills tokens descriptor roles instruction
    rw [encoded] at same
    cases same
    exact fills

/-- A register jump with its offset in front, and one whose base is no register. -/
theorem encode_accepts_exactly_jump :
    let jump := ["jalr", "ra", "-8", "sp"].map String.toList
    let broken := ["jalr", "ra", "8", "main"].map String.toList
    let roles : List OperandRole := [.rd, .number, .rs1]
    let word := "11111111100000010000000011100111".toList
    (∃ descriptor, encode jump = .ok word ∧ IsInstruction jump descriptor roles ∧
      descriptor.Fills roles jump.tail word) ∧
    encode broken = .error (.invalidRegister "main".toList) ∧
      Refused broken (.invalidRegister "main".toList) := by
  have instruction : IsInstruction (["jalr", "ra", "-8", "sp"].map String.toList) _
      [.rd, .number, .rs1] :=
    .tokens _ _ _ _ rfl rfl (by decide)
      (.cons ⟨_, rfl⟩ (.cons ⟨_, rfl⟩ (.cons ⟨_, rfl⟩ .nil)))
  exact ⟨⟨_, rfl, instruction, (encode_accepts_exactly _).2.1 _ _ _ rfl instruction⟩, rfl,
    (encode_accepts_exactly _).2.2 _ rfl⟩

end RiscAssembly
