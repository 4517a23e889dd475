import RiscAssembly.Proofs.Encoding
import RiscAssembly.Proofs.Expansion

/-!
Operands that an instruction accepts, read backwards: from the fact that they have values
to what each of them is. Every operand names a register or is a literal, and the values
leave empty what the pattern of the instruction has no operand for. The same holds of what
is expanded first, since no expansion drops an operand unread.
-/

namespace RiscAssembly

/-- How operands under a pattern give their values; `fixed` is the number of an instruction
without operands. A register jump takes its base and its offset in either order. -/
inductive OperandPattern.Gives (fixed : Int) :
    OperandPattern → List Text → OperandValues → Prop
  | registers (first second third : Text) (rd rs1 rs2 : Register)
      (rdNamed : Register.ofName? first = some rd)
      (rs1Named : Register.ofName? second = some rs1)
      (rs2Named : Register.ofName? third = some rs2) :
      Gives fixed .registers [first, second, third] { rd, rs1, rs2 }
  | baseFirst (pattern : OperandPattern) (first second third : Text) (rd rs1 : Register)
      (number : Int) (shape : pattern ∈ [.immediate, .shift, .jumpRegister])
      (rdNamed : Register.ofName? first = some rd)
      (rs1Named : Register.ofName? second = some rs1)
      (value : Literal.value? third = some number) :
      Gives fixed pattern [first, second, third] { rd, rs1, number }
  | offsetFirst (pattern : OperandPattern) (first second third : Text) (rd rs1 : Register)
      (number : Int) (shape : pattern ∈ [.load, .jumpRegister])
      (rdNamed : Register.ofName? first = some rd)
      (value : Literal.value? second = some number)
      (rs1Named : Register.ofName? third = some rs1) :
      Gives fixed pattern [first, second, third] { rd, rs1, number }
  | store (first second third : Text) (rs1 rs2 : Register) (number : Int)
      (rs2Named : Register.ofName? first = some rs2)
      (value : Literal.value? second = some number)
      (rs1Named : Register.ofName? third = some rs1) :
      Gives fixed .store [first, second, third] { rs1, rs2, number }
  | branch (first second third : Text) (rs1 rs2 : Register) (number : Int)
      (rs1Named : Register.ofName? first = some rs1)
      (rs2Named : Register.ofName? second = some rs2)
      (value : Literal.value? third = some number) :
      Gives fixed .branch [first, second, third] { rs1, rs2, number }
  | upper (first second : Text) (rd : Register) (number : Int)
      (rdNamed : Register.ofName? first = some rd)
      (value : Literal.value? second = some number) :
      Gives fixed .upper [first, second] { rd, number }
  | bare : Gives fixed .bare [] { number := fixed }

theorem Descriptor.gives_of_values (descriptor : Descriptor) (operands : List Text)
    (values : OperandValues) (read : descriptor.operandValues? operands = some values) :
    descriptor.pattern.Gives descriptor.bareNumber operands values := by
  unfold operandValues? at read
  split at read
  · split at read
    · rename_i shape
      cases read
      rw [shape]
      exact .bare
    · cases read
  · split at read
    · rename_i shape
      simp only [Option.bind_eq_bind, Option.bind_eq_some_iff, Option.pure_def,
        Option.some.injEq] at read
      obtain ⟨rd, named, number, value, rfl⟩ := read
      rw [shape]
      exact .upper _ _ rd number named value
    · cases read
  · split at read <;> rename_i shape <;> rw [shape] <;>
      simp only [Option.bind_eq_bind, Option.bind_eq_some_iff, Option.pure_def,
        Option.some.injEq, reduceCtorEq] at read
    · obtain ⟨rd, first, rs1, second, rs2, third, rfl⟩ := read
      exact .registers _ _ _ rd rs1 rs2 first second third
    · obtain ⟨rd, first, rs1, second, number, third, rfl⟩ := read
      exact .baseFirst _ _ _ _ rd rs1 number (by decide) first second third
    · obtain ⟨rd, first, rs1, second, number, third, rfl⟩ := read
      exact .baseFirst _ _ _ _ rd rs1 number (by decide) first second third
    · obtain ⟨rd, first, rs1, third, number, second, rfl⟩ := read
      exact .offsetFirst _ _ _ _ rd rs1 number (by decide) first second third
    · obtain ⟨rd, first, rest⟩ := read
      split at rest <;> simp only [Option.bind_eq_some_iff, Option.some.injEq] at rest
      · rename_i rs1 second
        obtain ⟨number, third, rfl⟩ := rest
        exact .baseFirst _ _ _ _ rd rs1 number (by decide) first second third
      · obtain ⟨rs1, third, number, second, rfl⟩ := rest
        exact .offsetFirst _ _ _ _ rd rs1 number (by decide) first second third
    · obtain ⟨rs1, third, rs2, first, number, second, rfl⟩ := read
      exact .store _ _ _ rs1 rs2 number first second third
    · obtain ⟨rs1, first, rs2, second, number, third, rfl⟩ := read
      exact .branch _ _ _ rs1 rs2 number first second third
  · cases read

/-- Values with nothing in the slots that a pattern does not have. -/
def OperandPattern.keep : OperandPattern → OperandValues → OperandValues
  | .registers, values => { values with number := 0 }
  | .store, values | .branch, values => { values with rd := .zero }
  | .upper, values => { rd := values.rd, number := values.number }
  | .bare, values => { number := values.number }
  | _, values => { values with rs2 := .zero }

theorem OperandPattern.Gives.keep_eq {fixed : Int} {pattern : OperandPattern}
    {operands : List Text} {values : OperandValues}
    (gives : pattern.Gives fixed operands values) : pattern.keep values = values := by
  cases gives with
  | baseFirst _ first second third rd rs1 number shape =>
      simp only [List.mem_cons, List.not_mem_nil, or_false] at shape
      rcases shape with rfl | rfl | rfl <;> rfl
  | offsetFirst _ first second third rd rs1 number shape =>
      simp only [List.mem_cons, List.not_mem_nil, or_false] at shape
      rcases shape with rfl | rfl <;> rfl
  | _ => rfl

/-! Registers and literals. -/

/-- A token that names a register or is a literal. -/
def IsOperand (token : Text) : Prop :=
  (∃ register, Register.ofName? token = some register) ∨
    ∃ number, Literal.value? token = some number

theorem isOperand_triple (first second third : Text) (isFirst : IsOperand first)
    (isSecond : IsOperand second) (isThird : IsOperand third) :
    ∀ operand ∈ [first, second, third], IsOperand operand := by
  simp [isFirst, isSecond, isThird]

theorem OperandPattern.Gives.isOperand {fixed : Int} {pattern : OperandPattern}
    {operands : List Text} {values : OperandValues}
    (gives : pattern.Gives fixed operands values) : ∀ operand ∈ operands, IsOperand operand := by
  cases gives with
  | bare => simp
  | upper first second rd number rdNamed value =>
      rw [List.forall_mem_cons, List.forall_mem_singleton]
      exact ⟨.inl ⟨rd, rdNamed⟩, .inr ⟨number, value⟩⟩
  | registers first second third rd rs1 rs2 rdNamed rs1Named rs2Named =>
      exact isOperand_triple first second third (.inl ⟨rd, rdNamed⟩) (.inl ⟨rs1, rs1Named⟩)
        (.inl ⟨rs2, rs2Named⟩)
  | baseFirst _ first second third rd rs1 number shape rdNamed rs1Named value =>
      exact isOperand_triple first second third (.inl ⟨rd, rdNamed⟩) (.inl ⟨rs1, rs1Named⟩)
        (.inr ⟨number, value⟩)
  | offsetFirst _ first second third rd rs1 number shape rdNamed value rs1Named =>
      exact isOperand_triple first second third (.inl ⟨rd, rdNamed⟩) (.inr ⟨number, value⟩)
        (.inl ⟨rs1, rs1Named⟩)
  | store first second third rs1 rs2 number rs2Named value rs1Named =>
      exact isOperand_triple first second third (.inl ⟨rs2, rs2Named⟩) (.inr ⟨number, value⟩)
        (.inl ⟨rs1, rs1Named⟩)
  | branch first second third rs1 rs2 number rs1Named rs2Named value =>
      exact isOperand_triple first second third (.inl ⟨rs1, rs1Named⟩) (.inl ⟨rs2, rs2Named⟩)
        (.inr ⟨number, value⟩)

theorem encode_operands (tokens : List Text) (word : Word) (encoded : encode tokens = .ok word) :
    ∀ operand ∈ tokens.tail, IsOperand operand := by
  cases tokens with
  | nil => cases encoded
  | cons mnemonic operands =>
      obtain ⟨descriptor, values, -, read, -⟩ := (encode_ok_iff mnemonic operands word).mp encoded
      exact (descriptor.gives_of_values operands values read).isOperand

/-! Operands of pseudo-instructions. -/

theorem load_operands (expansion : Expansion)
    (load : expansion = .loadAddress ∨ expansion = .loadImmediate) (operands : List Text)
    (machine : List (List Text)) (words : List Word)
    (applied : expansion.apply operands = .ok machine)
    (encoded : List.Forall₂ (fun tokens word => encode tokens = .ok word) machine words) :
    ∀ operand ∈ operands, IsOperand operand := by
  obtain ⟨rd, literal, n, rfl, read, rfl⟩ := expansion.load_ok load operands machine applied
  obtain ⟨number, value, -⟩ := (Literal.number_ok_iff literal n).mp read
  -- The register is among the operands of the first instruction.
  have register : IsOperand rd := by
    rcases load with rfl | rfl
    · cases encoded with
      | cons head _ => exact encode_operands _ _ head rd List.mem_cons_self
    · cases encoded with
      | cons head _ => exact encode_operands _ _ head rd List.mem_cons_self
  rw [List.forall_mem_cons, List.forall_mem_singleton]
  exact ⟨register, .inr ⟨number, value⟩⟩

/-- Every operand of a template has a place behind the mnemonic. -/
def Expansion.placesAll (arity : Nat) : Expansion → Bool
  | .template slots => (List.range arity).all fun index => slots.tail.contains (.operand index)
  | _ => true

theorem template_operands (slots : List Slot) (operands tokens : List Text)
    (filled : slots.mapM (Slot.fill operands) = .ok tokens)
    (places : (Expansion.template slots).placesAll operands.length = true) :
    ∀ operand ∈ operands, operand ∈ tokens.tail := by
  intro operand member
  obtain ⟨index, inside, found⟩ := List.mem_iff_getElem.mp member
  have slot : Slot.operand index ∈ slots.tail := by
    simpa using List.all_eq_true.mp places index (List.mem_range.mpr inside)
  have behind : slots.tail.map (Slot.fill operands) = tokens.tail.map .ok := by
    rw [List.map_tail, List.map_tail, (fillAll_ok_iff operands slots tokens).mp filled]
  have copied : Slot.fill operands (.operand index) = .ok operand := by
    simp [Slot.fill, List.getElem?_eq_getElem inside, found]
  have listed := List.mem_map_of_mem (f := Slot.fill operands) slot
  rw [behind, copied, List.mem_map] at listed
  obtain ⟨token, placed, same⟩ := listed
  cases same
  exact placed

/-- What encodes after expansion had registers and literals for operands to begin with. -/
theorem expand_operands (mnemonic : Text) (operands : List Text) (machine : List (List Text))
    (words : List Word) (expanded : expand (mnemonic :: operands) = .ok machine)
    (encoded : List.Forall₂ (fun tokens word => encode tokens = .ok word) machine words) :
    ∀ operand ∈ operands, IsOperand operand := by
  have table : ∀ p ∈ Pseudo.all, p.expansion.placesAll p.arity = true := by decide
  rcases (expand_ok_iff mnemonic operands machine).mp expanded with
    ⟨pseudo, found, counted, applied⟩ | ⟨-, -, rfl⟩
  · have places := table pseudo (List.mem_of_find?_eq_some found)
    rw [← counted] at places
    cases shape : pseudo.expansion with
    | template slots =>
        rw [shape] at applied places
        simp only [Expansion.apply, bind_ok_iff, pure_ok_iff] at applied
        obtain ⟨tokens, filled, rfl⟩ := applied
        cases encoded with
        | cons first rest =>
            intro operand member
            exact encode_operands tokens _ first operand
              (template_operands slots operands tokens filled places operand member)
    | loadAddress => exact load_operands _ (.inl shape) operands machine words applied encoded
    | loadImmediate => exact load_operands _ (.inr shape) operands machine words applied encoded
  · cases encoded with
    | cons first rest => exact encode_operands (mnemonic :: operands) _ first

end RiscAssembly
