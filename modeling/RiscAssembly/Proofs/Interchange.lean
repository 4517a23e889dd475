import RiscAssembly.Proofs.Agreement
import RiscAssembly.Proofs.Encoding
import RiscAssembly.Proofs.Expansion
import RiscAssembly.Proofs.RegisterNames

/-!
Literals in place of each other. No literal is spelled like a register, and every literal is
cut to the width that is asked for; so an instruction that has other literals for its
operands expands and encodes exactly if it did before, to as many words, and what it fails
with otherwise is the same, apart from the spelling of a literal that should be a register.
-/

namespace RiscAssembly

open Text BitString

/-- Equal tokens, or two literals. -/
def Interchangeable (left right : Text) : Prop := left = right ∨ IsLiteral left ∧ IsLiteral right

/-- The same error, or two tokens that should have been registers. -/
inductive SameKind : InstructionError → InstructionError → Prop
  | same (cause : InstructionError) : SameKind cause cause
  | register (left right : Text) : SameKind (.invalidRegister left) (.invalidRegister right)

/-! Literals are no registers. -/

/-- The characters that a literal can start with. -/
def startsLiteral : Text → Bool
  | [] => false
  | c :: _ => isDigit c || c = '+' || c = '-'

theorem Register.ofName_starts (text : Text) (register : Register)
    (named : ofName? text = some register) : startsLiteral text = false := by
  cases (ofName_iff text register).mp named with
  | name =>
      have table : ∀ register : Register, startsLiteral register.name = false := by decide
      exact table register
  | frame => rfl
  | number mark marked => rcases marked with rfl | rfl <;> rfl

theorem natural_ten_starts (digits : Text) (n : Nat) (read : natural? 10 digits = some n) :
    startsLiteral digits = true := by
  obtain ⟨some, valid, -⟩ := (natural_ten_iff digits n).mp read
  cases digits with
  | nil => exact absurd rfl some
  | cons c rest =>
      rw [startsLiteral, isDigit_eq, valid c List.mem_cons_self]
      rfl

theorem Literal.magnitude_starts (body : Text) (n : Nat) (read : magnitude? body = some n) :
    startsLiteral body = true := by
  unfold magnitude? at read
  split at read
  · rfl
  · rfl
  · exact natural_ten_starts _ n read

theorem Literal.value_starts (token : Text) (number : Int) (read : value? token = some number) :
    startsLiteral token = true := by
  unfold value? at read
  split at read
  · cases read
  · rename_i magnitude found
    unfold signAndBody at found
    split at found
    · rfl
    · rfl
    · exact magnitude_starts _ magnitude found

theorem IsLiteral.not_register {token : Text} (literal : IsLiteral token) :
    Register.ofName? token = none := by
  obtain ⟨number, value⟩ := literal
  cases named : Register.ofName? token with
  | none => rfl
  | some register =>
      have starts := Literal.value_starts token number value
      rw [Register.ofName_starts token register named] at starts
      cases starts

/-! Fields of a word. -/

theorem registerField_agree (left right : Text) (same : Interchangeable left right) :
    Agree SameKind Eq (Descriptor.registerField left) (Descriptor.registerField right) := by
  rcases same with rfl | ⟨leftLiteral, rightLiteral⟩
  · exact .refl _ .same fun _ => rfl
  · rw [Descriptor.registerField, Descriptor.registerField, Register.parse, Register.parse,
      leftLiteral.not_register, rightLiteral.not_register]
    exact .error (.register left right)

theorem field_agree (width : Nat) (positive : 0 < width) (narrow : width ≤ 64)
    (left right : Text) (same : Interchangeable left right) :
    Agree SameKind (fun _ _ => True) (Literal.field left width) (Literal.field right width) := by
  rcases same with rfl | ⟨⟨leftNumber, leftValue⟩, rightNumber, rightValue⟩
  · exact .refl _ .same fun _ => trivial
  · rw [(Literal.field_ok_iff left _ width positive narrow).mpr ⟨leftNumber, leftValue, rfl⟩,
      (Literal.field_ok_iff right _ width positive narrow).mpr ⟨rightNumber, rightValue, rfl⟩]
    exact .ok trivial

theorem Interchangeable.ofName_eq {left right : Text} (same : Interchangeable left right) :
    Register.ofName? left = Register.ofName? right := by
  rcases same with rfl | ⟨leftLiteral, rightLiteral⟩
  · rfl
  · rw [leftLiteral.not_register, rightLiteral.not_register]

section Descriptor

variable (descriptor : Descriptor)

theorem readField_agree (role : OperandRole) (left right : Text)
    (used : role = .number → descriptor.pattern ≠ .registers)
    (same : Interchangeable left right) (fields others : WordFields) :
    Agree SameKind (fun _ _ => True) (descriptor.readField fields (role, left))
      (descriptor.readField others (role, right)) := by
  cases role with
  | rd | rs1 | rs2 => exact (registerField_agree left right same).bind fun _ _ _ => .ok trivial
  | number =>
      obtain ⟨positive, narrow⟩ := Descriptor.immediateWidth_present _ (used rfl)
      exact (field_agree _ positive narrow left right same).bind fun _ _ _ => .ok trivial

/-- Which operand a register jump takes for its base does not change, since it is a register. -/
theorem reads_agree (pattern : OperandPattern) (lefts rights : List Text)
    (same : List.Forall₂ Interchangeable lefts rights) :
    List.Forall₂ (fun left right => left.1 = right.1 ∧ Interchangeable left.2 right.2 ∧
        (left.1 = .number → pattern ≠ .registers))
      (pattern.reads lefts) (pattern.reads rights) := by
  rcases same with _ | ⟨first, _ | ⟨second, _ | ⟨third, _ | ⟨fourth, rest⟩⟩⟩⟩
  · cases pattern <;> exact .nil
  · cases pattern <;> exact .nil
  · cases pattern with
    | upper => simp [OperandPattern.reads, first, second]
    | _ => exact .nil
  · have base := second.ofName_eq
    cases pattern with
    | upper | bare => exact .nil
    | jumpRegister =>
        simp only [OperandPattern.reads, base]
        split <;> simp [first, second, third]
    | _ => simp [OperandPattern.reads, first, second, third]
  · cases pattern <;> exact .nil

theorem readOperands_agree (valid : descriptor.WellFormed) (lefts rights : List Text)
    (same : List.Forall₂ Interchangeable lefts rights) :
    Agree SameKind (fun _ _ => True) (descriptor.readOperands lefts)
      (descriptor.readOperands rights) := by
  simp only [Descriptor.readOperands, same.length_eq]
  by_cases counted : rights.length = descriptor.pattern.arity
  · simp only [counted, if_true]
    rw [descriptor.matchOperands_eq_reads valid lefts (same.length_eq.trans counted),
      descriptor.matchOperands_eq_reads valid rights counted]
    refine agree_foldlM ?_ (reads_agree descriptor.pattern lefts rights same) trivial
    rintro ⟨role, left⟩ ⟨_, right⟩ fields others ⟨rfl, tokens, used⟩ -
    exact readField_agree descriptor role left right used tokens fields others
  · simp only [counted, if_false]
    exact .error (.same _)

/-- Fields that were read fit into the word. -/
theorem readOperands_layout (valid : descriptor.WellFormed) (operands : List Text)
    (fields : WordFields) (read : descriptor.readOperands operands = .ok fields) :
    ∃ word, descriptor.layout descriptor.format fields = .ok word := by
  unfold Descriptor.readOperands at read
  split at read
  · rename_i counted
    obtain ⟨values, -, rfl⟩ :=
      (descriptor.matchOperands_ok_iff valid operands fields).mp ⟨counted, read⟩
    exact ⟨_, descriptor.layout_fieldsOf valid values⟩
  · cases read

end Descriptor

theorem encode_agree (mnemonic : Text) (lefts rights : List Text)
    (same : List.Forall₂ Interchangeable lefts rights) :
    Agree SameKind (fun _ _ => True) (encode (mnemonic :: lefts))
      (encode (mnemonic :: rights)) := by
  rw [encode, encode, Catalogue.lookup]
  cases found : Catalogue.find? mnemonic with
  | none => exact .error (.same _)
  | some descriptor =>
      have valid := Catalogue.find_wellFormed mnemonic descriptor found
      -- The layout checks widths once more, and never finds fault with fields that were read.
      have fits := readOperands_layout descriptor valid
      have fields : Agree SameKind
          (fun left right => (∃ word, descriptor.layout descriptor.format left = .ok word) ∧
            ∃ word, descriptor.layout descriptor.format right = .ok word)
          (descriptor.readOperands lefts) (descriptor.readOperands rights) :=
        (readOperands_agree descriptor valid lefts rights same).imp
          fun left right leftRead rightRead _ =>
            ⟨fits lefts left leftRead, fits rights right rightRead⟩
      refine fields.bind fun left right laid => ?_
      obtain ⟨⟨leftWord, leftLaid⟩, rightWord, rightLaid⟩ := laid
      rw [leftLaid, rightLaid]
      exact .ok trivial

/-! Expansions. -/

/-- Tokens with one mnemonic and interchangeable operands. -/
inductive SameShape : List Text → List Text → Prop
  | tokens (mnemonic : Text) (lefts rights : List Text)
      (same : List.Forall₂ Interchangeable lefts rights) :
      SameShape (mnemonic :: lefts) (mnemonic :: rights)

theorem Slot.fill_agree (slot : Slot) (lefts rights : List Text)
    (same : List.Forall₂ Interchangeable lefts rights) :
    Agree SameKind Interchangeable (slot.fill lefts) (slot.fill rights) := by
  cases slot with
  | token text => exact .ok (.inl rfl)
  | operand index =>
      induction same generalizing index with
      | nil => exact .error (.same _)
      | cons first _ ih =>
          cases index with
          | zero => exact .ok first
          | succ index => exact ih index

/-- The mnemonic of a template is given. -/
def Expansion.headed : Expansion → Bool
  | .template (.token _ :: _) => true
  | .template _ => false
  | _ => true

theorem template_agree (slots : List Slot) (headed : (Expansion.template slots).headed = true)
    (lefts rights : List Text) (same : List.Forall₂ Interchangeable lefts rights) :
    Agree SameKind SameShape (slots.mapM (Slot.fill lefts)) (slots.mapM (Slot.fill rights)) := by
  rcases slots with _ | ⟨_ | text, rest⟩
  · cases headed
  · cases headed
  · rw [List.mapM_cons, List.mapM_cons]
    have operands : Agree SameKind (List.Forall₂ Interchangeable) (rest.mapM (Slot.fill lefts))
        (rest.mapM (Slot.fill rights)) := by
      refine agree_mapM ?_ (List.forall₂_same.mpr fun slot _ => (rfl : slot = slot))
      rintro slot _ rfl
      exact slot.fill_agree lefts rights same
    exact operands.bind fun left right filled => .ok (.tokens text left right filled)

theorem number_agree (left right : Text) (same : Interchangeable left right) :
    Agree SameKind (fun _ _ => True) (Literal.number left) (Literal.number right) := by
  rcases same with rfl | ⟨⟨leftNumber, leftValue⟩, rightNumber, rightValue⟩
  · exact .refl _ .same fun _ => trivial
  · rw [Literal.number, Literal.number, leftValue, rightValue]
    exact .ok trivial

theorem isLiteral_decimal (n : Nat) (small : n < 2 ^ 64) : IsLiteral (decimal n) :=
  ⟨n, Literal.value_decimal n small⟩

theorem isLiteral_chunk (width n : Nat) (narrow : width ≤ 64) :
    IsLiteral (decimal (unsigned (binary width n))) := by
  have below := unsigned_lt (binary width n) (by rwa [length_binary])
  rw [length_binary] at below
  exact isLiteral_decimal _ (Nat.lt_of_lt_of_le below (Nat.pow_le_pow_right (by decide) narrow))

theorem isLiteral_upper (n : Nat) (lower : Text) :
    IsLiteral (decimal (upperPart (binary 20 n) lower)) := by
  unfold upperPart
  split
  · exact isLiteral_decimal _ (Nat.lt_of_lt_of_le (Nat.mod_lt _ (by decide)) (by decide))
  · exact isLiteral_chunk 20 n (by decide)

theorem isLiteral_lower (n : Nat) : IsLiteral (signedDecimal (signed (binary 12 n))) := by
  rw [signed_binary 12 n (by decide)]
  obtain ⟨-, -, least, most⟩ := bmod_two_pow 12 (by decide) n
  exact ⟨_, Literal.value_signedDecimal _ (by omega) (by omega)⟩

theorem loadChunks_shape (rd rd' : Text) (register : Interchangeable rd rd') (n m : Nat) :
    List.Forall₂ SameShape (loadChunks rd n) (loadChunks rd' m) := by
  have add (width k l : Nat) (narrow : width ≤ 64) :
      SameShape (addChunk rd (binary width k)) (addChunk rd' (binary width l)) :=
    .tokens _ _ _ (.cons register
      (.cons (.inr ⟨isLiteral_chunk width k narrow, isLiteral_chunk width l narrow⟩) .nil))
  have room : SameShape (makeRoom rd) (makeRoom rd') :=
    .tokens _ _ _ (.cons register (.cons register (.cons (.inl rfl) .nil)))
  have clear : SameShape ["addi".toList, rd, "zero".toList, "0".toList]
      ["addi".toList, rd', "zero".toList, "0".toList] :=
    .tokens _ _ _ (.cons register (.cons (.inl rfl) (.cons (.inl rfl) .nil)))
  exact .cons clear (.cons (add 4 _ _ (by decide)) (.cons room (.cons (add 20 _ _ (by decide))
    (.cons room (.cons (add 20 _ _ (by decide)) (.cons room
      (.cons (add 20 _ _ (by decide)) .nil)))))))

theorem Expansion.load_agree (expansion : Expansion)
    (load : expansion = .loadAddress ∨ expansion = .loadImmediate) (lefts rights : List Text)
    (same : List.Forall₂ Interchangeable lefts rights) :
    Agree SameKind (List.Forall₂ SameShape) (expansion.apply lefts) (expansion.apply rights) := by
  rcases same with _ | ⟨register, _ | ⟨number, _ | ⟨third, rest⟩⟩⟩
  · rcases load with rfl | rfl <;> exact .error (.same _)
  · rcases load with rfl | rfl <;> exact .error (.same _)
  · rw [expansion.apply_load load, expansion.apply_load load]
    refine (number_agree _ _ number).bind fun n m _ => .ok ?_
    rcases load with rfl | rfl
    · refine .cons (.tokens _ _ _ ?_) (.cons (.tokens _ _ _ ?_) .nil)
      · exact .cons register (.cons (.inr ⟨isLiteral_upper _ _, isLiteral_upper _ _⟩) .nil)
      · exact .cons register (.cons register
          (.cons (.inr ⟨isLiteral_lower _, isLiteral_lower _⟩) .nil))
    · exact loadChunks_shape _ _ register n m
  · rcases load with rfl | rfl <;> exact .error (.same _)

theorem Expansion.apply_agree (expansion : Expansion) (headed : expansion.headed = true)
    (lefts rights : List Text) (same : List.Forall₂ Interchangeable lefts rights) :
    Agree SameKind (List.Forall₂ SameShape) (expansion.apply lefts) (expansion.apply rights) := by
  cases expansion with
  | template slots =>
      exact (template_agree slots headed lefts rights same).bind fun _ _ filled =>
        .ok (.cons filled .nil)
  | loadAddress => exact load_agree _ (.inl rfl) lefts rights same
  | loadImmediate => exact load_agree _ (.inr rfl) lefts rights same

theorem expand_agree (mnemonic : Text) (lefts rights : List Text)
    (same : List.Forall₂ Interchangeable lefts rights) :
    Agree SameKind (List.Forall₂ SameShape) (expand (mnemonic :: lefts))
      (expand (mnemonic :: rights)) := by
  have table : ∀ p ∈ Pseudo.all, p.expansion.headed = true := by decide
  rw [expand, expand]
  cases found : Pseudo.find? mnemonic with
  | none =>
      cases Catalogue.find? mnemonic with
      | none => exact .error (.same _)
      | some descriptor => exact .ok (.cons (.tokens mnemonic lefts rights same) .nil)
  | some pseudo =>
      have headed := table pseudo (List.mem_of_find?_eq_some found)
      simp only [Pseudo.expand, same.length_eq]
      by_cases counted : rights.length = pseudo.arity
      · simp only [counted, if_true]
        have applied := pseudo.expansion.apply_agree headed lefts rights same
        refine applied.bind fun left right shapes => ?_
        simp only [shapes.length_eq]
        by_cases sized : right.length * 4 = pseudo.size
        · simp only [sized, if_true]
          exact .ok shapes
        · simp only [sized, if_false]
          exact .error (.same _)
      · simp only [counted, if_false]
        exact .error (.same _)

theorem encodeAll_agree (lefts rights : List (List Text))
    (same : List.Forall₂ SameShape lefts rights) :
    Agree SameKind (fun left right => left.length = right.length) (encodeAll lefts)
      (encodeAll rights) := by
  induction same with
  | nil => exact .ok rfl
  | cons first _ ih =>
      obtain ⟨mnemonic, left, right, operands⟩ := first
      rw [encodeAll, encodeAll]
      refine (encode_agree mnemonic left right operands).bind fun _ _ _ => ?_
      refine ih.bind fun _ _ lengths => .ok ?_
      rw [List.length_cons, List.length_cons, lengths]

end RiscAssembly
