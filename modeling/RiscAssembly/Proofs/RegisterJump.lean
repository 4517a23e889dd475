import RiscAssembly.Proofs.FirstFailure
import RiscAssembly.Proofs.OperandGrammar
import RiscAssembly.Proofs.Statement

/-!
Register jumps in their two spellings. The base and the offset of a jump may come in either
order, as operands or as an address, and are told apart by what they are: no text names a
register and is a literal as well. So both orders are accepted alike, and the word has the
register as its base and the literal as its offset in either case.
-/

namespace RiscAssembly

open Text BitString

/-- `jalr rd, offset(base)` on a line, with the white space that may stand around its parts. -/
inductive AddressJump (rd offset base : Text) : Text → Prop
  | line (front gap target before inside after : Text)
      (blank : Blank front ∧ Blank gap ∧ Blank after) (separated : gap ≠ [])
      (rdPadded : Padded rd target) (offsetPadded : Padded offset before)
      (basePadded : Padded base inside) :
      AddressJump rd offset base
        (front ++ "jalr".toList ++ gap ++ target ++ ',' :: before ++ '(' :: inside ++ ')' :: after)

/-- `jalr rd, base, offset` on a line. -/
inductive ListedJump (rd base offset : Text) : Text → Prop
  | line (front gap target second third : Text) (blank : Blank front ∧ Blank gap)
      (separated : gap ≠ []) (rdPadded : Padded rd target) (basePadded : Padded base second)
      (offsetPadded : Padded offset third) :
      ListedJump rd base offset
        (front ++ "jalr".toList ++ gap ++ target ++ ',' :: second ++ ',' :: third)

/-! The two orders of the operands. -/

/-- A base that names a register and an offset that is a literal. -/
structure JumpsBy (rd base offset : Text) (values : OperandValues) : Prop where
  rdNamed : Register.ofName? rd = some values.rd
  baseNamed : Register.ofName? base = some values.rs1
  value : Literal.value? offset = some values.number
  unused : values.rs2 = .zero

def jumpDescriptor : Descriptor :=
  Catalogue.plainEntry "jalr" .i .jumpRegister "1100111" "000"

theorem jump_listed : Catalogue.find? "jalr".toList = some jumpDescriptor := rfl

theorem jump_pattern : jumpDescriptor.pattern = .jumpRegister := rfl

theorem jumpValues_iff (rd first second : Text) (values : OperandValues) :
    jumpDescriptor.operandValues? [rd, first, second] = some values ↔
      JumpsBy rd first second values ∨ JumpsBy rd second first values := by
  constructor
  · intro read
    cases jumpDescriptor.gives_of_values _ values read with
    | baseFirst _ _ _ _ target base number _ rdNamed baseNamed value =>
        exact .inl ⟨rdNamed, baseNamed, value, rfl⟩
    | offsetFirst _ _ _ _ target base number _ rdNamed value baseNamed =>
        exact .inr ⟨rdNamed, baseNamed, value, rfl⟩
  · obtain ⟨target, base, rs2, number⟩ := values
    rintro (⟨rdNamed, baseNamed, value, rfl⟩ | ⟨rdNamed, baseNamed, value, rfl⟩)
    · simp [Descriptor.operandValues?, jump_pattern, rdNamed, baseNamed, value]
    · -- The first operand is tried as a register, which a literal never is.
      have unnamed := IsLiteral.not_register ⟨number, value⟩
      simp [Descriptor.operandValues?, jump_pattern, rdNamed, baseNamed, value, unnamed]

theorem encode_jump_iff (rd first second : Text) (word : Word) :
    encode ["jalr".toList, rd, first, second] = .ok word ↔
      ∃ values, (JumpsBy rd first second values ∨ JumpsBy rd second first values) ∧
        word = jumpDescriptor.wordOf values := by
  rw [encode_ok_iff]
  constructor
  · rintro ⟨descriptor, values, found, read, rfl⟩
    rw [jump_listed] at found
    cases found
    exact ⟨values, (jumpValues_iff rd first second values).mp read, rfl⟩
  · rintro ⟨values, order, rfl⟩
    exact ⟨jumpDescriptor, values, jump_listed, (jumpValues_iff rd first second values).mpr order,
      rfl⟩

theorem encode_jump_swap (rd first second : Text) (word : Word) :
    encode ["jalr".toList, rd, first, second] = .ok word ↔
      encode ["jalr".toList, rd, second, first] = .ok word := by
  rw [encode_jump_iff, encode_jump_iff]
  exact exists_congr fun values => and_congr_left fun _ => or_comm

/-- The base stands in the word as its first source, the offset as its immediate; and the
offset names no register. -/
structure JumpHeld (base offset : Text) (word : Word) : Prop where
  baseHeld : ∃ register : Register, Register.parse base = .ok register ∧
    word.read [(19, 15)] = .ok (binary 5 register.val)
  offsetHeld : ∃ value : Int, Literal.value? offset = some value ∧
    word.read [(31, 20)] = .ok (binary 12 (value % 2 ^ 12).toNat)
  unnamed : ¬ ∃ register, Register.parse offset = .ok register

theorem not_register_and_literal (text : Text) :
    ¬ ((∃ register, Register.parse text = .ok register) ∧
      ∃ bits, Literal.twosComplement text = .ok bits) := by
  rintro ⟨named, read⟩
  obtain ⟨register, name⟩ := (accepts_register_iff text).mp named
  have literal : IsLiteral text := (accepts_literal_iff text).mp read
  rw [literal.not_register] at name
  cases name

theorem encode_jump_held (rd first second : Text) (word : Word)
    (encoded : encode ["jalr".toList, rd, first, second] = .ok word) :
    JumpHeld first second word ∨ JumpHeld second first word := by
  obtain ⟨descriptor, roles, instruction⟩ := isInstruction_of_encode _ word encoded
  obtain ⟨_, same, fills⟩ := encode_fills _ descriptor roles instruction
  rw [encoded] at same
  cases same
  cases instruction with
  | tokens _ _ _ _ listed _ ordered accepted =>
      rw [jump_listed] at listed
      cases listed
      have apart {text : Text} (read : ∃ bits, Literal.twosComplement text = .ok bits) :
          ¬ ∃ register, Register.parse text = .ok register :=
        fun named => not_register_and_literal text ⟨named, read⟩
      rcases List.mem_pair.mp ordered with rfl | rfl
      · obtain ⟨_, _, _, ⟨⟩, -, -, literal⟩ := accepted_three accepted
        rcases fills.operands with _ | ⟨-, _ | ⟨base, _ | ⟨offset, _⟩⟩⟩
        exact .inl ⟨base, offset, apart literal⟩
      · obtain ⟨_, _, _, ⟨⟩, -, literal, -⟩ := accepted_three accepted
        rcases fills.operands with _ | ⟨-, _ | ⟨offset, _ | ⟨base, _⟩⟩⟩
        exact .inr ⟨base, offset, apart literal⟩

/-! Lines. -/

theorem tokenize_trim (code : Text) : tokenize (trim code) = tokenize code := by
  -- White space at the ends belongs to the outer parts, and parts are trimmed anyway.
  have parts := map_trim_splitOnP (· = ',') comma_solid code
  cases inner : (trim code).splitOnP (· = ',') with
  | nil => exact absurd inner (List.splitOnP_ne_nil _ _)
  | cons head rest =>
      cases outer : code.splitOnP (· = ',') with
      | nil => exact absurd outer (List.splitOnP_ne_nil _ _)
      | cons head' rest' =>
          rw [inner, outer, List.map_cons, List.map_cons, List.cons.injEq] at parts
          rw [tokenize, tokenize, inner, outer]
          dsimp only
          rw [parts.1, parts.2]

theorem join_lacks (c separator : Char) (other : c ≠ separator) (parts : List Text)
    (absent : ∀ part ∈ parts, c ∉ part) : c ∉ join [separator] parts := by
  cases parts with
  | nil => exact List.not_mem_nil
  | cons part rest =>
      rw [List.forall_mem_cons] at absent
      rw [join_cons, List.mem_append, List.mem_flatMap]
      rintro (first | ⟨later, listed, member⟩)
      · exact absent.1 first
      · rcases List.mem_append.mp member with same | inside
        · exact other (List.mem_singleton.mp same)
        · exact absent.2 later listed inside

section Lacks

variable (c : Char) (solid : isSpace c = false)

include solid

theorem LastOperand.lacks {written : Text} {tokens : List Text}
    (last : LastOperand written tokens) (outside : c ≠ '(' ∧ c ≠ ')')
    (absent : ∀ token ∈ tokens, c ∉ token) : c ∉ written := by
  cases last with
  | plain operand _ _ _ padded => exact padded.lacks c solid (absent operand (by simp))
  | address offset register before inside after _ _ _ outer inner blank =>
      rw [List.forall_mem_cons, List.forall_mem_singleton] at absent
      have first : c ∉ offset := by
        by_cases empty : offset = []
        · rw [empty]
          exact List.not_mem_nil
        · rw [if_neg empty] at absent
          exact absent.1
      simp [outer.lacks c solid first, inner.lacks c solid absent.2, outside,
        blank_lacks after blank c solid]

/-- A line has no characters but those of its tokens, white space and punctuation. -/
theorem InstructionLine.lacks {line : Text} {tokens : List Text}
    (written : InstructionLine line tokens) (outside : c ≠ ',' ∧ c ≠ '(' ∧ c ≠ ')')
    (absent : ∀ token ∈ tokens, c ∉ token) : c ∉ line := by
  cases written with
  | alone mnemonic _ _ padded => exact padded.lacks c solid (absent mnemonic (by simp))
  | operands mnemonic front gap last operands parts tokens _ blank _ _ padded final _ =>
      rw [List.cons_append, List.forall_mem_cons, List.forall_mem_append] at absent
      obtain ⟨first, others, rest⟩ := absent
      have each := padded_lacks operands parts padded c solid others
      have all := join_lacks c ',' outside.1 (parts ++ [last]) (List.forall_mem_append.mpr
        ⟨each, List.forall_mem_singleton.mpr (final.lacks c solid outside.2 rest)⟩)
      simp [blank_lacks front blank.1 c solid, blank_lacks gap blank.2 c solid, first, all]

end Lacks

theorem IsToken.lacks {text : Text} (token : IsToken text) (c : Char)
    (other : isTokenCharacter c = false) : c ∉ text := by
  intro member
  rw [token.spelled c member] at other
  cases other

/-- Tokens that are written on a line are what the line is read as. -/
theorem parse_tokens (line : Text) (tokens : List Text) (written : InstructionLine line tokens)
    (spelled : ∀ token ∈ tokens, IsToken token) :
    Statement.parse (codeOf line) = .ok (.instruction tokens) := by
  have plain (c : Char) (solid : isSpace c = false) (other : isTokenCharacter c = false)
      (outside : c ≠ ',' ∧ c ≠ '(' ∧ c ≠ ')') : c ∉ line :=
    written.lacks c solid outside fun token member => (spelled token member).lacks c other
  have comments := plain '#' (by decide) (by decide) (by decide)
  have colons := plain ':' (by decide) (by decide) (by decide)
  have dots := plain '.' (by decide) (by decide) (by decide)
  have within := (trim_within line).subset
  have code : codeOf line = trim line := by
    rw [codeOf, stripComment, stripCommentFrom_plain .outside line comments]
  rw [code, parse_plain (trim line) (fun member => colons (within member))
    (fun member => dots (within member)), tokenize_trim, tokenize_line line tokens written]

section Lines

variable {rd base offset : Text} (rdToken : IsToken rd) (baseToken : IsToken base)
variable (offsetToken : IsToken offset)

include rdToken baseToken offsetToken

theorem AddressJump.parse_eq {line : Text} (jump : AddressJump rd offset base line) :
    Statement.parse (codeOf line) = .ok (.instruction ["jalr".toList, rd, offset, base]) := by
  refine parse_tokens line _ ?_ ?_
  · obtain ⟨front, gap, target, before, inside, after, blank, separated, rdPadded, offsetPadded,
      basePadded⟩ := jump
    have address := LastOperand.address offset base before inside after offsetToken.isOperandText
      (offsetToken.lacks '(' (by decide)) baseToken.isOperandText offsetPadded basePadded
      blank.2.2
    rw [if_neg offsetToken.nonempty] at address
    have written := InstructionLine.operands "jalr".toList front gap _ [rd] [target] _
      (IsToken.isMnemonic (by decide)) ⟨blank.1, blank.2.1⟩ separated
      (List.forall_mem_singleton.mpr rdToken.isOperandText) (.cons rdPadded .nil) address
      (by simpa using rdToken.nonempty)
    simpa [join_cons] using written
  · simp only [List.forall_mem_cons, rdToken, baseToken, offsetToken, true_and]
    exact ⟨by decide, nofun⟩

theorem ListedJump.parse_eq {line : Text} (jump : ListedJump rd base offset line) :
    Statement.parse (codeOf line) = .ok (.instruction ["jalr".toList, rd, base, offset]) := by
  refine parse_tokens line _ ?_ ?_
  · obtain ⟨front, gap, target, second, third, blank, separated, rdPadded, basePadded,
      offsetPadded⟩ := jump
    have simple : ¬ IsAddress offset := by
      rintro ⟨before, inside, rfl⟩
      exact offsetToken.lacks '(' (by decide) (by simp)
    have last := LastOperand.plain offset third offsetToken.isOperandText simple offsetPadded
    have written := InstructionLine.operands "jalr".toList front gap _ [rd, base]
      [target, second] _ (IsToken.isMnemonic (by decide)) blank separated
      (List.forall_mem_cons.mpr ⟨rdToken.isOperandText,
        List.forall_mem_singleton.mpr baseToken.isOperandText⟩)
      (.cons rdPadded (.cons basePadded .nil)) last (by simpa using rdToken.nonempty)
    simpa [join_cons] using written
  · simp only [List.forall_mem_cons, rdToken, baseToken, offsetToken, true_and]
    exact ⟨by decide, nofun⟩

end Lines

/-- A line that is read as an instruction of the machine, which has this word. -/
structure LineGives (line : Text) (tokens : List Text) (word : Word) : Prop where
  read : Statement.parse (codeOf line) = .ok (.instruction tokens)
  machine : expand tokens = .ok [tokens]
  encoded : encode tokens = .ok word

theorem expand_jump (operands : List Text) :
    expand ("jalr".toList :: operands) = .ok ["jalr".toList :: operands] :=
  (expand_ok_iff _ operands _).mpr (.inr ⟨rfl, rfl, rfl⟩)

/-- The two spellings of a register jump are never mistaken for each other: what is a register
is no literal, so the operands can be exchanged, and the word is that of the one reading there
is. A jump through an address therefore has the word of the jump with its parts listed. -/
theorem jump_orders_agree :
    (∀ text, ¬ ((∃ register, Register.parse text = .ok register) ∧
      ∃ bits, Literal.twosComplement text = .ok bits)) ∧
    (∀ rd first second word,
      (encode ["jalr".toList, rd, first, second] = .ok word ↔
        encode ["jalr".toList, rd, second, first] = .ok word) ∧
      (encode ["jalr".toList, rd, first, second] = .ok word →
        JumpHeld first second word ∨ JumpHeld second first word)) ∧
    ∀ rd base offset, (∃ register, Register.parse rd = .ok register) →
      (∃ register, Register.parse base = .ok register) →
      (∃ bits, Literal.twosComplement offset = .ok bits) →
      ∃ word, JumpHeld base offset word ∧
        (∀ line, AddressJump rd offset base line →
          LineGives line ["jalr".toList, rd, offset, base] word) ∧
        ∀ line, ListedJump rd base offset line →
          LineGives line ["jalr".toList, rd, base, offset] word := by
  refine ⟨not_register_and_literal, fun rd first second word =>
    ⟨encode_jump_swap rd first second word, encode_jump_held rd first second word⟩, ?_⟩
  intro rd base offset rdParsed baseParsed offsetRead
  obtain ⟨target, rdNamed⟩ := (accepts_register_iff rd).mp rdParsed
  obtain ⟨source, baseNamed⟩ := (accepts_register_iff base).mp baseParsed
  obtain ⟨number, value⟩ := (accepts_literal_iff offset).mp offsetRead
  have rdToken := Register.ofName_isToken rd target rdNamed
  have baseToken := Register.ofName_isToken base source baseNamed
  have offsetToken := Literal.value_isToken offset number value
  have listed := (encode_jump_iff rd base offset _).mpr
    ⟨⟨target, source, .zero, number⟩, .inl ⟨rdNamed, baseNamed, value, rfl⟩, rfl⟩
  refine ⟨_, ?_, fun line jump => ⟨jump.parse_eq rdToken baseToken offsetToken, expand_jump _,
    (encode_jump_swap rd base offset _).mp listed⟩, fun line jump =>
    ⟨jump.parse_eq rdToken baseToken offsetToken, expand_jump _, listed⟩⟩
  rcases encode_jump_held rd base offset _ listed with held | held
  · exact held
  · exact absurd baseParsed held.unnamed

/-- With a negative offset and white space around the parts of the address. -/
theorem jump_orders_agree_negative :
    ∃ word, JumpHeld "sp".toList "-8".toList word ∧
      LineGives "  jalr ra, -8 (sp)".toList (["jalr", "ra", "-8", "sp"].map String.toList) word ∧
      LineGives "jalr ra,sp, -8".toList (["jalr", "ra", "sp", "-8"].map String.toList) word := by
  obtain ⟨word, held, address, listed⟩ := jump_orders_agree.2.2 "ra".toList "sp".toList
    "-8".toList ⟨_, rfl⟩ ⟨_, rfl⟩ ⟨_, rfl⟩
  have bare (text : Text) : Padded text text :=
    ⟨[], [], ⟨List.forall_mem_nil _, List.forall_mem_nil _⟩, by simp⟩
  have space : Blank " ".toList := by decide
  refine ⟨word, held, address _ ?_, listed _ ?_⟩
  · exact .line "  ".toList " ".toList "ra".toList " -8 ".toList "sp".toList []
      ⟨by decide, space, by decide⟩ (by decide) (bare _)
      ⟨" ".toList, " ".toList, ⟨space, space⟩, rfl⟩ (bare _)
  · exact .line [] " ".toList "ra".toList "sp".toList " -8".toList ⟨by decide, space⟩
      (by decide) (bare _) (bare _) ⟨" ".toList, [], ⟨space, by decide⟩, rfl⟩

end RiscAssembly
