import RiscAssembly.Proofs.LineGrammar
import RiscAssembly.Source.Section

/-!
Instructions written out as lines of text and read back. Tokens have no character that
means anything to the reader of a line, so that neither the search for comments, headers
and labels nor the cuts at commas and white space touch them.
-/

namespace RiscAssembly

open Text

/-- An instruction as a line of text. -/
def instructionText : List Text → Text
  | [] => []
  | [mnemonic] => mnemonic
  | mnemonic :: operands => mnemonic ++ " ".toList ++ join ", ".toList operands

/-! Cutting the line into tokens. -/

theorem splitAddress_plain (operands : List Text)
    (plain : ∀ operand ∈ operands, operand.getLast? ≠ some ')') :
    splitAddress operands = operands := by
  induction operands with
  | nil => rfl
  | cons operand rest ih =>
      have later := ih fun other member => plain other (List.mem_cons_of_mem operand member)
      cases rest with
      | nil =>
          have whole := dropLast_none ')' operand (plain operand List.mem_cons_self)
          simp [splitAddress, addressParts?, whole]
      | cons next rest => rw [splitAddress, later]

/-- The parts between the commas of an instruction. -/
theorem instructionText_parts (mnemonic first : Text) (rest : List Text) :
    instructionText (mnemonic :: first :: rest) =
      (mnemonic ++ ' ' :: first) ++ (rest.map (' ' :: ·)).flatMap (',' :: ·) := by
  rw [instructionText, join_cons, List.flatMap_map]
  · simp [List.append_assoc]
  · simp

/-- Without colons and dots a line is no label and no directive. -/
theorem parse_plain (code : Text) (colons : ':' ∉ code) (dots : '.' ∉ code) :
    Statement.parse code = .ok (.instruction (tokenize code)) := by
  have unlabelled : parseLabel code = .ok none := by
    rw [parseLabel, dropLast_none ':' code fun last => colons (List.mem_of_getLast? last)]
  have instruction : ¬ code.head? = some '.' := fun first => dots (List.mem_of_head? first)
  rw [Statement.parse, unlabelled]
  simp only [bind, Except.bind, if_neg instruction]
  rfl

/-! Comments and headers. -/

theorem stripCommentFrom_plain (state : QuoteState) (text : Text) (plain : '#' ∉ text) :
    stripCommentFrom state text = text := by
  induction text generalizing state with
  | nil => rw [stripCommentFrom]
  | cons c rest ih =>
      rw [List.mem_cons, not_or] at plain
      have later := fun next => ih next plain.2
      have kept : ¬ c = '#' := fun same => plain.1 same.symm
      cases state with
      | outside => rw [stripCommentFrom, if_neg kept, later]
      | inside => rw [stripCommentFrom, later]
      | escaped => rw [stripCommentFrom, later]

theorem Section.name_dotted (kind : Section) : kind.name.head? = some '.' := by
  cases kind <;> rfl

/-- Headers begin with a dot. -/
theorem lineRole_content (c : Char) (rest : Text) (solid : isSpace c = false)
    (undotted : c ≠ '.') : lineRole (c :: rest) = .content := by
  obtain ⟨word, later, first⟩ := words_cons c rest solid
  have different : ¬ c :: word = sectionWord := by
    intro same
    exact undotted (List.cons.inj same).1
  have unnamed : Section.ofName? (c :: word) = none := by
    rw [Section.ofName?, List.find?_eq_none]
    intro kind _ same
    have dotted := kind.name_dotted
    rw [of_decide_eq_true same] at dotted
    exact undotted (Option.some.inj dotted)
  rw [lineRole, first]
  cases later with
  | nil => simp [different, unnamed]
  | cons second later =>
      cases later with
      | nil => simp [different]
      | cons third later => simp [different]

section Tokens

variable (mnemonic : Text) (operands : List Text)
variable (spelled : ∀ token ∈ mnemonic :: operands, IsToken token)

include spelled

theorem splitAddress_tokens : splitAddress operands = operands := by
  apply splitAddress_plain
  intro operand member last
  have token := spelled operand (List.mem_cons_of_mem mnemonic member)
  exact absurd (token.spelled ')' (List.mem_of_getLast? last)) (by decide)

theorem tokenize_instructionText :
    tokenize (instructionText (mnemonic :: operands)) = mnemonic :: operands := by
  have head := (spelled mnemonic List.mem_cons_self).isMnemonic
  have addresses := splitAddress_tokens mnemonic operands spelled
  have nothing : Blank [] := fun _ => nofun
  cases operands with
  | nil =>
      refine tokenize_line _ _ (.alone mnemonic _ head ⟨[], [], ⟨nothing, nothing⟩, ?_⟩)
      simp [instructionText]
  | cons first rest =>
      have second := spelled first (by simp)
      -- Every operand but the first keeps the blank behind its comma until it is trimmed.
      have padded : List.Forall₂ Padded (first :: rest) (first :: rest.map (' ' :: ·)) := by
        refine .cons ⟨[], [], ⟨nothing, nothing⟩, by simp⟩ ?_
        rw [List.forall₂_map_right_iff, List.forall₂_same]
        exact fun operand _ => ⟨[' '], [], ⟨by decide, nothing⟩, by simp⟩
      have valid : ∀ operand ∈ first :: rest, Solid operand ∧ ',' ∉ operand := by
        intro operand member
        have token := spelled operand (List.mem_cons_of_mem mnemonic member)
        exact ⟨token.solid, token.isOperandText.whole⟩
      obtain ⟨plain, trimmed⟩ := padded_parts _ _ valid padded
      have written : instructionText (mnemonic :: first :: rest) =
          [] ++ mnemonic ++ [' '] ++ join [','] (first :: rest.map (' ' :: ·)) := by
        rw [instructionText_parts, join_cons]
        simp
      rw [written, tokenize_parts [] mnemonic [' '] first _ head ⟨nothing, by decide⟩ (by decide)
        plain (by rw [trim_solid first second.solid]; exact second.nonempty), trimmed, addresses]

/-! The line as a whole. -/

theorem instructionText_characters :
    ∀ c ∈ instructionText (mnemonic :: operands),
      isTokenCharacter c = true ∨ c = ' ' ∨ c = ',' := by
  intro c member
  cases operands with
  | nil => exact .inl ((spelled mnemonic List.mem_cons_self).spelled c member)
  | cons first rest =>
      rw [instructionText_parts] at member
      simp only [List.mem_append, List.mem_cons, List.mem_flatMap, List.mem_map] at member
      rcases member with (inMnemonic | blank | inFirst) | ⟨_, ⟨operand, listed, rfl⟩, inside⟩
      · exact .inl ((spelled mnemonic List.mem_cons_self).spelled c inMnemonic)
      · exact .inr (.inl blank)
      · exact .inl ((spelled first (by simp)).spelled c inFirst)
      · rcases inside with comma | inside
        · exact .inr (.inr comma)
        · rcases List.mem_cons.mp inside with blank | inOperand
          · exact .inr (.inl blank)
          · exact .inl ((spelled operand (by simp [listed])).spelled c inOperand)

theorem instructionText_lacks (c : Char)
    (other : (isTokenCharacter c || c = ' ' || c = ',') = false) :
    c ∉ instructionText (mnemonic :: operands) := by
  intro member
  have found := instructionText_characters mnemonic operands spelled c member
  simp_all

theorem instructionText_solid : Solid (instructionText (mnemonic :: operands)) := by
  have head := spelled mnemonic List.mem_cons_self
  rcases List.eq_nil_or_concat operands with rfl | ⟨front, last, rfl⟩
  · exact head.solid
  · have tail := spelled last (by simp)
    have shape : instructionText (mnemonic :: (front ++ [last])) =
        mnemonic ++ (' ' :: front.flatMap (· ++ ", ".toList)) ++ last := by
      rw [instructionText, join_concat]
      · simp
      · simp
    rw [List.concat_eq_append, shape]
    exact solid_append _ _ _ ⟨head.nonempty, tail.nonempty⟩ ⟨head.solid, tail.solid⟩

theorem instructionText_first : ∃ c rest, instructionText (mnemonic :: operands) = c :: rest ∧
    isTokenCharacter c = true := by
  have head := spelled mnemonic List.mem_cons_self
  obtain ⟨c, tail, rfl⟩ := List.exists_cons_of_ne_nil head.nonempty
  have first := head.spelled c List.mem_cons_self
  cases operands with
  | nil => exact ⟨c, tail, rfl, first⟩
  | cons operand rest => exact ⟨c, _, rfl, first⟩

theorem codeOf_instructionText :
    codeOf (instructionText (mnemonic :: operands)) = instructionText (mnemonic :: operands) := by
  have plain := instructionText_lacks mnemonic operands spelled '#' (by decide)
  rw [codeOf, stripComment, stripCommentFrom_plain .outside _ plain,
    trim_solid _ (instructionText_solid mnemonic operands spelled)]

theorem lineRole_instructionText :
    lineRole (instructionText (mnemonic :: operands)) = .content := by
  obtain ⟨c, rest, shape, first⟩ := instructionText_first mnemonic operands spelled
  rw [shape]
  refine lineRole_content c rest (isSpace_tokenCharacter c first) ?_
  rintro rfl
  exact absurd first (by decide)

theorem parse_instructionText :
    Statement.parse (instructionText (mnemonic :: operands)) =
      .ok (.instruction (mnemonic :: operands)) := by
  have colons := instructionText_lacks mnemonic operands spelled ':' (by decide)
  have dots := instructionText_lacks mnemonic operands spelled '.' (by decide)
  rw [parse_plain _ colons dots, tokenize_instructionText mnemonic operands spelled]

end Tokens

end RiscAssembly
