import RiscAssembly.Proofs.Spelling
import RiscAssembly.Source.Statement

/-!
How instructions are written on a line. A mnemonic comes first; white space separates it from
the operands, which stand between commas, and any white space may stand around all of them.
The last operand may be an address, an offset with a register in parentheses, and is then two
tokens. Whatever is written so has just the tokens it was written with.
-/

namespace RiscAssembly

open Text

structure IsMnemonic (mnemonic : Text) : Prop where
  nonempty : mnemonic ≠ []
  solid : ∀ c ∈ mnemonic, isSpace c = false
  whole : ',' ∉ mnemonic

/-- What can stand between commas as it is. -/
structure IsOperandText (operand : Text) : Prop where
  solid : Solid operand
  whole : ',' ∉ operand

/-- An opening parenthesis somewhere and a closing one at the end. -/
def IsAddress (operand : Text) : Prop :=
  ∃ offset register, operand = offset ++ '(' :: register ++ [')']

/-- The last operand as it is written, and the tokens it stands for. -/
inductive LastOperand : Text → List Text → Prop
  | plain (operand written : Text) (valid : IsOperandText operand)
      (simple : ¬ IsAddress operand) (padded : Padded operand written) :
      LastOperand written [operand]
  | address (offset register before inside after : Text) (first : IsOperandText offset)
      (unopened : '(' ∉ offset) (second : IsOperandText register)
      (outer : Padded offset before) (inner : Padded register inside) (blank : Blank after) :
      LastOperand (before ++ '(' :: inside ++ ')' :: after)
        [if offset = [] then "0".toList else offset, register]

/-- An instruction as it is written on a line, and its tokens. -/
inductive InstructionLine : Text → List Text → Prop
  | alone (mnemonic line : Text) (valid : IsMnemonic mnemonic) (padded : Padded mnemonic line) :
      InstructionLine line [mnemonic]
  | operands (mnemonic front gap last : Text) (operands written tokens : List Text)
      (valid : IsMnemonic mnemonic) (blank : Blank front ∧ Blank gap) (separated : gap ≠ [])
      (each : ∀ operand ∈ operands, IsOperandText operand)
      (padded : List.Forall₂ Padded operands written) (final : LastOperand last tokens)
      (present : (operands ++ tokens).head? ≠ some []) :
      InstructionLine (front ++ mnemonic ++ gap ++ join [','] (written ++ [last]))
        (mnemonic :: operands ++ tokens)

section Token

variable {text : Text} (token : IsToken text)

include token

theorem IsToken.isMnemonic : IsMnemonic text where
  nonempty := token.nonempty
  solid := token.free isSpace isSpace_tokenCharacter
  whole member := absurd (token.spelled ',' member) (by decide)

theorem IsToken.isOperandText : IsOperandText text where
  solid := token.solid
  whole := token.isMnemonic.whole

end Token

/-! The last operand. -/

/-- White space in front of a solid text goes, whatever stands between them. -/
theorem trim_behind (before core after : Text) (some : core ≠ []) (solid : Solid core)
    (blank : Blank after) : trim (before ++ core ++ after) = trimStart before ++ core := by
  have parts : before ++ core ++ after =
      before.takeWhile isSpace ++ (trimStart before ++ core) ++ after := by
    rw [← List.append_assoc, trimStart, List.takeWhile_append_dropWhile]
  have ends : Solid (trimStart before ++ core) := by
    constructor
    · intro c first
      cases start : trimStart before with
      | nil =>
          rw [start] at first
          exact solid.1 c first
      | cons d rest =>
          rw [start, List.cons_append, List.head?_cons] at first
          exact dropWhile_head before c (by rw [← trimStart, start, ← first, List.head?_cons])
    · intro c last
      rw [List.getLast?_append_of_ne_nil _ some] at last
      exact solid.2 c last
  rw [parts]
  exact trim_padded _ _ _ ⟨List.all_eq_true.mp List.all_takeWhile, blank⟩ ends

theorem trim_trimStart (text : Text) : trim (trimStart text) = trim text := by
  rw [trim, trim, trimStart, trimStart, dropWhile_solid _ (dropWhile_head text)]

theorem addressParts_isAddress (operand : Text) (parts : Text × Text)
    (found : addressParts? operand = some parts) : IsAddress operand := by
  unfold addressParts? at found
  split at found
  · cases found
  · rename_i offset register split
    obtain ⟨opened, closed, cutting⟩ := Option.bind_eq_some_iff.mp split
    obtain ⟨c, hit, -, rfl⟩ := cut_some _ _ _ _ cutting
    obtain rfl : c = '(' := of_decide_eq_true hit
    exact ⟨offset, register, (dropLast_some_iff ')' operand _).mp closed⟩

theorem addressParts_written (offset register : Text) (unopened : '(' ∉ offset) :
    addressParts? (offset ++ '(' :: register ++ [')']) =
      some (if trim offset = [] then "0".toList else trim offset, trim register) := by
  have closed : dropLast? ')' (offset ++ '(' :: register ++ [')']) =
      some (offset ++ '(' :: register) := (dropLast_some_iff _ _ _).mpr rfl
  rw [addressParts?, closed, Option.bind_some,
    cut_append _ offset register '(' (free_of_not_mem '(' offset unopened) (by decide)]
  simp

theorem LastOperand.whole {written : Text} {tokens : List Text}
    (last : LastOperand written tokens) : ',' ∉ written := by
  cases last with
  | plain operand _ valid _ padded => exact padded.lacks ',' (by decide) valid.whole
  | address offset register before inside after first _ second outer inner blank =>
      simp [outer.lacks ',' (by decide) first.whole, inner.lacks ',' (by decide) second.whole,
        blank_lacks after blank ',' (by decide)]

theorem splitAddress_last {written : Text} {tokens : List Text}
    (last : LastOperand written tokens) : splitAddress [trim written] = tokens := by
  cases last with
  | plain operand _ valid simple padded =>
      rw [padded.trim_eq valid.solid, splitAddress]
      cases found : addressParts? operand with
      | none => rfl
      | some parts => exact absurd (addressParts_isAddress operand parts found) simple
  | address offset register before inside after first unopened second outer inner blank =>
      have opened : '(' ∉ trimStart before := fun member =>
        outer.lacks '(' (by decide) unopened ((List.dropWhile_sublist _).mem member)
      -- What is trimmed is the whole operand; the parts are trimmed again after the cut.
      have core := trim_behind before ('(' :: inside ++ [')']) after (by simp)
        (solid_enclosed '(' ')' inside (by decide) (by decide)) blank
      have trimmed : trim (before ++ '(' :: inside ++ ')' :: after) =
          trimStart before ++ '(' :: inside ++ [')'] := by
        simpa using core
      rw [trimmed, splitAddress, addressParts_written _ _ opened, trim_trimStart,
        outer.trim_eq first.solid, inner.trim_eq second.solid]

theorem splitAddress_concat (operands : List Text) (last : Text) :
    splitAddress (operands ++ [last]) = operands ++ splitAddress [last] := by
  induction operands with
  | nil => rfl
  | cons operand rest ih =>
      obtain ⟨next, others, shape⟩ : ∃ next others, rest ++ [last] = next :: others := by
        cases rest <;> exact ⟨_, _, rfl⟩
      rw [List.cons_append, List.cons_append, ← ih, shape, splitAddress]

/-! The line. -/

/-- The mnemonic ends at the first white space behind it, and what follows is the first operand. -/
theorem splitMnemonic_written (front mnemonic gap part : Text) (valid : IsMnemonic mnemonic)
    (blank : Blank front ∧ Blank gap) (separated : gap ≠ []) (present : trim part ≠ []) :
    splitMnemonic (trim (front ++ mnemonic ++ gap ++ part)) = (mnemonic, [trim part]) := by
  obtain ⟨inner, back, padding, parts⟩ := trim_parts part
  obtain ⟨c, rest, rfl⟩ := List.exists_cons_of_ne_nil separated
  have whole : front ++ mnemonic ++ (c :: rest) ++ part =
      front ++ (mnemonic ++ (c :: rest ++ inner) ++ trim part) ++ back := by
    conv => lhs; rw [parts]
    simp only [List.append_assoc]
  have solid := solid_append mnemonic (c :: rest ++ inner) (trim part) ⟨valid.nonempty, present⟩
    ⟨solid_of_free mnemonic valid.solid, trim_solid_ends part⟩
  have between : Blank (rest ++ inner) := by
    rw [blank_append]
    exact ⟨fun d member => blank.2 d (List.mem_cons_of_mem c member), padding.1⟩
  have operand := trim_padded (rest ++ inner) (trim part) [] ⟨between, fun _ => nofun⟩
    (trim_solid_ends part)
  rw [List.append_nil] at operand
  rw [whole, trim_padded front _ back ⟨blank.1, padding.2⟩ solid, List.append_assoc,
    List.cons_append, List.cons_append, splitMnemonic,
    cut_append isSpace mnemonic _ c valid.solid (blank.2 c List.mem_cons_self)]
  dsimp only
  rw [operand]

/-- The parts between the commas, the first of them behind the mnemonic. -/
theorem tokenize_parts (front mnemonic gap part : Text) (rest : List Text)
    (valid : IsMnemonic mnemonic) (blank : Blank front ∧ Blank gap) (separated : gap ≠ [])
    (whole : ∀ other ∈ part :: rest, ',' ∉ other) (present : trim part ≠ []) :
    tokenize (front ++ mnemonic ++ gap ++ join [','] (part :: rest)) =
      mnemonic :: splitAddress ((part :: rest).map trim) := by
  have head : ',' ∉ front ++ mnemonic ++ gap ++ part := by
    simp [blank_lacks front blank.1 ',' (by decide), blank_lacks gap blank.2 ',' (by decide),
      valid.whole, whole part List.mem_cons_self]
  have fields : (join [','] ((front ++ mnemonic ++ gap ++ part) :: rest)).splitOnP (· = ',') =
      (front ++ mnemonic ++ gap ++ part) :: rest :=
    List.splitOn_intercalate ',' (List.forall_mem_cons.mpr ⟨head, fun other member =>
      whole other (List.mem_cons_of_mem part member)⟩) (List.cons_ne_nil _ _)
  rw [join_cons, List.append_assoc] at fields
  rw [join_cons, tokenize, fields]
  dsimp only
  rw [splitMnemonic_written front mnemonic gap part valid blank separated present]
  rfl

theorem tokenize_line (line : Text) (tokens : List Text) (written : InstructionLine line tokens) :
    tokenize line = tokens := by
  cases written with
  | alone mnemonic _ valid padded =>
      have solid := solid_of_free mnemonic valid.solid
      have whole := padded.lacks ',' (by decide) valid.whole
      rw [tokenize, List.splitOnP_eq_singleton (free_of_not_mem ',' line whole)]
      dsimp only
      rw [padded.trim_eq solid, splitMnemonic, cut_free isSpace mnemonic valid.solid]
      rfl
  | operands mnemonic front gap last operands written tokens valid blank separated each padded
      final present =>
      obtain ⟨plain, trimmed⟩ := padded_parts operands written
        (fun operand member => ⟨(each operand member).solid, (each operand member).whole⟩) padded
      have whole : ∀ part ∈ written ++ [last], ',' ∉ part :=
        List.forall_mem_append.mpr ⟨plain, List.forall_mem_singleton.mpr final.whole⟩
      have split : splitAddress ((written ++ [last]).map trim) = operands ++ tokens := by
        rw [List.map_append, List.map_singleton, trimmed, splitAddress_concat,
          splitAddress_last final]
      obtain ⟨part, rest, shape⟩ : ∃ part rest, written ++ [last] = part :: rest := by
        cases written <;> exact ⟨_, _, rfl⟩
      rw [shape] at whole split ⊢
      -- A first operand that is only white space would have been a first token without text.
      have some : trim part ≠ [] := by
        intro empty
        rw [List.map_cons, empty] at split
        apply present
        rw [← split]
        cases rest <;> rfl
      rw [tokenize_parts front mnemonic gap part rest valid blank separated whole some, split]
      rfl

theorem tokenize_cons (code : Text) :
    ∃ mnemonic operands, tokenize code = mnemonic :: operands := by
  rw [tokenize]
  cases parts : code.splitOnP (· = ',') with
  | nil => exact absurd parts (List.splitOnP_ne_nil _ code)
  | cons head rest => exact ⟨_, _, rfl⟩

/-- Reading a line undoes writing it, and no line is without tokens. -/
theorem tokenize_undoes_writing :
    (∀ line tokens, InstructionLine line tokens → tokenize line = tokens) ∧
      ∀ line, tokenize line ≠ [] := by
  refine ⟨tokenize_line, ?_⟩
  intro line
  obtain ⟨mnemonic, operands, some⟩ := tokenize_cons line
  rw [some]
  exact List.cons_ne_nil mnemonic operands

/-- An address without an offset, with white space at every place that is not all ASCII. -/
theorem tokenize_undoes_writing_address :
    let line := "\t sw  a0\u00a0, ( t0\u3000) ".toList
    let tokens := ["sw".toList, "a0".toList, "0".toList, "t0".toList]
    InstructionLine line tokens ∧ tokenize line = tokens := by
  intro line tokens
  have valid {text : Text} (token : IsToken text) := token.isOperandText
  have address : LastOperand " ( t0\u3000) ".toList ["0".toList, "t0".toList] :=
    .address [] "t0".toList [' '] " t0\u3000".toList [' '] ⟨⟨nofun, nofun⟩, nofun⟩ nofun
      (valid (by decide)) ⟨[' '], [], by decide, rfl⟩ ⟨[' '], "\u3000".toList, by decide, rfl⟩
      (by decide)
  have written : InstructionLine line tokens :=
    .operands "sw".toList "\t ".toList "  ".toList _ ["a0".toList] ["a0\u00a0".toList] _
      (IsToken.isMnemonic (by decide)) (by decide) (by decide)
      (List.forall_mem_singleton.mpr (valid (by decide)))
      (.cons ⟨[], "\u00a0".toList, by decide, rfl⟩ .nil) address (by decide)
  exact ⟨written, tokenize_undoes_writing.1 line tokens written⟩

end RiscAssembly
