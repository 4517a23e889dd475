import RiscAssembly.Command.Config
import RiscAssembly.Proofs.Layout
import RiscAssembly.Proofs.Statement

/-!
A program whose references are replaced, written out and assembled again. Instructions that
have words are written with tokens only, so they are read back as they were; no operand is
a label any more, since the one label of the new source is neither a register nor a
literal. Placement sees the same mnemonics in the same order, and what the second program
differs in is the lines.
-/

namespace RiscAssembly

open Text SymbolTable

/-- What there is to an instruction apart from its line. -/
def Instruction.withoutLine (instruction : Instruction) : List Text × UInt32 × Nat :=
  (instruction.tokens, instruction.address, instruction.size)

/-- The source text with the given lines behind the entry point. -/
def textSource (body : List Text) : Text :=
  unlines (".section .text".toList :: ".globl main".toList :: "main:".toList :: body)

/-- A source text with the resolved instructions of a program. -/
def Program.resolvedSource (program : Program) : Text :=
  textSource (program.instructions.map fun instruction => instructionText instruction.tokens)

/-! Sources that are all text. -/

/-- A raw line that stands for itself and is no header. -/
structure IsContent (raw : Text) : Prop where
  whole : '\n' ∉ raw
  ended : raw.getLast? ≠ some '\r'
  nonempty : raw ≠ []
  code : codeOf raw = raw
  role : lineRole raw = .content

theorem codeLinesFrom_content (number : Nat) (texts : List Text)
    (content : ∀ text ∈ texts, IsContent text) :
    (codeLinesFrom number texts).map Line.code = texts := by
  induction texts generalizing number with
  | nil => rfl
  | cons text rest ih =>
      have first := content text List.mem_cons_self
      have later := ih (number + 1) fun other member =>
        content other (List.mem_cons_of_mem _ member)
      have shown : ¬ (codeOf text).isEmpty = true := by
        rw [first.code, List.isEmpty_iff]
        exact first.nonempty
      rw [codeLinesFrom, if_neg shown, List.map_cons, later, first.code]

theorem partitionFrom_content (lines : List Line)
    (content : ∀ line ∈ lines, lineRole line.code = .content) :
    partitionFrom (some .text) lines = .ok ⟨⟨lines, []⟩, none⟩ := by
  induction lines with
  | nil => rfl
  | cons line rest ih =>
      have later := ih fun other member => content other (List.mem_cons_of_mem line member)
      rw [partitionFrom, content line List.mem_cons_self]
      dsimp only
      rw [later]
      rfl

/-- Under a first header for text, all content is text. -/
theorem partition_textHeader (texts : List Text) (content : ∀ text ∈ texts, IsContent text) :
    partitionFrom none (codeLines (unlines (".section .text".toList :: texts))) =
      .ok ⟨⟨codeLinesFrom 2 texts, []⟩, some 1⟩ := by
  have whole : ∀ line ∈ ".section .text".toList :: texts, '\n' ∉ line := by
    rw [List.forall_mem_cons]
    exact ⟨by decide, fun text member => (content text member).whole⟩
  have ended : ∀ line ∈ ".section .text".toList :: texts, line.getLast? ≠ some '\r' := by
    rw [List.forall_mem_cons]
    exact ⟨by decide, fun text member => (content text member).ended⟩
  have header : codeLinesFrom 1 (".section .text".toList :: texts) =
      ⟨1, ".section .text".toList⟩ :: codeLinesFrom 2 texts := rfl
  have role : lineRole ".section .text".toList = .header .text := by decide
  have body : ∀ line ∈ codeLinesFrom 2 texts, lineRole line.code = .content := by
    intro line member
    have listed := List.mem_map_of_mem (f := Line.code) member
    rw [codeLinesFrom_content 2 texts content] at listed
    exact (content line.code listed).role
  rw [codeLines, lines_unlines _ whole ended, header, partitionFrom, role]
  dsimp only
  rw [partitionFrom_content _ body]
  rfl

theorem ofSource_textSource (body : List Text) (content : ∀ text ∈ body, IsContent text) :
    Sections.ofSource (textSource body) =
      .ok ⟨⟨3, entryLabel⟩ :: codeLinesFrom 4 body, []⟩ := by
  have all : ∀ text ∈ ".globl main".toList :: "main:".toList :: body, IsContent text := by
    rw [List.forall_mem_cons, List.forall_mem_cons]
    exact ⟨⟨by decide, by decide, by decide, by decide, by decide⟩,
      ⟨by decide, by decide, by decide, by decide, by decide⟩, content⟩
  rw [Sections.ofSource, textSource, partition_textHeader _ all]
  rfl

/-! Instructions that are written out. -/

/-- An instruction with words is written with tokens, and its operands are registers and
literals. -/
theorem emit_tokens (instruction : Instruction) (words : List Word)
    (emitted : instruction.emit = .ok words) :
    ∃ mnemonic operands, instruction.tokens = mnemonic :: operands ∧
      (∀ operand ∈ operands, IsOperand operand) ∧
      ∀ token ∈ mnemonic :: operands, IsToken token := by
  obtain ⟨machine, expanded, encoded⟩ := (emit_ok_iff instruction words).mp emitted
  cases shape : instruction.tokens with
  | nil =>
      rw [shape] at expanded
      cases expanded
  | cons mnemonic operands =>
      rw [shape] at expanded
      exact ⟨mnemonic, operands, rfl,
        expand_operands mnemonic operands machine words expanded encoded,
        expand_isToken mnemonic operands machine words expanded encoded⟩

theorem instructionText_isContent (mnemonic : Text) (operands : List Text)
    (spelled : ∀ token ∈ mnemonic :: operands, IsToken token) :
    IsContent (instructionText (mnemonic :: operands)) where
  whole := instructionText_lacks mnemonic operands spelled '\n' (by decide)
  ended last := instructionText_lacks mnemonic operands spelled '\r' (by decide)
    (List.mem_of_getLast? last)
  nonempty := by
    obtain ⟨c, rest, shape, -⟩ := instructionText_first mnemonic operands spelled
    rw [shape]
    exact List.cons_ne_nil c rest
  code := codeOf_instructionText mnemonic operands spelled
  role := lineRole_instructionText mnemonic operands spelled

/-- Consecutive instructions are placed again where they were, with their words. -/
theorem placeFrom_again (address : UInt32) (instructions : List Instruction)
    (groups : List (List Word)) (consecutive : Consecutive address instructions)
    (emitted : List.Forall₂ (fun instruction group => instruction.emit = .ok group)
      instructions groups) (lines : List Line)
    (codes : lines.map Line.code =
      instructions.map fun instruction => instructionText instruction.tokens) :
    ∃ again, placeFrom address lines = .ok ⟨again, []⟩ ∧
      again.map Instruction.withoutLine = instructions.map Instruction.withoutLine ∧
      List.Forall₂ (fun instruction group => instruction.emit = .ok group) again groups := by
  -- The addresses follow from the sizes, so the induction carries no more than the next one.
  induction emitted generalizing address lines with
  | nil =>
      rw [List.map_nil, List.map_eq_nil_iff] at codes
      rw [codes]
      exact ⟨[], rfl, rfl, .nil⟩
  | cons first _ ih =>
      rename_i instruction group rest groups _
      obtain ⟨atAddress, sized, tail⟩ := consecutive
      obtain ⟨mnemonic, operands, shape, -, spelled⟩ := emit_tokens instruction group first
      cases lines with
      | nil => cases codes
      | cons line lines =>
          rw [List.map_cons, List.map_cons, List.cons.injEq, shape] at codes
          have size : instruction.size = byteSize mnemonic := by
            rw [sized, Instruction.mnemonic, shape]
            rfl
          rw [size] at tail
          obtain ⟨again, later, same, words⟩ := ih _ tail lines codes.2
          have parsed := parse_instructionText mnemonic operands spelled
          rw [← codes.1] at parsed
          refine ⟨_, placeFrom_instruction address line lines mnemonic operands _ parsed later,
            ?_, ?_⟩
          · rw [List.map_cons, List.map_cons, same]
            simp only [Instruction.withoutLine, shape, atAddress, size]
          · refine .cons ?_ words
            rw [emit_ok_iff, ← shape]
            exact (emit_ok_iff instruction group).mp first

/-! Labels that are no operands. -/

def entryName : Text := "main".toList

theorem entryName_not_operand : ¬ IsOperand entryName := by
  rintro (⟨register, named⟩ | ⟨number, value⟩)
  · have unnamed : Register.ofName? entryName = none := by decide
    rw [unnamed] at named
    cases named
  · have unread : Literal.value? entryName = none := by decide
    rw [unread] at value
    cases value

/-- The one label of a text source, and what it means. -/
def entryOnly : List (Symbol UInt32) := [⟨entryName, 3, 0⟩]

theorem entryOnly_undefined (operand : Text) (valid : IsOperand operand) :
    (empty.define entryOnly).1.address? operand = none := by
  have different : entryName ≠ operand := by
    rintro rfl
    exact entryName_not_operand valid
  rw [address_define_empty, entryOnly, lastDefinition_cons, if_neg different]
  rfl

section Emitted

variable (instructions : List Instruction) (groups : List (List Word))
variable (emitted : List.Forall₂ (fun instruction group => instruction.emit = .ok group)
  instructions groups)

include emitted

theorem written_isContent :
    ∀ text ∈ instructions.map (fun instruction => instructionText instruction.tokens),
      IsContent text := by
  rw [List.forall_mem_map]
  intro instruction member
  obtain ⟨group, words⟩ := emitted_mem instructions groups emitted instruction member
  obtain ⟨mnemonic, operands, shape, -, spelled⟩ := emit_tokens instruction group words
  rw [shape]
  exact instructionText_isContent mnemonic operands spelled

theorem resolve_entryOnly (base : UInt64) :
    instructions.map (Instruction.resolve (empty.define entryOnly).1 (empty.define []).1 base) =
      instructions := by
  conv_rhs => rw [← List.map_id instructions]
  refine List.map_congr_left fun instruction member => ?_
  obtain ⟨group, words⟩ := emitted_mem instructions groups emitted instruction member
  obtain ⟨mnemonic, operands, shape, valid, -⟩ := emit_tokens instruction group words
  apply resolve_unchanged
  intro operand inside
  rw [shape] at inside
  exact ⟨entryOnly_undefined operand (valid operand inside), rfl⟩

end Emitted

theorem resolvedSource_reassembles (path source : Text) (base : UInt64) (program : Program)
    (assembled : assemble path source base = .ok program) (otherPath : Text) :
    ∃ again, assemble otherPath program.resolvedSource ({} : Config).dataBase = .ok again ∧
      again.machineWords = program.machineWords ∧
      again.instructions.map Instruction.withoutLine =
        program.instructions.map Instruction.withoutLine := by
  obtain ⟨stages, leads⟩ := assemble_ok path source base program assembled
  have content := written_isContent program.instructions stages.groups leads.emitted
  obtain ⟨again, placed, same, emitted⟩ := placeFrom_again 0 program.instructions stages.groups
    leads.consecutive leads.emitted _ (codeLinesFrom_content 4 _ content)
  have entry := placeFrom_label 0 ⟨3, entryLabel⟩ _ entryName _ rfl placed
  -- The stages of the second run, from which it follows that the run succeeds.
  let reread : Stages :=
    ⟨⟨⟨3, entryLabel⟩ :: codeLinesFrom 4 (program.instructions.map fun instruction =>
      instructionText instruction.tokens), []⟩, ⟨again, entryOnly⟩, ⟨[], [], 0⟩, stages.groups⟩
  let result : Program :=
    ⟨again, program.machineWords, [], (empty.define entryOnly).1, (empty.define []).1, []⟩
  have leadsAgain : reread.LeadTo program.resolvedSource ({} : Config).dataBase result :=
    { split := ofSource_textSource _ content
      placed := entry
      laid := rfl
      code := rfl
      data := rfl
      instructions := (resolve_entryOnly again stages.groups emitted _).symm
      emitted
      words := leads.words
      values := rfl
      warnings := rfl }
  exact ⟨result, leadsAgain.assembled otherPath, rfl, same⟩

/-- References to data and to text, an offset in parentheses and a comment. -/
theorem resolvedSource_reassembles_references :
    let source :=
      ".data\nn: .word 3\n.text\n.globl main\nmain:\nla a0, n # n\n\tlw t0,(a0)\nj main".toList
    ∃ program again, assemble [] source 4096 = .ok program ∧
      program.instructions.map Instruction.tokens =
        [["la", "a0", "4096"], ["lw", "t0", "0", "a0"], ["j", "-12"]].map
          (List.map String.toList) ∧
      program.machineWords.length = 4 ∧
      assemble [] program.resolvedSource ({} : Config).dataBase = .ok again ∧
      again.machineWords = program.machineWords ∧
      again.instructions.map Instruction.withoutLine =
        program.instructions.map Instruction.withoutLine := by
  obtain ⟨again, rest⟩ := resolvedSource_reassembles []
    ".data\nn: .word 3\n.text\n.globl main\nmain:\nla a0, n # n\n\tlw t0,(a0)\nj main".toList
    4096 _ rfl []
  exact ⟨_, again, rfl, rfl, rfl, rest⟩

end RiscAssembly
