import RiscAssembly.Proofs.DataGrammar
import RiscAssembly.Proofs.FirstFailure
import RiscAssembly.Proofs.Layout
import RiscAssembly.Proofs.OperandGrammar
import RiscAssembly.Proofs.SyntaxErrors
import RiscAssembly.Report.Listing

/-!
The assembler's own checks hold. No run ends in a fault: every slice lies inside its bit
string, every operand that is taken was counted, every expansion has its declared size and
every instruction stands at its address. The operations that are not checked stay where
machine numbers have them: comments are cut off between characters, lines, strings and
addresses are counted in 64 bits, and no group of words is cut longer than the words that
are left.
-/

namespace RiscAssembly

open Text BitString SymbolTable

def InstructionError.IsFault : InstructionError → Prop
  | .fault _ => True
  | _ => False

def SourceError.IsFault : SourceError → Prop
  | .instruction cause => cause.IsFault
  | _ => False

/-- Whatever error the computation has is no fault. -/
def Faultless {Value : Type} (outcome : Except InstructionError Value) : Prop :=
  FailsWithin (fun cause => ¬ cause.IsFault) outcome

/-! Instructions. -/

theorem encode_faultless (tokens : List Text) : Faultless (encode tokens) := by
  intro cause failed
  have refused := encode_refused tokens cause failed
  cases refused <;> exact id

theorem Expansion.load_faultless (expansion : Expansion)
    (load : expansion = .loadAddress ∨ expansion = .loadImmediate) (rd literal : Text) :
    Faultless (expansion.apply [rd, literal]) := by
  have read : Faultless (Literal.number literal) := by
    intro cause failed
    obtain ⟨-, rfl⟩ := (Literal.number_error_iff literal cause).mp failed
    exact id
  rw [expansion.apply_load load]
  exact read.bind fun _ _ => failsWithin_ok _ _

/-- An expansion asks for no operand beyond the arity. -/
def Expansion.asksWithin (arity : Nat) : Expansion → Bool
  | .template slots => slots.all fun
    | .operand index => index < arity
    | .token _ => true
  | _ => arity = 2

theorem fillAll_faultless (operands : List Text) (slots : List Slot)
    (within : (Expansion.template slots).asksWithin operands.length = true) :
    Faultless (slots.mapM (Slot.fill operands)) := by
  induction slots with
  | nil => exact failsWithin_ok _ _
  | cons slot rest ih =>
      rw [Expansion.asksWithin, List.all_cons, Bool.and_eq_true] at within
      have later : Faultless (rest.mapM (Slot.fill operands)) := ih within.2
      rw [List.mapM_cons]
      have filled : Faultless (slot.fill operands) := by
        cases slot with
        | token text => exact failsWithin_ok _ _
        | operand index =>
            have inside : index < operands.length := by simpa using within.1
            rw [Slot.fill, List.getElem?_eq_getElem inside]
            exact failsWithin_ok _ _
      exact filled.bind fun _ _ => later.bind fun _ _ => failsWithin_ok _ _

theorem Expansion.apply_faultless (expansion : Expansion) (operands : List Text)
    (within : expansion.asksWithin operands.length = true) :
    Faultless (expansion.apply operands) := by
  cases expansion with
  | template slots =>
      exact (fillAll_faultless operands slots within).bind fun _ _ => failsWithin_ok _ _
  | loadAddress =>
      obtain ⟨rd, literal, rfl⟩ := List.length_eq_two.mp (of_decide_eq_true within)
      exact load_faultless _ (.inl rfl) rd literal
  | loadImmediate =>
      obtain ⟨rd, literal, rfl⟩ := List.length_eq_two.mp (of_decide_eq_true within)
      exact load_faultless _ (.inr rfl) rd literal

theorem Pseudo.expand_faultless (pseudo : Pseudo) (member : pseudo ∈ all) (operands : List Text) :
    Faultless (pseudo.expand operands) := by
  have table : ∀ p ∈ all, p.expansion.asksWithin p.arity = true := by decide
  unfold Pseudo.expand
  split
  · rename_i counted
    have within := table pseudo member
    rw [← counted] at within
    refine (pseudo.expansion.apply_faultless operands within).bind fun machine applied => ?_
    have size : machine.length * 4 = pseudo.size := by
      rw [pseudo.expansion.apply_length operands machine applied, pseudo.size_declared member]
    rw [if_pos size]
    exact failsWithin_ok _ _
  · exact failsWithin_error _ _ id

theorem expand_faultless (tokens : List Text) : Faultless (expand tokens) := by
  cases tokens with
  | nil => exact failsWithin_error _ _ id
  | cons mnemonic operands =>
      rw [expand]
      cases found : Pseudo.find? mnemonic with
      | some pseudo => exact pseudo.expand_faultless (List.mem_of_find?_eq_some found) operands
      | none =>
          cases Catalogue.find? mnemonic with
          | some descriptor => exact failsWithin_ok _ _
          | none => exact failsWithin_error _ _ id

/-! Runs. -/

theorem SourceError.IsOfLine.not_fault {cause : SourceError} (ofLine : cause.IsOfLine) :
    ¬ cause.IsFault := by
  cases cause with
  | instruction inner =>
      cases inner with
      | fault broken => exact ofLine.elim
      | _ => exact id
  | _ => exact id

theorem SplitFailure.not_fault {lines : List Line} {found : LocatedError}
    (failure : SplitFailure lines found) : ¬ found.error.IsFault := by
  cases failure with
  | line before line cause first =>
      obtain ⟨-, -, -, -, failed⟩ := first
      simp only [checkSection] at failed
      split at failed
      · cases failed
        exact id
      · split at failed
        · cases failed
          exact id
        · cases failed
      · cases failed
  | _ => exact id

theorem DataStops.not_fault {offset : UInt64} {lines : List Line} {line : Line}
    {cause : SourceError} (stops : DataStops offset lines line cause) : ¬ cause.IsFault := by
  obtain ⟨before, after, layout, -, -, failed⟩ := stops
  rcases (bind_error_iff _ _ cause).mp failed with unread | ⟨entry, -, stopped⟩
  · exact (entry_ofLine line.code cause unread).not_fault
  · obtain ⟨-, directive, rfl⟩ := entry.advance_error layout.size cause stopped
    exact id

theorem FirstFailure.not_fault {source : Text} {base : UInt64} {found : LocatedError}
    (failure : FirstFailure source base found) : ¬ found.error.IsFault := by
  cases failure with
  | split _ failure => exact failure.not_fault
  | statement _ line cause _ _ first =>
      obtain ⟨-, -, -, -, failed⟩ := first
      exact (statement_ofLine line.code cause failed).not_fault
  | data _ line cause _ _ _ first => exact first.not_fault
  | instruction _ placement data instruction _ cause _ _ _ _ _ _ refused =>
      rcases refused with unexpanded | ⟨machine, form, -, -, -, -, -, failed⟩
      · exact expand_faultless _ cause unexpanded
      · exact encode_faultless form cause failed

/-! Reading. -/

/-- A comment starts between two characters of its line, lines are counted in 64 bits, and so
are the characters of a string with the zero behind them. -/
structure ReadInRange (source : Text) : Prop where
  comments : ∀ raw ∈ lines source, ∃ comment,
    cutBytes (byteLength (stripComment raw)) raw = some (stripComment raw, comment)
  numbers : ∀ index < (lines source).length, index + 1 < UInt64.size
  strings : ∀ sections, Sections.ofSource source = .ok sections → ∀ line ∈ sections.data,
    ∀ label characters, DataEntry.parse line.code = .ok ⟨label, some (.string characters)⟩ →
      characters.length + 1 < UInt64.size

theorem cutBytes_append (front rest : Text) :
    cutBytes (byteLength front) (front ++ rest) = some (front, rest) := by
  induction front with
  | nil => rw [byteLength, cutBytes]; rfl
  | cons c front ih =>
      have positive := c.utf8Size_pos
      obtain ⟨count, bytes⟩ : ∃ count, byteLength (c :: front) = count + 1 :=
        ⟨c.utf8Size + byteLength front - 1, by rw [byteLength]; omega⟩
      have left : count + 1 - c.utf8Size = byteLength front := by
        rw [← bytes, byteLength]
        omega
      rw [bytes, List.cons_append, cutBytes, if_pos (by rw [← bytes, byteLength]; omega), left, ih]
      rfl

theorem stripCommentFrom_front (state : QuoteState) (raw : Text) :
    stripCommentFrom state raw <+: raw := by
  induction raw generalizing state with
  | nil => cases state <;> exact List.prefix_refl []
  | cons c rest ih =>
      cases state with
      | outside =>
          rw [stripCommentFrom]
          split
          · exact List.nil_prefix
          · exact List.cons_prefix_cons.mpr ⟨rfl, ih _⟩
      | inside => exact List.cons_prefix_cons.mpr ⟨rfl, ih _⟩
      | escaped => exact List.cons_prefix_cons.mpr ⟨rfl, ih _⟩

theorem codeOf_within (raw : Text) : codeOf raw <:+: raw :=
  (trim_within _).trans (stripCommentFrom_front .outside raw).isInfix

theorem cleanedLines_length (source : Text) (line : Line) (member : line ∈ cleanedLines source) :
    line.code.length ≤ source.length := by
  obtain ⟨-, raw, found, code⟩ := cleanedLines_written source line member
  rw [← code]
  exact ((codeOf_within raw).trans
    (lines_within source raw (List.mem_of_getElem? found))).length_le

theorem Unescaped.length_le {body characters : Text} (unescaped : Unescaped body characters) :
    characters.length ≤ body.length := by
  induction unescaped with
  | done => exact Nat.le_refl 0
  | newline body characters _ ih =>
      simp only [List.length_cons]
      omega
  | plain c body characters _ _ ih =>
      simp only [List.length_cons]
      omega

theorem ArgumentForm.string_length {arguments : Text} {record : DataRecord}
    (form : ArgumentForm arguments record) (string : record.name = .string) :
    record.count + 1 ≤ arguments.length := by
  cases form with
  | word => cases string
  | space => cases string
  | string body characters _ unescaped _ padded =>
      have shorter := unescaped.length_le
      have inside := padded.within.length_le
      simp only [List.length_append, List.length_cons, List.length_nil] at inside ⊢
      omega

theorem DirectiveForm.string_length {text : Text} {record : DataRecord}
    (form : DirectiveForm text record) (string : record.name = .string) :
    record.count + 1 ≤ text.length := by
  cases form with
  | named c arguments _ _ form =>
      have inside := form.string_length string
      simp only [List.length_append, List.length_cons]
      omega

/-- Together with its quotes, a string is part of its line. -/
theorem DataForm.string_length {code : Text} {label : Option Text} {record : DataRecord}
    (form : DataForm code label (some record)) (string : record.name = .string) :
    record.count + 1 ≤ code.length := by
  cases form with
  | directive _ _ form => exact form.string_length string
  | labelled _ name rest directive _ labelled padded form =>
      obtain ⟨front, -, -, rfl⟩ := labelled.split
      have inDirective := form.string_length string
      have inside := padded.within.length_le
      simp only [List.length_append, List.length_cons]
      omega

theorem readInRange (source : Text) (fits : byteLength source < UInt64.size) :
    ReadInRange source where
  comments := by
    intro raw _
    obtain ⟨comment, whole⟩ := stripCommentFrom_front .outside raw
    have cut := cutBytes_append (stripComment raw) comment
    exact ⟨comment, by rwa [stripComment, whole] at cut⟩
  numbers := by
    intro index inside
    have counted := lines_length source
    have bytes := length_le_byteLength source
    omega
  strings := by
    intro sections split line member label characters parsed
    have quoted : characters.length + 1 + 1 ≤ line.code.length :=
      (DataEntry.form_of_parse _ _ parsed).string_length rfl
    have bytes := length_le_byteLength source
    rcases (ofSource_lines source sections split).2 line member with written | marker
    · have inside := cleanedLines_length source line written
      omega
    · rw [marker] at parsed
      cases parsed

/-! Instructions. -/

/-- What is done to the tokens of an instruction at an address. The distance to a label is a
signed number of 64 bits; the upper part of an address has room for one more, and the bytes of
an expansion are counted in 32 bits. -/
structure InstructionInRange (address : UInt32) (tokens : List Text) : Prop where
  expands : Faultless (expand tokens)
  encodes : Faultless (encode tokens)
  distances : ∀ target : UInt32, -2 ^ 63 ≤ (target.toNat : Int) - address.toNat ∧
    (target.toNat : Int) - address.toNat < 2 ^ 63
  uppers : ∀ literal ∈ tokens, ∀ bits upper, Literal.twosComplement literal = .ok bits →
    slice bits 31 12 = .ok upper → unsigned upper + 1 < UInt64.size
  sizes : ∀ machine, expand tokens = .ok machine → machine.length * 4 < UInt32.size

theorem byteSize_le (mnemonic : Text) : byteSize mnemonic ≤ 32 := by
  have table : ∀ p ∈ Pseudo.all, p.size ≤ 32 := by decide
  unfold byteSize
  split
  · rename_i pseudo found
    exact table pseudo (List.mem_of_find?_eq_some found)
  · decide

theorem instructionInRange (address : UInt32) (tokens : List Text) :
    InstructionInRange address tokens where
  expands := expand_faultless tokens
  encodes := encode_faultless tokens
  distances := by
    intro target
    have upper := target.toNat_lt
    have lower := address.toNat_lt
    constructor <;> omega
  uppers := by
    intro literal _ bits upper read cut
    obtain ⟨value, -, rfl⟩ := (Literal.twosComplement_ok_iff literal bits).mp read
    rw [slice_binary 64 _ 31 12 (by decide) (by decide)] at cut
    cases cut
    have below := unsigned_lt (binary 20 ((value % 2 ^ 64).toNat / 2 ^ 12)) (by simp)
    rw [length_binary] at below
    have room : 2 ^ 20 < UInt64.size := by decide
    exact Nat.lt_of_le_of_lt below room
  sizes := by
    intro machine expanded
    cases tokens with
    | nil => cases expanded
    | cons mnemonic operands =>
        have length := expand_length mnemonic operands machine expanded
        have small := byteSize_le mnemonic
        have room : 32 < UInt32.size := by decide
        omega

/-! Words and listings. -/

/-- Each instruction finds as many words as its size tells, and the addresses in front of them
are counted in 64 bits. -/
structure Program.PrintsInRange (program : Program) : Prop where
  groups : ∀ share ∈ program.wordsByInstruction, share.2.length = share.1.size / 4
  addresses : ∀ address bits line tokens,
    ListingRow.word address bits line tokens ∈ program.listingRows → address < UInt64.size

theorem laterWordRows_below (line start : Nat) (words : List Word) (address : Nat) (bits : Word)
    (number : Nat) (tokens : Option (List Text))
    (row : ListingRow.word address bits number tokens ∈ laterWordRows line start words) :
    address < start + 4 * words.length := by
  induction words generalizing start with
  | nil => cases row
  | cons word rest ih =>
      rw [List.length_cons]
      rcases List.mem_cons.mp row with first | later
      · cases first
        omega
      · have := ih (start + 4) later
        omega

theorem wordRows_below (instruction : Instruction) (words : List Word) (address : Nat)
    (bits : Word) (number : Nat) (tokens : Option (List Text))
    (row : ListingRow.word address bits number tokens ∈ wordRows instruction words) :
    address < instruction.address.toNat + 4 * words.length := by
  cases words with
  | nil => cases row
  | cons word rest =>
      rw [List.length_cons]
      rcases List.mem_cons.mp row with first | later
      · cases first
        omega
      · have := laterWordRows_below _ _ rest address bits number tokens later
        omega

theorem Stages.LeadTo.printsInRange {stages : Stages} {source : Text} {base : UInt64}
    {program : Program} (leads : stages.LeadTo source base program) : program.PrintsInRange := by
  have filled : ∀ share ∈ program.wordsByInstruction, share.1.Filled share.2 := by
    rw [leads.shared]
    exact fun share member => List.forall₂_zip leads.filled member
  constructor
  · intro share member
    have count := (filled share member).count
    omega
  · intro address bits line tokens row
    obtain ⟨share, member, inShare⟩ := List.mem_flatMap.mp row
    have below : address < share.1.address.toNat + 4 * share.2.length := by
      rcases List.mem_append.mp inShare with label | word
      · obtain ⟨symbol, -, other⟩ := List.mem_map.mp label
        cases other
      · exact wordRows_below _ _ address bits line tokens word
    have count := (filled share member).count
    have sized := (filled share member).size
    have small := byteSize_le share.1.mnemonic
    have start := share.1.address.toNat_lt
    have room : 2 ^ 32 + 32 < UInt64.size := by decide
    omega

/-- No run breaks a check of the assembler, and all that is not checked stays in range. -/
theorem assemble_never_faults (path source : Text) (base : UInt64)
    (fits : byteLength source < UInt64.size) :
    (∀ diagnostic, assemble path source base = .error diagnostic → ¬ diagnostic.error.IsFault) ∧
      ReadInRange source ∧ (∀ address tokens, InstructionInRange address tokens) ∧
      ∀ program, assemble path source base = .ok program → program.PrintsInRange := by
  refine ⟨?_, readInRange source fits, instructionInRange, ?_⟩
  · intro diagnostic failed
    rw [assemble_eq_stages, mapError_error_iff] at failed
    obtain ⟨found, first, rfl⟩ := failed
    exact ((stages_error_iff source base found).mp first).not_fault
  · intro program assembled
    obtain ⟨stages, leads⟩ := assemble_ok path source base program assembled
    exact leads.printsInRange

/-- A comment that is cut off in front of characters of two bytes, and a group of eight words. -/
theorem assemble_never_faults_comment :
    let source := ".data\ns: .string \"#\"# \u00e9\n.text\n.globl main\nmain:\nli a0, s".toList
    byteLength source < UInt64.size ∧ ReadInRange source ∧
      ∃ program, assemble [] source 0 = .ok program ∧ program.PrintsInRange := by
  have fits : byteLength
      ".data\ns: .string \"#\"# \u00e9\n.text\n.globl main\nmain:\nli a0, s".toList <
        UInt64.size := by decide
  obtain ⟨-, read, -, prints⟩ := assemble_never_faults [] _ 0 fits
  exact ⟨fits, read, _, rfl, prints _ rfl⟩

end RiscAssembly
