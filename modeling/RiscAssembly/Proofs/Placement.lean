import RiscAssembly.Program.Placement
import RiscAssembly.Proofs.Expansion
import RiscAssembly.Proofs.Symbols

/-!
Placement against the lines of text it reads. The placed instructions are the written ones,
in order, each where the sizes before it end; a label has the address at which the sizes of
the lines before its definition end. Addresses are modulo 2^32 throughout. Replacing
operands moves nothing, and so no instruction is found misplaced afterwards.
-/

namespace RiscAssembly

open SymbolTable

/-- The instruction on a line of text as it is written: its line and its tokens. -/
def Line.instruction? (line : Line) : Option (Nat × List Text) :=
  match Statement.parse line.code with
  | .ok (.instruction tokens) => some (line.number, tokens)
  | _ => none

def writtenInstructions (lines : List Line) : List (Nat × List Text) :=
  lines.filterMap Line.instruction?

/-- The bytes that the mnemonics on lines of text announce. -/
def announcedBytes (lines : List Line) : Nat :=
  ((writtenInstructions lines).map fun written => byteSize (written.2.head?.getD [])).sum

/-- The line that settles what a label means, and the lines before it. -/
def DefinedLast (lines : List Line) (name : Text) (before : List Line) (line : Line) : Prop :=
  ∃ after, lines = before ++ line :: after ∧ Statement.parse line.code = .ok (.label name) ∧
    ∀ later ∈ after, Statement.parse later.code ≠ .ok (.label name)

theorem written_label (line : Line) (rest : List Line) (name : Text)
    (parsed : Statement.parse line.code = .ok (.label name)) :
    writtenInstructions (line :: rest) = writtenInstructions rest := by
  have skipped : line.instruction? = none := by simp [Line.instruction?, parsed]
  rw [writtenInstructions, List.filterMap_cons_none skipped, writtenInstructions]

theorem written_instruction (line : Line) (rest : List Line) (tokens : List Text)
    (parsed : Statement.parse line.code = .ok (.instruction tokens)) :
    writtenInstructions (line :: rest) = (line.number, tokens) :: writtenInstructions rest := by
  have taken : line.instruction? = some (line.number, tokens) := by
    simp [Line.instruction?, parsed]
  rw [writtenInstructions, List.filterMap_cons_some taken, writtenInstructions]

/-- What one line does to a placement: a label is defined at the running address, an
instruction takes the address and moves it on by its size. -/
theorem placeFrom_cons (address : UInt32) (line : Line) (rest : List Line)
    (placement : Placement) (placed : placeFrom address (line :: rest) = .ok placement) :
    (∃ name tail, Statement.parse line.code = .ok (.label name) ∧
      placeFrom address rest = .ok tail ∧
      placement = { tail with
        definitions := ⟨name, line.number, address⟩ :: tail.definitions }) ∨
    (∃ mnemonic operands tail,
      Statement.parse line.code = .ok (.instruction (mnemonic :: operands)) ∧
      placeFrom (address + UInt32.ofNat (byteSize mnemonic)) rest = .ok tail ∧
      placement = { tail with
        instructions := ⟨mnemonic :: operands, line.number, address, byteSize mnemonic⟩
          :: tail.instructions }) := by
  simp only [placeFrom, bind_ok_iff, onLine_ok_iff] at placed
  obtain ⟨statement, parsed, step⟩ := placed
  cases statement with
  | label name =>
      simp only [bind_ok_iff, pure_ok_iff] at step
      obtain ⟨tail, later, rfl⟩ := step
      exact .inl ⟨name, tail, parsed, later, rfl⟩
  | instruction tokens =>
      cases tokens with
      | nil => cases step
      | cons mnemonic operands =>
          simp only [bind_ok_iff, pure_ok_iff] at step
          obtain ⟨tail, later, rfl⟩ := step
          exact .inr ⟨mnemonic, operands, tail, parsed, later, rfl⟩

theorem placeFrom_label (address : UInt32) (line : Line) (rest : List Line) (name : Text)
    (tail : Placement) (parsed : Statement.parse line.code = .ok (.label name))
    (later : placeFrom address rest = .ok tail) :
    placeFrom address (line :: rest) = .ok { tail with
      definitions := ⟨name, line.number, address⟩ :: tail.definitions } := by
  simp only [placeFrom, parsed, onLine, bind, Except.bind, later]
  rfl

theorem placeFrom_instruction (address : UInt32) (line : Line) (rest : List Line)
    (mnemonic : Text) (operands : List Text) (tail : Placement)
    (parsed : Statement.parse line.code = .ok (.instruction (mnemonic :: operands)))
    (later : placeFrom (address + UInt32.ofNat (byteSize mnemonic)) rest = .ok tail) :
    placeFrom address (line :: rest) = .ok { tail with
      instructions := ⟨mnemonic :: operands, line.number, address, byteSize mnemonic⟩
        :: tail.instructions } := by
  simp only [placeFrom, parsed, onLine, bind, Except.bind, later]
  rfl

theorem placeFrom_written (address : UInt32) (lines : List Line) (placement : Placement)
    (placed : placeFrom address lines = .ok placement) :
    placement.instructions.map (fun instruction => (instruction.line, instruction.tokens)) =
      writtenInstructions lines := by
  induction lines generalizing address placement with
  | nil =>
      cases placed
      rfl
  | cons line rest ih =>
      rcases placeFrom_cons address line rest placement placed with
        ⟨name, tail, parsed, later, rfl⟩ | ⟨mnemonic, operands, tail, parsed, later, rfl⟩
      · rw [written_label line rest name parsed]
        exact ih address tail later
      · rw [written_instruction line rest _ parsed, List.map_cons, ih _ tail later]

/-- Instructions one behind the other from an address on, each of the size its mnemonic
announces. -/
def Consecutive : UInt32 → List Instruction → Prop
  | _, [] => True
  | address, instruction :: rest =>
      instruction.address = address ∧ instruction.size = byteSize instruction.mnemonic ∧
        Consecutive (address + UInt32.ofNat instruction.size) rest

theorem placeFrom_consecutive (address : UInt32) (lines : List Line) (placement : Placement)
    (placed : placeFrom address lines = .ok placement) :
    Consecutive address placement.instructions := by
  induction lines generalizing address placement with
  | nil =>
      cases placed
      trivial
  | cons line rest ih =>
      rcases placeFrom_cons address line rest placement placed with
        ⟨name, tail, -, later, rfl⟩ | ⟨mnemonic, operands, tail, -, later, rfl⟩
      · exact ih address tail later
      · exact ⟨rfl, rfl, ih _ tail later⟩

/-! Labels. -/

theorem placeFrom_undefined (address : UInt32) (lines : List Line) (placement : Placement)
    (placed : placeFrom address lines = .ok placement) (name : Text)
    (absent : lastDefinition? placement.definitions name = none) :
    ∀ line ∈ lines, Statement.parse line.code ≠ .ok (.label name) := by
  induction lines generalizing address placement with
  | nil =>
      intro line member
      cases member
  | cons line rest ih =>
      rcases placeFrom_cons address line rest placement placed with
        ⟨other, tail, parsed, later, rfl⟩ | ⟨mnemonic, operands, tail, parsed, later, rfl⟩
      · rw [lastDefinition_cons, Option.or_eq_none_iff] at absent
        have different : other ≠ name := by
          intro same
          simp [same] at absent
        intro found member
        rcases List.mem_cons.mp member with rfl | inRest
        · rw [parsed]
          simpa using different
        · exact ih address tail later absent.1 found inRest
      · intro found member
        rcases List.mem_cons.mp member with rfl | inRest
        · simp [parsed]
        · exact ih _ tail later absent found inRest

theorem announced_label (line : Line) (before : List Line) (name : Text)
    (parsed : Statement.parse line.code = .ok (.label name)) :
    announcedBytes (line :: before) = announcedBytes before := by
  rw [announcedBytes, written_label line before name parsed, announcedBytes]

theorem announced_instruction (line : Line) (before : List Line) (mnemonic : Text)
    (operands : List Text)
    (parsed : Statement.parse line.code = .ok (.instruction (mnemonic :: operands))) :
    announcedBytes (line :: before) = byteSize mnemonic + announcedBytes before := by
  rw [announcedBytes, written_instruction line before _ parsed, announcedBytes]
  simp

theorem definedLast_cons (first : Line) (lines : List Line) (name : Text) (before : List Line)
    (line : Line) (defined : DefinedLast lines name before line) :
    DefinedLast (first :: lines) name (first :: before) line := by
  obtain ⟨after, rfl, parsed, none⟩ := defined
  exact ⟨after, rfl, parsed, none⟩

theorem placeFrom_defined (address : UInt32) (lines : List Line) (placement : Placement)
    (placed : placeFrom address lines = .ok placement) (name : Text) (symbol : Symbol UInt32)
    (found : lastDefinition? placement.definitions name = some symbol) :
    ∃ before line, DefinedLast lines name before line ∧
      symbol = ⟨name, line.number, address + UInt32.ofNat (announcedBytes before)⟩ := by
  induction lines generalizing address placement with
  | nil =>
      cases placed
      cases found
  | cons line rest ih =>
      rcases placeFrom_cons address line rest placement placed with
        ⟨other, tail, parsed, later, rfl⟩ | ⟨mnemonic, operands, tail, parsed, later, rfl⟩
      · cases again : lastDefinition? tail.definitions name with
        | some last =>
            rw [lastDefinition_cons, again, Option.some_or] at found
            cases found
            obtain ⟨before, site, defined, rfl⟩ := ih address tail later again
            exact ⟨line :: before, site, definedLast_cons line rest name before site defined,
              by rw [announced_label line before other parsed]⟩
        | none =>
            -- No line of the rest defines the label again, so this one counts.
            rw [lastDefinition_cons, again, Option.none_or] at found
            by_cases same : other = name
            · subst same
              simp only [if_true, Option.some.injEq] at found
              subst found
              exact ⟨[], line,
                ⟨rest, rfl, parsed, placeFrom_undefined address rest tail later other again⟩,
                by simp [announcedBytes, writtenInstructions]⟩
            · simp [same] at found
      · obtain ⟨before, site, defined, rfl⟩ := ih _ tail later found
        refine ⟨line :: before, site, definedLast_cons line rest name before site defined, ?_⟩
        rw [announced_instruction line before mnemonic operands parsed, UInt32.ofNat_add,
          UInt32.add_assoc]

end RiscAssembly
