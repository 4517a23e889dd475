import RiscAssembly.Program.Assemble
import RiscAssembly.Proofs.Agreement
import RiscAssembly.Proofs.SyntaxErrors

/-!
Assembling reads what lines say and never how they are numbered: numbers only travel into
instructions, symbols, warnings and errors. So lines that are numbered differently assemble
alike, with every number replaced by its counterpart. The one number that is made up, that
of a source without any text, is none of these; every other error is about a line.
-/

namespace RiscAssembly

section Numbers

variable (places : Nat → Nat)

def Line.renumber (line : Line) : Line := { line with number := places line.number }

@[simp]
theorem Line.renumber_code (line : Line) : (line.renumber places).code = line.code := rfl

def LocatedError.renumber (found : LocatedError) : LocatedError :=
  { found with line := places found.line }

def Warning.renumber (warning : Warning) : Warning :=
  { warning with line := places warning.line, previous := places warning.previous }

def Symbol.renumber {Address : Type} (symbol : Symbol Address) : Symbol Address :=
  { symbol with line := places symbol.line }

def SymbolTable.renumber {Address : Type} (table : SymbolTable Address) :
    SymbolTable Address where
  symbols := table.symbols.map (Symbol.renumber places)
  unique := by
    rw [List.map_map]
    exact table.unique

def Instruction.renumber (instruction : Instruction) : Instruction :=
  { instruction with line := places instruction.line }

@[simp]
theorem Instruction.renumber_address (instruction : Instruction) :
    (instruction.renumber places).address = instruction.address := rfl

/-- The same program from lines with other numbers. -/
def Program.renumber (program : Program) : Program :=
  { program with
    instructions := program.instructions.map (Instruction.renumber places)
    codeSymbols := program.codeSymbols.renumber places
    dataSymbols := program.dataSymbols.renumber places
    warnings := program.warnings.map (Warning.renumber places) }

def Sections.renumber (sections : Sections) : Sections :=
  ⟨sections.text.map (Line.renumber places), sections.data.map (Line.renumber places)⟩

def Partition.renumber (parts : Partition) : Partition :=
  ⟨parts.sections.renumber places, parts.textHeader.map places⟩

def Placement.renumber (placement : Placement) : Placement :=
  ⟨placement.instructions.map (Instruction.renumber places),
    placement.definitions.map (Symbol.renumber places)⟩

def DataLayout.renumber (layout : DataLayout) : DataLayout :=
  { layout with definitions := layout.definitions.map (Symbol.renumber places) }

def DataSegment.renumber (segment : DataSegment) : DataSegment :=
  { segment with
    symbols := segment.symbols.renumber places
    warnings := segment.warnings.map (Warning.renumber places) }

/-- The same error on the counterpart of its line; it is about a line. -/
def Moved (left right : LocatedError) : Prop :=
  right = left.renumber places ∧ left.error ≠ .structural .missingTextSection

end Numbers

/-! Symbol tables. -/

namespace SymbolTable

variable {Address : Type} (places : Nat → Nat)

theorem find_renumber (table : SymbolTable Address) (name : Text) :
    (table.renumber places).find? name = (table.find? name).map (Symbol.renumber places) := by
  rw [find?, renumber, List.find?_map]
  rfl

theorem address_renumber (table : SymbolTable Address) (name : Text) :
    (table.renumber places).address? name = table.address? name := by
  rw [address?, find_renumber, Option.map_map]
  rfl

theorem put_renumber (symbol : Symbol Address) (symbols : List (Symbol Address)) :
    Text.put Symbol.name (symbol.renumber places) (symbols.map (Symbol.renumber places)) =
      (Text.put Symbol.name symbol symbols).map (Symbol.renumber places) := by
  induction symbols with
  | nil => rfl
  | cons first rest ih =>
      by_cases same : first.name = symbol.name
      · simp [Text.put, Symbol.renumber, same]
      · simpa [Text.put, Symbol.renumber, same] using ih

theorem define_renumber (table : SymbolTable Address) (definitions : List (Symbol Address)) :
    (table.renumber places).define (definitions.map (Symbol.renumber places)) =
      ((table.define definitions).1.renumber places,
        (table.define definitions).2.map (Warning.renumber places)) := by
  induction definitions generalizing table with
  | nil => rfl
  | cons symbol rest ih =>
      have inserted : (table.renumber places).insert (symbol.renumber places) =
          (table.insert symbol).renumber places :=
        SymbolTable.ext (put_renumber places symbol table.symbols)
      have warned : (table.renumber places).redefinition? (symbol.renumber places) =
          (table.redefinition? symbol).map (Warning.renumber places) := by
        rw [redefinition?, redefinition?, find_renumber, Option.map_map, Option.map_map]
        rfl
      rw [List.map_cons, define, define, inserted, ih, warned]
      cases table.redefinition? symbol <;> rfl

end SymbolTable

/-! The stages of assembling. -/

section Stages

variable (places : Nat → Nat)

theorem onLine_renumber {Value : Type} (number : Nat) (outcome : Except SourceError Value)
    (failure : FailsBySyntax outcome) :
    Agree (Moved places) Eq (onLine number outcome) (onLine (places number) outcome) := by
  cases outcome with
  | ok value => exact .ok rfl
  | error found =>
      refine .error ⟨rfl, ?_⟩
      rintro rfl
      exact failure _ rfl

theorem advance_renumber (number : Nat) (entry : DataEntry) (offset : UInt64) :
    Agree (Moved places) Eq (onLine number (entry.advance offset))
      (onLine (places number) (entry.advance offset)) := by
  unfold DataEntry.advance
  split
  · exact .ok rfl
  · split
    · exact .ok rfl
    · exact .error ⟨rfl, by simp⟩

theorem partitionFrom_renumber (current : Option Section) (lines : List Line) :
    Agree (Moved places) (fun left right => right = left.renumber places)
      (partitionFrom current lines) (partitionFrom current (lines.map (Line.renumber places))) := by
  induction lines generalizing current with
  | nil => exact .ok rfl
  | cons line rest ih =>
      rw [List.map_cons, partitionFrom.eq_def, partitionFrom.eq_def]
      dsimp only [Line.renumber]
      cases lineRole line.code with
      | unsupportedHeader => exact .error ⟨rfl, by simp⟩
      | header kind =>
          cases kind with
          | text => exact (ih _).bind fun _ _ same => .ok (by rw [same]; rfl)
          | data => exact ih _
          | bss => exact (ih _).bind fun _ _ same => .ok (by rw [same]; rfl)
      | content =>
          rcases current with _ | _ | _ | _
          · exact .error ⟨rfl, by simp⟩
          · exact (ih _).bind fun _ _ same => .ok (by rw [same]; rfl)
          · exact (ih _).bind fun _ _ same => .ok (by rw [same]; rfl)
          · exact (ih _).bind fun _ _ same => .ok (by rw [same]; rfl)

theorem dropEntryDeclaration_renumber (header : Nat) (text : List Line) :
    Agree (Moved places) (fun left right => right = left.map (Line.renumber places))
      (dropEntryDeclaration header text)
      (dropEntryDeclaration (places header) (text.map (Line.renumber places))) := by
  cases text with
  | nil => exact .error ⟨rfl, by simp⟩
  | cons first rest =>
      have label : (rest.map (Line.renumber places)).head?.map Line.code =
          rest.head?.map Line.code := by
        cases rest <;> rfl
      simp only [List.map_cons, dropEntryDeclaration, label, Line.renumber_code]
      by_cases declared : Text.words first.code = entryDeclaration
      · by_cases labelled : rest.head?.map Line.code = some entryLabel
        · simp only [declared, labelled, if_true]
          exact .ok rfl
        · simp only [declared, labelled, if_true, if_false]
          exact .error ⟨rfl, by simp⟩
      · simp only [declared, if_false]
        exact .error ⟨rfl, by simp⟩

theorem placeFrom_renumber (address : UInt32) (lines : List Line) :
    Agree (Moved places) (fun left right => right = left.renumber places)
      (placeFrom address lines) (placeFrom address (lines.map (Line.renumber places))) := by
  induction lines generalizing address with
  | nil => exact .ok rfl
  | cons line rest ih =>
      rw [List.map_cons, placeFrom, placeFrom]
      refine (onLine_renumber places line.number _ (statement_failsBySyntax line.code)).bind ?_
      rintro statement _ rfl
      cases statement with
      | label name => exact (ih _).bind fun _ _ same => .ok (by rw [same]; rfl)
      | instruction tokens =>
          cases tokens with
          | nil => exact .error ⟨rfl, by simp⟩
          | cons mnemonic operands =>
              exact (ih _).bind fun _ _ same => .ok (by rw [same]; rfl)

theorem dataLayoutFrom_renumber (offset : UInt64) (lines : List Line) :
    Agree (Moved places) (fun left right => right = left.renumber places)
      (dataLayoutFrom offset lines)
      (dataLayoutFrom offset (lines.map (Line.renumber places))) := by
  induction lines generalizing offset with
  | nil => exact .ok rfl
  | cons line rest ih =>
      rw [List.map_cons, dataLayoutFrom, dataLayoutFrom]
      refine (onLine_renumber places line.number _ (entry_failsBySyntax line.code)).bind ?_
      rintro entry _ rfl
      refine (advance_renumber places line.number entry offset).bind ?_
      rintro next _ rfl
      refine (ih next).bind fun tail _ same => .ok ?_
      rw [same, DataLayout.renumber, DataLayout.renumber, List.map_append, DataEntry.definitions,
        DataEntry.definitions, List.map_map]
      rfl

theorem ofLines_renumber (lines : List Line) :
    Agree (Moved places) (fun left right => right = left.renumber places)
      (DataSegment.ofLines lines)
      (DataSegment.ofLines (lines.map (Line.renumber places))) := by
  refine (dataLayoutFrom_renumber places 0 lines).bind fun layout _ same => .ok ?_
  have defined := SymbolTable.define_renumber places SymbolTable.empty layout.definitions
  rw [same, DataLayout.segment, DataLayout.segment]
  dsimp only [DataLayout.renumber]
  rw [show SymbolTable.empty = SymbolTable.empty.renumber places from rfl, defined]
  rfl

theorem mapOperands_renumber (replace : Text → Text) (instruction : Instruction) :
    (instruction.renumber places).mapOperands replace =
      (instruction.mapOperands replace).renumber places := by
  obtain ⟨tokens, line, address, size⟩ := instruction
  cases tokens <;> rfl

theorem referToData_renumber (symbols : SymbolTable UInt64) (base : UInt64)
    (instructions : List Instruction) :
    referToData (symbols.renumber places) base (instructions.map (Instruction.renumber places)) =
      (referToData symbols base instructions).map (Instruction.renumber places) := by
  have reference : dataReference (symbols.renumber places) base = dataReference symbols base := by
    funext operand
    rw [dataReference, dataReference, SymbolTable.address_renumber]
  rw [referToData, referToData, reference, List.map_map, List.map_map]
  exact List.map_congr_left fun instruction _ => mapOperands_renumber places _ instruction

theorem referToCodeFrom_renumber (symbols : SymbolTable UInt32) (address : UInt32)
    (instructions : List Instruction) :
    Agree (Moved places) (fun left right => right = left.map (Instruction.renumber places))
      (referToCodeFrom symbols address instructions)
      (referToCodeFrom (symbols.renumber places) address
        (instructions.map (Instruction.renumber places))) := by
  have reference (start : UInt32) :
      codeReference (symbols.renumber places) start = codeReference symbols start := by
    funext operand
    rw [codeReference, codeReference, SymbolTable.address_renumber]
  induction instructions generalizing address with
  | nil => exact .ok rfl
  | cons instruction rest ih =>
      simp only [List.map_cons, referToCodeFrom, Instruction.renumber_address]
      by_cases placed : instruction.address = address
      · simp only [placed, if_true]
        refine (ih _).bind fun _ _ same => .ok ?_
        rw [same, reference, List.map_cons, ← mapOperands_renumber]
      · simp only [placed, if_false]
        exact .error ⟨rfl, by simp⟩

theorem emit_renumber (instruction : Instruction) :
    Agree (Moved places) Eq instruction.emit (instruction.renumber places).emit :=
  onLine_renumber places instruction.line _ (asSource_failsBySyntax _)

theorem emitAll_renumber (instructions : List Instruction) :
    Agree (Moved places) Eq (emitAll instructions)
      (emitAll (instructions.map (Instruction.renumber places))) := by
  induction instructions with
  | nil => exact .ok rfl
  | cons instruction rest ih =>
      rw [List.map_cons, emitAll, emitAll]
      refine (emit_renumber places instruction).bind fun words _ same => ?_
      refine ih.bind fun tail _ later => .ok ?_
      rw [same, later]

theorem assembleSections_renumber (sections : Sections) (base : UInt64) :
    Agree (Moved places) (fun left right => right = left.renumber places)
      (assembleSections sections base) (assembleSections (sections.renumber places) base) := by
  rw [assembleSections, assembleSections]
  refine (placeFrom_renumber places 0 sections.text).bind ?_
  rintro placement _ rfl
  have defined := SymbolTable.define_renumber places SymbolTable.empty placement.definitions
  refine (ofLines_renumber places sections.data).bind ?_
  rintro data _ rfl
  dsimp only [Placement.renumber, DataSegment.renumber]
  rw [show SymbolTable.empty = SymbolTable.empty.renumber places from rfl, defined,
    referToData_renumber]
  refine (referToCodeFrom_renumber places _ 0 _).bind ?_
  rintro instructions _ rfl
  refine (emitAll_renumber places instructions).bind ?_
  rintro words _ rfl
  refine .ok ?_
  rw [← List.map_append]
  rfl

end Stages

end RiscAssembly
