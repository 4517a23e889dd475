import RiscAssembly.Proofs.Agreement
import RiscAssembly.Proofs.DataGrammar
import RiscAssembly.Proofs.LineGrammar
import RiscAssembly.Proofs.Resolution
import RiscAssembly.Proofs.Sectioning

/-!
What a failed run reports. Each stage goes through its items from the top: the lines of the
source, the statements of the text, the lines of data and the instructions. A run fails
exactly if an item of some stage does, and what it reports is the first item of the first
such stage, with the line of that item and the error it has by itself.
-/

namespace RiscAssembly

open Text SymbolTable

section FirstFails

variable {Item Cause Value : Type}

/-- The first of some items at which a step fails. -/
def FirstFails (step : Item → Except Cause Value) (items : List Item) (item : Item)
    (cause : Cause) : Prop :=
  ∃ before after, items = before ++ item :: after ∧
    (∀ earlier ∈ before, ∃ value, step earlier = .ok value) ∧ step item = .error cause

theorem firstFails_nil (step : Item → Except Cause Value) (item : Item) (cause : Cause) :
    ¬ FirstFails step [] item cause := by
  rintro ⟨before, after, split, -⟩
  simp at split

theorem firstFails_cons_iff (step : Item → Except Cause Value) (first : Item) (rest : List Item)
    (item : Item) (cause : Cause) :
    FirstFails step (first :: rest) item cause ↔
      (item = first ∧ step first = .error cause) ∨
        (∃ value, step first = .ok value) ∧ FirstFails step rest item cause := by
  constructor
  · rintro ⟨before, after, split, passed, failed⟩
    cases before with
    | nil =>
        cases split
        exact .inl ⟨rfl, failed⟩
    | cons earlier before =>
        cases split
        rw [List.forall_mem_cons] at passed
        exact .inr ⟨passed.1, before, after, rfl, passed.2, failed⟩
  · rintro (⟨rfl, failed⟩ | ⟨passes, before, after, rfl, passed, failed⟩)
    · exact ⟨[], rest, rfl, by simp, failed⟩
    · exact ⟨first :: before, after, rfl, List.forall_mem_cons.mpr ⟨passes, passed⟩, failed⟩

theorem FirstFails.mem {step : Item → Except Cause Value} {items : List Item} {item : Item}
    {cause : Cause} (first : FirstFails step items item cause) : item ∈ items := by
  obtain ⟨before, after, rfl, -⟩ := first
  simp

theorem not_firstFails (step : Item → Except Cause Value) (items : List Item)
    (passed : ∀ item ∈ items, ∃ value, step item = .ok value) (item : Item) (cause : Cause) :
    ¬ FirstFails step items item cause := by
  intro first
  obtain ⟨value, passes⟩ := passed item first.mem
  obtain ⟨-, -, -, -, failed⟩ := first
  rw [passes] at failed
  cases failed

theorem firstFails_map_iff {Origin : Type} (step : Item → Except Cause Value)
    (image : Origin → Item) (items : List Origin) (item : Item) (cause : Cause) :
    FirstFails step (items.map image) item cause ↔
      ∃ origin, FirstFails (fun origin => step (image origin)) items origin cause ∧
        item = image origin := by
  induction items with
  | nil => simp [firstFails_nil]
  | cons first rest ih =>
      rw [List.map_cons, firstFails_cons_iff, ih]
      simp only [firstFails_cons_iff]
      constructor
      · rintro (⟨rfl, failed⟩ | ⟨passes, origin, later, rfl⟩)
        · exact ⟨first, .inl ⟨rfl, failed⟩, rfl⟩
        · exact ⟨origin, .inr ⟨passes, later⟩, rfl⟩
      · rintro ⟨origin, ⟨rfl, failed⟩ | ⟨passes, later⟩, rfl⟩
        · exact .inl ⟨rfl, failed⟩
        · exact .inr ⟨passes, origin, later, rfl⟩

theorem mapM_error_iff (step : Item → Except Cause Value) (items : List Item) (cause : Cause) :
    items.mapM step = .error cause ↔ ∃ item, FirstFails step items item cause := by
  induction items with
  | nil => simp [firstFails_nil, pure, Except.pure]
  | cons first rest ih =>
      have done (values : List Value) :
          (pure values : Except Cause (List Value)) ≠ .error cause := by
        simp [pure, Except.pure]
      simp only [List.mapM_cons, bind_error_iff, ih, done, and_false, exists_const, or_false,
        firstFails_cons_iff]
      constructor
      · rintro (failed | ⟨value, passes, item, later⟩)
        · exact ⟨first, .inl ⟨rfl, failed⟩⟩
        · exact ⟨item, .inr ⟨⟨value, passes⟩, later⟩⟩
      · rintro ⟨item, ⟨rfl, failed⟩ | ⟨⟨value, passes⟩, later⟩⟩
        · exact .inl failed
        · exact .inr ⟨value, passes, item, later⟩

end FirstFails

/-! Statements. -/

/-- An instruction has tokens, so there is nothing to object to once a line is parsed. -/
theorem parse_instruction (code : Text) (tokens : List Text)
    (parsed : Statement.parse code = .ok (.instruction tokens)) :
    ∃ mnemonic operands, tokens = mnemonic :: operands := by
  simp only [Statement.parse, bind_ok_iff] at parsed
  obtain ⟨label, -, rest⟩ := parsed
  cases label with
  | some name => cases rest
  | none =>
      dsimp only at rest
      split at rest
      · cases rest
      · cases rest
        exact tokenize_cons code

theorem placeFrom_cons_error_iff (address : UInt32) (line : Line) (rest : List Line)
    (statement : Statement) (parsed : Statement.parse line.code = .ok statement) :
    ∃ next, ∀ found,
      placeFrom address (line :: rest) = .error found ↔ placeFrom next rest = .error found := by
  cases statement with
  | label name =>
      refine ⟨address, fun found => ?_⟩
      simp [placeFrom, parsed, onLine, bind_error_iff, pure, Except.pure]
  | instruction tokens =>
      obtain ⟨mnemonic, operands, rfl⟩ := parse_instruction line.code tokens parsed
      refine ⟨address + UInt32.ofNat (byteSize mnemonic), fun found => ?_⟩
      simp [placeFrom, parsed, onLine, bind_error_iff, pure, Except.pure]

theorem placeFrom_error_iff (address : UInt32) (lines : List Line) (found : LocatedError) :
    placeFrom address lines = .error found ↔
      ∃ line cause, FirstFails (fun line => Statement.parse line.code) lines line cause ∧
        found = ⟨line.number, cause⟩ := by
  induction lines generalizing address with
  | nil => simp [placeFrom, firstFails_nil]
  | cons line rest ih =>
      simp only [firstFails_cons_iff]
      cases parsed : Statement.parse line.code with
      | error cause =>
          simp [placeFrom, parsed, onLine, bind, Except.bind, eq_comm]
      | ok statement =>
          obtain ⟨next, later⟩ := placeFrom_cons_error_iff address line rest statement parsed
          rw [later, ih]
          simp

theorem placeFrom_parsed (address : UInt32) (lines : List Line) (placement : Placement)
    (placed : placeFrom address lines = .ok placement) :
    ∀ line ∈ lines, ∃ statement, Statement.parse line.code = .ok statement := by
  induction lines generalizing address placement with
  | nil =>
      intro line member
      cases member
  | cons line rest ih =>
      rw [List.forall_mem_cons]
      rcases placeFrom_cons address line rest placement placed with
        ⟨name, tail, parsed, later, -⟩ | ⟨mnemonic, operands, tail, parsed, later, -⟩
      · exact ⟨⟨_, parsed⟩, ih address tail later⟩
      · exact ⟨⟨_, parsed⟩, ih _ tail later⟩

theorem placeFrom_ok_of_parsed (lines : List Line)
    (parsed : ∀ line ∈ lines, ∃ statement, Statement.parse line.code = .ok statement) :
    ∃ placement, placeFrom 0 lines = .ok placement := by
  cases placed : placeFrom 0 lines with
  | ok placement => exact ⟨placement, rfl⟩
  | error found =>
      obtain ⟨line, cause, first, -⟩ := (placeFrom_error_iff 0 lines found).mp placed
      exact absurd first (not_firstFails _ lines parsed line cause)

/-! Data. -/

/-- The first line of data that cannot be read, or has no room behind the lines before it. -/
def DataStops (offset : UInt64) (lines : List Line) (line : Line) (cause : SourceError) : Prop :=
  ∃ before after layout, lines = before ++ line :: after ∧
    dataLayoutFrom offset before = .ok layout ∧
    (do (← DataEntry.parse line.code).advance layout.size) = .error cause

theorem dataStops_cons_iff (offset : UInt64) (first : Line) (rest : List Line) (line : Line)
    (cause : SourceError) :
    DataStops offset (first :: rest) line cause ↔
      (line = first ∧ (do (← DataEntry.parse first.code).advance offset) = .error cause) ∨
        ∃ entry next, DataEntry.parse first.code = .ok entry ∧ entry.advance offset = .ok next ∧
          DataStops next rest line cause := by
  constructor
  · rintro ⟨before, after, layout, split, laid, failed⟩
    cases before with
    | nil =>
        cases split
        cases laid
        exact .inl ⟨rfl, failed⟩
    | cons _ before =>
        cases split
        obtain ⟨entry, next, tail, parsed, advanced, later, rfl⟩ :=
          dataLayoutFrom_cons offset first before layout laid
        exact .inr ⟨entry, next, parsed, advanced, before, after, tail, rfl, later, failed⟩
  · rintro (⟨rfl, failed⟩ |
      ⟨entry, next, parsed, advanced, before, after, layout, rfl, laid, failed⟩)
    · exact ⟨[], rest, _, rfl, rfl, failed⟩
    · refine ⟨first :: before, after, ⟨entry.definitions first.number offset ++
        layout.definitions, entry.values ++ layout.values, layout.size⟩, rfl, ?_, failed⟩
      simp only [dataLayoutFrom, parsed, advanced, onLine, bind, Except.bind, laid]
      rfl

theorem dataLayoutFrom_error_iff (offset : UInt64) (lines : List Line) (found : LocatedError) :
    dataLayoutFrom offset lines = .error found ↔
      ∃ line cause, DataStops offset lines line cause ∧ found = ⟨line.number, cause⟩ := by
  induction lines generalizing offset with
  | nil =>
      have none (line : Line) (cause : SourceError) : ¬ DataStops offset [] line cause := by
        rintro ⟨before, after, layout, split, -⟩
        simp at split
      simp [dataLayoutFrom, none]
  | cons line rest ih =>
      simp only [dataStops_cons_iff]
      cases parsed : DataEntry.parse line.code with
      | error cause => simp [dataLayoutFrom, parsed, onLine, bind, Except.bind, eq_comm]
      | ok entry =>
          cases advanced : entry.advance offset with
          | error cause =>
              simp [dataLayoutFrom, parsed, advanced, onLine, bind, Except.bind, eq_comm]
          | ok next =>
              simp [dataLayoutFrom, parsed, advanced, onLine, bind_error_iff, ih, pure, Except.pure]

/-! Instructions. -/

/-- The words of an instruction that has its tokens resolved. -/
def translate (tokens : List Text) : Except InstructionError (List Word) := do
  let machine ← expand tokens
  machine.mapM encode

theorem encodeAll_eq_mapM (machine : List (List Text)) :
    encodeAll machine = machine.mapM encode := by
  induction machine with
  | nil => rfl
  | cons tokens rest ih => rw [encodeAll, List.mapM_cons, ih]

theorem emit_eq_translate (instruction : Instruction) :
    instruction.emit = onLine instruction.line (asSource (translate instruction.tokens)) := by
  simp only [Instruction.emit, translate, encodeAll_eq_mapM]

theorem translate_ok_iff (tokens : List Text) :
    (∃ words, translate tokens = .ok words) ↔
      ∃ machine, expand tokens = .ok machine ∧
        ∀ form ∈ machine, ∃ word, encode form = .ok word := by
  simp only [translate, bind_ok_iff]
  constructor
  · rintro ⟨words, machine, expanded, encoded⟩
    exact ⟨machine, expanded, mapM_ok_mem encode machine words encoded⟩
  · rintro ⟨machine, expanded, each⟩
    obtain ⟨words, encoded⟩ := mapM_ok_of_mem encode machine each
    exact ⟨words, machine, expanded, encoded⟩

theorem translate_error_iff (tokens : List Text) (cause : InstructionError) :
    translate tokens = .error cause ↔
      expand tokens = .error cause ∨
        ∃ machine form, expand tokens = .ok machine ∧ FirstFails encode machine form cause := by
  simp only [translate, bind_error_iff, mapM_error_iff]
  simp only [exists_and_left]

theorem emitAll_error_iff (instructions : List Instruction) (found : LocatedError) :
    emitAll instructions = .error found ↔
      ∃ instruction cause,
        FirstFails (fun instruction => translate instruction.tokens) instructions
          instruction cause ∧
          found = ⟨instruction.line, .instruction cause⟩ := by
  induction instructions with
  | nil => simp [emitAll, firstFails_nil]
  | cons instruction rest ih =>
      simp only [firstFails_cons_iff, emitAll, emit_eq_translate]
      cases translated : translate instruction.tokens with
      | error cause => simp [onLine, asSource, bind, Except.bind, eq_comm]
      | ok words => simp [onLine, asSource, bind_error_iff, ih, pure, Except.pure]

/-! Sections. -/

/-- The check that a line of code has to pass behind the lines before it. -/
def checkSection (before : List Line) (line : Line) : Except SourceError Unit :=
  match lineRole line.code with
  | .unsupportedHeader => .error (.unsupportedDirective line.code)
  | .content =>
      if latestHeader? before = none then .error (.structural (.outsideSection line.code))
      else .ok ()
  | .header _ => .ok ()

theorem partitionFrom_error_iff (current : Option Section) (before lines : List Line)
    (tracked : latestHeader? before = current.map Section.name) (found : LocatedError) :
    partitionFrom current lines = .error found ↔
      ∃ place cause,
        FirstFails (fun place => checkSection place.1 place.2) (withPreceding before lines)
          place cause ∧
          found = ⟨place.2.number, cause⟩ := by
  -- As in the successful case, the section that is open is that of the latest header.
  induction lines generalizing current before with
  | nil => simp [partitionFrom, withPreceding, firstFails_nil]
  | cons line rest ih =>
      simp only [withPreceding, firstFails_cons_iff]
      rw [partitionFrom.eq_def, checkSection]
      dsimp only
      cases role : lineRole line.code with
      | unsupportedHeader => simp [eq_comm]
      | header kind =>
          have later := ih (some kind) (before ++ [line])
            (latestHeader_tracked current _ before line tracked (.inl ⟨kind, role, rfl⟩))
          cases kind <;> simp [bind_error_iff, later, pure, Except.pure]
      | content =>
          have later := ih current (before ++ [line])
            (latestHeader_tracked current _ before line tracked (.inr ⟨role, rfl⟩))
          cases current with
          | none => simp [tracked, eq_comm]
          | some kind =>
              have opened : latestHeader? before ≠ none := by simp [tracked]
              cases kind <;> simp [opened, bind_error_iff, later, pure, Except.pure]

/-- Why lines of code cannot be split. A line that is not admitted comes before all else; the
entry point is looked for once every line has its section. -/
inductive SplitFailure (lines : List Line) : LocatedError → Prop
  | line (before : List Line) (line : Line) (cause : SourceError)
      (first : FirstFails (fun place => checkSection place.1 place.2) (withPreceding [] lines)
        (before, line) cause) :
      SplitFailure lines ⟨line.number, cause⟩
  | noText (admitted : ∀ place ∈ withPreceding [] lines, Admitted place.1 place.2)
      (absent : textHeader? lines = none) :
      SplitFailure lines ⟨1, .structural .missingTextSection⟩
  | emptyText (header : Nat) (admitted : ∀ place ∈ withPreceding [] lines, Admitted place.1 place.2)
      (present : textHeader? lines = some header) (empty : textFrom [] lines = []) :
      SplitFailure lines ⟨header, .structural .missingEntryDeclaration⟩
  | undeclared (header : Nat) (first : Line) (rest : List Line)
      (admitted : ∀ place ∈ withPreceding [] lines, Admitted place.1 place.2)
      (present : textHeader? lines = some header) (text : textFrom [] lines = first :: rest)
      (undeclared : words first.code ≠ entryDeclaration) :
      SplitFailure lines ⟨first.number, .structural .missingEntryDeclaration⟩
  | unlabelled (header : Nat) (first : Line) (rest : List Line)
      (admitted : ∀ place ∈ withPreceding [] lines, Admitted place.1 place.2)
      (present : textHeader? lines = some header) (text : textFrom [] lines = first :: rest)
      (declared : words first.code = entryDeclaration)
      (unlabelled : rest.head?.map Line.code ≠ some entryLabel) :
      SplitFailure lines ⟨first.number, .structural .missingEntryLabel⟩

theorem dropEntryDeclaration_error (header : Nat) (lines : List Line) (found : LocatedError)
    (admitted : ∀ place ∈ withPreceding [] lines, Admitted place.1 place.2)
    (present : textHeader? lines = some header)
    (failed : dropEntryDeclaration header (textFrom [] lines) = .error found) :
    SplitFailure lines found := by
  cases text : textFrom [] lines with
  | nil =>
      rw [text] at failed
      cases failed
      exact .emptyText header admitted present text
  | cons first rest =>
      rw [text, dropEntryDeclaration] at failed
      split at failed
      · rename_i declared
        split at failed
        · cases failed
        · rename_i unlabelled
          cases failed
          exact .unlabelled header first rest admitted present text declared unlabelled
      · rename_i undeclared
        cases failed
        exact .undeclared header first rest admitted present text undeclared

theorem ofSource_error_iff (source : Text) (found : LocatedError) :
    Sections.ofSource source = .error found ↔ SplitFailure (cleanedLines source) found := by
  have whole {parts : Partition} := partitionFrom_ok_iff (cleanedLines source) parts
  simp only [Sections.ofSource, codeLines_eq_cleaned, bind_error_iff,
    partitionFrom_error_iff none [] _ rfl]
  constructor
  · rintro (⟨⟨before, line⟩, cause, first, rfl⟩ | ⟨parts, split, failed⟩)
    · exact .line before line cause first
    · obtain ⟨admitted, rfl⟩ := whole.mp split
      dsimp only [partitionOf] at failed
      cases header : textHeader? (cleanedLines source) with
      | none =>
          rw [header] at failed
          cases failed
          exact .noText admitted header
      | some number =>
          rw [header] at failed
          simp only [bind_error_iff] at failed
          rcases failed with failed | ⟨text, -, done⟩
          · exact dropEntryDeclaration_error number _ found admitted header failed
          · cases done
  · intro failure
    cases failure with
    | line before line cause first => exact .inl ⟨(before, line), cause, first, rfl⟩
    | noText admitted absent =>
        refine .inr ⟨_, whole.mpr ⟨admitted, rfl⟩, ?_⟩
        simp [partitionOf, absent]
    | emptyText header admitted present empty =>
        refine .inr ⟨_, whole.mpr ⟨admitted, rfl⟩, ?_⟩
        simp [partitionOf, present, empty, dropEntryDeclaration, bind, Except.bind]
    | undeclared header first rest admitted present text undeclared =>
        refine .inr ⟨_, whole.mpr ⟨admitted, rfl⟩, ?_⟩
        simp [partitionOf, present, text, undeclared, dropEntryDeclaration, bind, Except.bind]
    | unlabelled header first rest admitted present text declared unlabelled =>
        refine .inr ⟨_, whole.mpr ⟨admitted, rfl⟩, ?_⟩
        simp only [partitionOf, present, text, dropEntryDeclaration, if_pos declared,
          if_neg unlabelled]
        rfl

/-! Lines of the source. -/

theorem cleanedLines_written (source : Text) (line : Line) (member : line ∈ cleanedLines source) :
    1 ≤ line.number ∧ ∃ raw, (lines source)[line.number - 1]? = some raw ∧
      codeOf raw = line.code := by
  obtain ⟨⟨raw, number⟩, placed, kept⟩ := List.mem_filterMap.mp member
  obtain ⟨least, inside, same⟩ := List.mem_zipIdx placed
  dsimp only at kept
  split at kept
  · cases kept
  · cases kept
    exact ⟨least, raw, by rw [same, List.getElem?_eq_getElem], rfl⟩

theorem cleanedLines_bounds (source : Text) (line : Line) (member : line ∈ cleanedLines source) :
    1 ≤ line.number ∧ line.number ≤ max 1 (lines source).length := by
  obtain ⟨least, raw, found, -⟩ := cleanedLines_written source line member
  have inside := (List.getElem?_eq_some_iff.mp found).1
  omega

theorem mem_of_dataFrom (lines : List Line) (line : Line) (member : line ∈ dataFrom [] lines) :
    line ∈ lines ∨ line.code = bssMarker := by
  obtain ⟨⟨before, origin⟩, placed, kept⟩ := List.mem_filterMap.mp member
  obtain ⟨between, after, rfl, -⟩ := (mem_withPreceding [] lines before origin).mp placed
  rcases (asData_some before origin line kept).2 with rfl | marker
  · exact .inl (by simp)
  · exact .inr marker

/-- The lines of both sections are lines of the source, apart from markers. -/
theorem ofSource_lines (source : Text) (sections : Sections)
    (split : Sections.ofSource source = .ok sections) :
    (∀ line ∈ sections.text, line ∈ cleanedLines source) ∧
      ∀ line ∈ sections.data, line ∈ cleanedLines source ∨ line.code = bssMarker := by
  obtain ⟨text, data⟩ := ofSource_streams source sections split
  constructor
  · intro line member
    rw [text] at member
    exact (textFrom_sublist [] _).mem (List.mem_of_mem_tail member)
  · intro line member
    rw [data] at member
    exact mem_of_dataFrom _ line member

/-- A marker is no line to stop at. -/
theorem DataStops.written {lines : List Line} {line : Line} {cause : SourceError}
    (stops : DataStops 0 lines line cause) : line ∈ lines ∧ line.code ≠ bssMarker := by
  obtain ⟨before, after, layout, rfl, -, failed⟩ := stops
  refine ⟨by simp, ?_⟩
  intro marker
  rw [marker] at failed
  cases failed

theorem placed_written (text : List Line) (placement : Placement)
    (placed : placeFrom 0 text = .ok placement) (instruction : Instruction)
    (member : instruction ∈ placement.instructions) :
    ∃ code, ⟨instruction.line, code⟩ ∈ text ∧
      Statement.parse code = .ok (.instruction instruction.tokens) := by
  have written : (instruction.line, instruction.tokens) ∈ writtenInstructions text := by
    rw [← placeFrom_written 0 text placement placed]
    exact List.mem_map_of_mem member
  obtain ⟨⟨number, code⟩, inText, same⟩ := List.mem_filterMap.mp written
  unfold Line.instruction? at same
  split at same
  · rename_i parsed
    cases same
    exact ⟨code, inText, parsed⟩
  · cases same

/-! The whole run. -/

/-- The tokens of a placed instruction with its references replaced. -/
def Placement.resolvedTokens (placement : Placement) (data : DataSegment) (base : UInt64)
    (instruction : Instruction) : List Text :=
  (instruction.resolve (empty.define placement.definitions).1 data.symbols base).tokens

/-- Every item of every stage passes. -/
structure EveryItemPasses (source : Text) (base : UInt64) (sections : Sections)
    (data : DataSegment) : Prop where
  split : Sections.ofSource source = .ok sections
  statements : ∀ line ∈ sections.text, ∃ statement, Statement.parse line.code = .ok statement
  built : DataSegment.ofLines sections.data = .ok data
  instructions : ∀ placement, placeFrom 0 sections.text = .ok placement →
    ∀ instruction ∈ placement.instructions, ∃ machine,
      expand (placement.resolvedTokens data base instruction) = .ok machine ∧
        ∀ form ∈ machine, ∃ word, encode form = .ok word

/-- The first item that fails, and the error that is its own. -/
inductive FirstFailure (source : Text) (base : UInt64) : LocatedError → Prop
  | split (found : LocatedError) (failure : SplitFailure (cleanedLines source) found) :
      FirstFailure source base found
  | statement (sections : Sections) (line : Line) (cause : SourceError)
      (split : Sections.ofSource source = .ok sections) (written : line ∈ cleanedLines source)
      (first : FirstFails (fun line => Statement.parse line.code) sections.text line cause) :
      FirstFailure source base ⟨line.number, cause⟩
  | data (sections : Sections) (line : Line) (cause : SourceError)
      (split : Sections.ofSource source = .ok sections)
      (statements : ∀ line ∈ sections.text, ∃ statement, Statement.parse line.code = .ok statement)
      (written : line ∈ cleanedLines source) (first : DataStops 0 sections.data line cause) :
      FirstFailure source base ⟨line.number, cause⟩
  | instruction (sections : Sections) (placement : Placement) (data : DataSegment)
      (instruction : Instruction) (code : Text) (cause : InstructionError)
      (split : Sections.ofSource source = .ok sections)
      (placed : placeFrom 0 sections.text = .ok placement)
      (built : DataSegment.ofLines sections.data = .ok data)
      (written : ⟨instruction.line, code⟩ ∈ cleanedLines source)
      (parsed : Statement.parse code = .ok (.instruction instruction.tokens))
      (first : FirstFails (fun placed => translate (placement.resolvedTokens data base placed))
        placement.instructions instruction cause)
      (refused : expand (placement.resolvedTokens data base instruction) = .error cause ∨
        ∃ machine form, expand (placement.resolvedTokens data base instruction) = .ok machine ∧
          FirstFails encode machine form cause) :
      FirstFailure source base ⟨instruction.line, .instruction cause⟩

theorem ofLines_error_iff (lines : List Line) (found : LocatedError) :
    DataSegment.ofLines lines = .error found ↔
      ∃ line cause, DataStops 0 lines line cause ∧ found = ⟨line.number, cause⟩ := by
  rw [← dataLayoutFrom_error_iff, DataSegment.ofLines, bind_error_iff]
  simp [pure, Except.pure]

/-- Behind the sections, a run fails in one of three stages. -/
theorem assembleSections_error_iff (sections : Sections) (base : UInt64) (found : LocatedError) :
    assembleSections sections base = .error found ↔
      placeFrom 0 sections.text = .error found ∨
      ∃ placement, placeFrom 0 sections.text = .ok placement ∧
        (DataSegment.ofLines sections.data = .error found ∨
        ∃ data, DataSegment.ofLines sections.data = .ok data ∧
          ∃ instruction cause,
            FirstFails (fun placed => translate (placement.resolvedTokens data base placed))
              placement.instructions instruction cause ∧
            found = ⟨instruction.line, .instruction cause⟩) := by
  have emission (placement : Placement) (data : DataSegment)
      (placed : placeFrom 0 sections.text = .ok placement) :
      (referToCode (empty.define placement.definitions).1
          (referToData data.symbols base placement.instructions) >>= emitAll) = .error found ↔
        ∃ instruction cause,
          FirstFails (fun placed => translate (placement.resolvedTokens data base placed))
            placement.instructions instruction cause ∧
          found = ⟨instruction.line, .instruction cause⟩ := by
    have consecutive := placeFrom_consecutive 0 sections.text placement placed
    rw [referToCode_resolve _ _ _ _ consecutive]
    have frame := resolve_frame (empty.define placement.definitions).1 data.symbols base
    simp only [bind, Except.bind, emitAll_error_iff, firstFails_map_iff]
    constructor
    · rintro ⟨_, cause, ⟨instruction, first, rfl⟩, rfl⟩
      exact ⟨instruction, cause, first, by rw [(frame instruction).1]⟩
    · rintro ⟨instruction, cause, first, rfl⟩
      exact ⟨_, cause, ⟨instruction, first, rfl⟩, by rw [(frame instruction).1]⟩
  simp only [assembleSections, bind_error_iff]
  refine or_congr_right (exists_congr fun placement => and_congr_right fun placed => ?_)
  refine or_congr_right (exists_congr fun data => and_congr_right fun built => ?_)
  rw [← emission placement data placed, bind_error_iff]
  simp [pure, Except.pure]

theorem stages_error_iff (source : Text) (base : UInt64) (found : LocatedError) :
    (Sections.ofSource source >>= fun sections => assembleSections sections base) = .error found ↔
      FirstFailure source base found := by
  simp only [bind_error_iff, ofSource_error_iff, assembleSections_error_iff, placeFrom_error_iff,
    ofLines_error_iff]
  constructor
  · rintro (failure | ⟨sections, split, rest⟩)
    · exact .split found failure
    obtain ⟨text, data⟩ := ofSource_lines source sections split
    rcases rest with ⟨line, cause, first, rfl⟩ | ⟨placement, placed, rest⟩
    · exact .statement sections line cause split (text line first.mem) first
    rcases rest with ⟨line, cause, stops, rfl⟩ | ⟨segment, built, instruction, cause, first, rfl⟩
    · have parsed := placeFrom_parsed 0 sections.text placement placed
      exact .data sections line cause split parsed
        ((data line stops.written.1).resolve_right stops.written.2) stops
    · obtain ⟨code, inText, parsed⟩ := placed_written _ placement placed instruction first.mem
      obtain ⟨-, -, -, -, failed⟩ := id first
      exact .instruction sections placement segment instruction code cause split placed built
        (text _ inText) parsed first ((translate_error_iff _ cause).mp failed)
  · intro failure
    cases failure with
    | split _ failure => exact .inl failure
    | statement sections line cause split _ first =>
        exact .inr ⟨sections, split, .inl ⟨line, cause, first, rfl⟩⟩
    | data sections line cause split statements _ first =>
        obtain ⟨placement, placed⟩ := placeFrom_ok_of_parsed sections.text statements
        exact .inr ⟨sections, split, .inr ⟨placement, placed, .inl ⟨line, cause, first, rfl⟩⟩⟩
    | instruction sections placement data instruction _ cause split placed built _ _ first _ =>
        exact .inr ⟨sections, split, .inr ⟨placement, placed, .inr
          ⟨data, built, instruction, cause, first, rfl⟩⟩⟩

theorem textHeader_mem (lines : List Line) (header : Nat)
    (present : textHeader? lines = some header) : ∃ line ∈ lines, line.number = header := by
  obtain ⟨line, found, number⟩ := Option.map_eq_some_iff.mp present
  exact ⟨line, List.mem_of_find?_eq_some found, number⟩

theorem SplitFailure.located {source : Text} {found : LocatedError}
    (failure : SplitFailure (cleanedLines source) found) :
    1 ≤ found.line ∧ found.line ≤ max 1 (lines source).length := by
  have inText (line : Line) (member : line ∈ textFrom [] (cleanedLines source)) :
      line ∈ cleanedLines source := (textFrom_sublist [] _).mem member
  cases failure with
  | line before line cause first =>
      obtain ⟨between, after, split, -⟩ :=
        (mem_withPreceding [] (cleanedLines source) before line).mp first.mem
      exact cleanedLines_bounds source line (by simp [split])
  | noText => exact ⟨Nat.le_refl 1, Nat.le_max_left 1 _⟩
  | emptyText header admitted present empty =>
      obtain ⟨line, member, rfl⟩ := textHeader_mem _ header present
      exact cleanedLines_bounds source line member
  | undeclared header first rest admitted present text undeclared =>
      exact cleanedLines_bounds source first (inText first (by simp [text]))
  | unlabelled header first rest admitted present text declared unlabelled =>
      exact cleanedLines_bounds source first (inText first (by simp [text]))

theorem FirstFailure.located {source : Text} {base : UInt64} {found : LocatedError}
    (failure : FirstFailure source base found) :
    1 ≤ found.line ∧ found.line ≤ max 1 (lines source).length := by
  cases failure with
  | split _ failure => exact failure.located
  | statement _ line _ _ written _ => exact cleanedLines_bounds source line written
  | data _ line _ _ _ written _ => exact cleanedLines_bounds source line written
  | instruction _ _ _ _ _ _ _ _ _ written _ _ _ => exact cleanedLines_bounds source _ written

/-- Nothing is left to fail once every item passes. -/
theorem EveryItemPasses.not_failure {source : Text} {base : UInt64} {sections : Sections}
    {data : DataSegment} (passes : EveryItemPasses source base sections data)
    (found : LocatedError) : ¬ FirstFailure source base found := by
  intro failure
  have same {other : Sections} (split : Sections.ofSource source = .ok other) :
      other = sections := Except.ok.inj (split.symm.trans passes.split)
  cases failure with
  | split _ failure =>
      have failed := (ofSource_error_iff source found).mpr failure
      rw [passes.split] at failed
      cases failed
  | statement other line cause split _ first =>
      rw [same split] at first
      exact not_firstFails _ _ passes.statements line cause first
  | data other line cause split _ _ first =>
      rw [same split] at first
      have failed := (ofLines_error_iff sections.data _).mpr ⟨line, cause, first, rfl⟩
      rw [passes.built] at failed
      cases failed
  | instruction other placement segment instruction _ cause split placed built _ _ first _ =>
      rw [same split] at placed built
      rw [passes.built] at built
      cases built
      refine not_firstFails _ _ (fun item member => ?_) instruction cause first
      exact (translate_ok_iff _).mpr (passes.instructions placement placed item member)

theorem everyItemPasses_of_assemble (path source : Text) (base : UInt64) (program : Program)
    (assembled : assemble path source base = .ok program) :
    ∃ sections data, EveryItemPasses source base sections data := by
  obtain ⟨stages, leads⟩ := assemble_ok path source base program assembled
  have built : DataSegment.ofLines stages.sections.data = .ok stages.layout.segment := by
    rw [DataSegment.ofLines, leads.laid]
    rfl
  refine ⟨stages.sections, stages.layout.segment, leads.split,
    placeFrom_parsed 0 _ _ leads.placed, built, ?_⟩
  intro placement placed instruction member
  rw [leads.placed] at placed
  cases placed
  have resolved : instruction.resolve program.codeSymbols program.dataSymbols base ∈
      program.instructions := by
    rw [leads.instructions]
    exact List.mem_map_of_mem member
  obtain ⟨group, emitted⟩ := emitted_mem _ _ leads.emitted _ resolved
  rw [emit_eq_translate, onLine_ok_iff, asSource_ok_iff] at emitted
  have words := (translate_ok_iff _).mp ⟨group, emitted⟩
  rwa [leads.code, leads.data] at words

/-- Assembling succeeds exactly if every item passes, and otherwise reports the first item that
does not, in the given file and on a line of the source. -/
theorem assemble_reports_first_failure (path source : Text) (base : UInt64) :
    ((∃ program, assemble path source base = .ok program) ↔
      ∃ sections data, EveryItemPasses source base sections data) ∧
    ∀ diagnostic, assemble path source base = .error diagnostic ↔
      diagnostic.path = path ∧ FirstFailure source base ⟨diagnostic.line, diagnostic.error⟩ ∧
        1 ≤ diagnostic.line ∧ diagnostic.line ≤ max 1 (lines source).length := by
  have failing (diagnostic : Diagnostic) : assemble path source base = .error diagnostic ↔
      ∃ found, FirstFailure source base found ∧ found.inFile path = diagnostic := by
    simp only [assemble_eq_stages, mapError_error_iff, stages_error_iff]
  refine ⟨⟨?_, ?_⟩, fun diagnostic => ?_⟩
  · rintro ⟨program, assembled⟩
    exact everyItemPasses_of_assemble path source base program assembled
  · rintro ⟨sections, data, passes⟩
    cases assembled : assemble path source base with
    | ok program => exact ⟨program, rfl⟩
    | error diagnostic =>
        obtain ⟨found, failure, -⟩ := (failing diagnostic).mp assembled
        exact absurd failure (passes.not_failure found)
  · rw [failing]
    constructor
    · rintro ⟨found, failure, rfl⟩
      exact ⟨rfl, failure, failure.located⟩
    · rintro ⟨rfl, failure, -⟩
      exact ⟨_, failure, rfl⟩

/-- An instruction of several words is reported on its own line, behind data that is fine. -/
theorem assemble_reports_first_failure_pseudo :
    FirstFailure ".data\n.word 1\n.text\n.globl main\nmain:\nret\nli q9, 5".toList 0
      ⟨7, .instruction (.invalidRegister "q9".toList)⟩ :=
  (((assemble_reports_first_failure [] _ 0).2
    ⟨[], 7, .instruction (.invalidRegister "q9".toList)⟩).mp rfl).2.1

end RiscAssembly
