import RiscAssembly.Proofs.DataGrammar
import RiscAssembly.Proofs.Symbols
import RiscAssembly.Proofs.SyntaxErrors

/-!
The data segment as what the grammar of its lines says. Lines make a segment exactly if all
of them have a form and their bytes, summed without any bound, have a 64-bit offset behind
them. A label means the sum of the bytes before its last definition, and the error is on the
first line that breaks the rule.
-/

namespace RiscAssembly

open Text SymbolTable

/-- The last line that defines a label, behind lines of so many bytes. -/
def DefinedAt (lines : List Line) (name : Text) (offset : Nat) : Prop :=
  ∃ before line after record records, lines = before ++ line :: after ∧
    DataForm line.code (some name) record ∧
    (∀ later ∈ after, ∀ other, ¬ DataForm later.code (some name) other) ∧
    DataLines before records ∧ storedBytes records = offset

/-- The first line that has no form or ends out of reach, and the error on it. Only an end
out of reach is an overflow. -/
def BreaksAt (start : Nat) (lines : List Line) (found : LocatedError) : Prop :=
  ∃ before line after records, lines = before ++ line :: after ∧ found.line = line.number ∧
    DataLines before records ∧ start + storedBytes records < 2 ^ 64 ∧
    (¬ ∃ label record, DataForm line.code label record ∧
      start + storedBytes records + storedBytes record.toList < 2 ^ 64) ∧
    ((∃ directive, found.error = .dataOverflow directive) ↔
      ∃ label record, DataForm line.code label record ∧
        2 ^ 64 ≤ start + storedBytes records + storedBytes record.toList)

namespace DataEntry

theorem lastDefinition_entry (entry : DataEntry) (line : Nat) (offset : UInt64)
    (later : List (Symbol UInt64)) (name : Text) :
    lastDefinition? (entry.definitions line offset ++ later) name =
      (lastDefinition? later name).or
        (if entry.label = some name then some ⟨name, line, offset⟩ else none) := by
  unfold definitions
  cases entry.label with
  | none => simp
  | some other =>
      have first := lastDefinition_cons ⟨other, line, offset⟩ later name
      by_cases same : other = name
      · simpa [same] using first
      · simpa [same] using first

end DataEntry

/-! The segment. -/

theorem DataLines.front {before after : List Line} {records : List DataRecord}
    (whole : DataLines (before ++ after) records) : ∃ first, DataLines before first := by
  induction before generalizing records with
  | nil => exact ⟨[], .nil⟩
  | cons line rest ih =>
      obtain _ | ⟨_, _, label, record, _, form, later⟩ := whole
      obtain ⟨first, lines⟩ := ih later
      exact ⟨_, .cons line rest label record first form lines⟩

theorem dataLayoutFrom_lines (offset : UInt64) (lines : List Line) (layout : DataLayout)
    (laid : dataLayoutFrom offset lines = .ok layout) :
    ∃ records, DataLines lines records ∧ offset.toNat + storedBytes records < 2 ^ 64 := by
  induction lines generalizing offset layout with
  | nil => exact ⟨[], .nil, offset.toNat_lt⟩
  | cons line rest ih =>
      obtain ⟨entry, next, tail, parsed, advanced, later, -⟩ :=
        dataLayoutFrom_cons offset line rest layout laid
      obtain ⟨records, formed, small⟩ := ih next tail later
      have form := entry.form_of_parse line.code parsed
      rw [entry.advance_ok offset next advanced, Nat.add_assoc, ← storedBytes_append] at small
      exact ⟨_, .cons line rest _ _ records form formed, small⟩

theorem dataLayoutFrom_complete (offset : UInt64) (lines : List Line) (records : List DataRecord)
    (formed : DataLines lines records) (fits : offset.toNat + storedBytes records < 2 ^ 64) :
    ∃ layout, dataLayoutFrom offset lines = .ok layout := by
  induction formed generalizing offset with
  | nil => exact ⟨_, rfl⟩
  | cons line rest label record records form _ ih =>
      obtain ⟨entry, parsed, -, rfl⟩ := (DataEntry.dataForm_iff _ _ _).mp form
      rw [storedBytes_append] at fits
      obtain ⟨next, advanced⟩ := entry.advance_fits offset (by omega)
      have moved := entry.advance_ok offset next advanced
      obtain ⟨layout, later⟩ := ih next (by omega)
      simp only [dataLayoutFrom, bind_ok_iff, onLine_ok_iff]
      exact ⟨_, entry, parsed, next, advanced, layout, later, rfl⟩

theorem BreaksAt.cons {start : Nat} {line : Line} {label : Option Text}
    {record : Option DataRecord} {rest : List Line} {found : LocatedError}
    (form : DataForm line.code label record)
    (later : BreaksAt (start + storedBytes record.toList) rest found) :
    BreaksAt start (line :: rest) found := by
  obtain ⟨before, place, after, records, rfl, number, formed, small, broken, overflow⟩ := later
  rw [Nat.add_assoc start, ← storedBytes_append] at small broken overflow
  exact ⟨line :: before, place, after, _, rfl, number,
    .cons line before label record records form formed, small, broken, overflow⟩

/-- The ways for a line to end the layout: it cannot be read, it runs over, or a later line
does one of these. -/
theorem dataLayoutFrom_error (offset : UInt64) (line : Line) (rest : List Line)
    (found : LocatedError) (failed : dataLayoutFrom offset (line :: rest) = .error found) :
    (∃ cause, DataEntry.parse line.code = .error cause ∧ found = ⟨line.number, cause⟩) ∨
    (∃ entry cause, DataEntry.parse line.code = .ok entry ∧
      entry.advance offset = .error cause ∧ found = ⟨line.number, cause⟩) ∨
    ∃ entry next, DataEntry.parse line.code = .ok entry ∧ entry.advance offset = .ok next ∧
      dataLayoutFrom next rest = .error found := by
  simp only [dataLayoutFrom, bind_error_iff, onLine_error_iff, onLine_ok_iff] at failed
  rcases failed with unread | ⟨entry, parsed, ⟨cause, beyond, rfl⟩ | ⟨next, advanced, failed⟩⟩
  · exact .inl unread
  · exact .inr (.inl ⟨entry, cause, parsed, beyond, rfl⟩)
  · rcases failed with later | ⟨tail, -, done⟩
    · exact .inr (.inr ⟨entry, next, parsed, advanced, later⟩)
    · cases done

/-- A line that cannot be read has no form, and its error is no overflow. -/
theorem breaksAt_unread (start : Nat) (line : Line) (rest : List Line) (cause : SourceError)
    (inside : start < 2 ^ 64) (unread : DataEntry.parse line.code = .error cause) :
    BreaksAt start (line :: rest) ⟨line.number, cause⟩ := by
  have formless (label : Option Text) (record : Option DataRecord) :
      ¬ DataForm line.code label record := by
    intro form
    obtain ⟨entry, parsed, -⟩ := DataEntry.parse_of_form _ _ _ form
    rw [unread] at parsed
    cases parsed
  refine ⟨[], line, rest, [], rfl, rfl, .nil, inside, ?_, ?_, ?_⟩
  · rintro ⟨label, record, form, -⟩
    exact formless label record form
  · rintro ⟨directive, rfl⟩
    exact (entry_failsBySyntax line.code _ unread).elim
  · rintro ⟨label, record, form, -⟩
    exact absurd form (formless label record)

theorem breaksAt_overflow (start : Nat) (line : Line) (rest : List Line) (entry : DataEntry)
    (directive : DirectiveName) (inside : start < 2 ^ 64)
    (parsed : DataEntry.parse line.code = .ok entry)
    (beyond : 2 ^ 64 ≤ start + storedBytes entry.record.toList) :
    BreaksAt start (line :: rest) ⟨line.number, .dataOverflow directive⟩ := by
  refine ⟨[], line, rest, [], rfl, rfl, .nil, inside, ?_, ?_, fun _ => ⟨directive, rfl⟩⟩
  · rintro ⟨label, record, form, small⟩
    obtain ⟨other, again, -, rfl⟩ := DataEntry.parse_of_form _ _ _ form
    rw [parsed] at again
    cases again
    exact absurd small (Nat.not_lt_of_le beyond)
  · exact fun _ => ⟨_, _, entry.form_of_parse line.code parsed, beyond⟩

theorem dataLayoutFrom_breaks (offset : UInt64) (lines : List Line) (found : LocatedError)
    (failed : dataLayoutFrom offset lines = .error found) : BreaksAt offset.toNat lines found := by
  -- The offset has the bytes of all lines passed so far, so no sum has wrapped before the break.
  induction lines generalizing offset with
  | nil => cases failed
  | cons line rest ih =>
      rcases dataLayoutFrom_error offset line rest found failed with ⟨cause, unread, rfl⟩ |
        ⟨entry, cause, parsed, stopped, rfl⟩ | ⟨entry, next, parsed, advanced, later⟩
      · exact breaksAt_unread _ line rest cause offset.toNat_lt unread
      · obtain ⟨beyond, directive, rfl⟩ := entry.advance_error offset cause stopped
        exact breaksAt_overflow _ line rest entry directive offset.toNat_lt parsed beyond
      · have broken := ih next later
        rw [entry.advance_ok offset next advanced] at broken
        exact broken.cons (entry.form_of_parse line.code parsed)

/-! Labels. -/

theorem dataLayoutFrom_undefined (offset : UInt64) (lines : List Line) (layout : DataLayout)
    (laid : dataLayoutFrom offset lines = .ok layout) (name : Text)
    (absent : ∀ line ∈ lines, ∀ record, ¬ DataForm line.code (some name) record) :
    lastDefinition? layout.definitions name = none := by
  induction lines generalizing offset layout with
  | nil =>
      cases laid
      rfl
  | cons line rest ih =>
      obtain ⟨entry, next, tail, parsed, -, later, rfl⟩ :=
        dataLayoutFrom_cons offset line rest layout laid
      have other : entry.label ≠ some name := by
        intro same
        have form := entry.form_of_parse line.code parsed
        rw [same] at form
        exact absent line List.mem_cons_self _ form
      rw [entry.lastDefinition_entry, if_neg other,
        ih next tail later fun place member => absent place (List.mem_cons_of_mem line member)]
      rfl

/-- The last definition of a label is behind the bytes of the lines before it. -/
theorem dataLayoutFrom_last (offset : UInt64) (before : List Line) (records : List DataRecord)
    (formed : DataLines before records) (line : Line) (after : List Line) (layout : DataLayout)
    (laid : dataLayoutFrom offset (before ++ line :: after) = .ok layout) (name : Text)
    (record : Option DataRecord) (form : DataForm line.code (some name) record)
    (last : ∀ later ∈ after, ∀ other, ¬ DataForm later.code (some name) other) :
    ∃ address, lastDefinition? layout.definitions name = some ⟨name, line.number, address⟩ ∧
      address.toNat = offset.toNat + storedBytes records := by
  -- By induction on the lines before: their own definitions come earlier and do not count.
  induction formed generalizing offset layout with
  | nil =>
      obtain ⟨entry, next, tail, parsed, -, later, rfl⟩ :=
        dataLayoutFrom_cons offset line after layout laid
      obtain ⟨other, again, label, -⟩ := DataEntry.parse_of_form _ _ _ form
      rw [parsed] at again
      cases again
      refine ⟨offset, ?_, rfl⟩
      rw [entry.lastDefinition_entry, if_pos label,
        dataLayoutFrom_undefined next after tail later name last]
      rfl
  | cons first rest label record records firstForm _ ih =>
      obtain ⟨entry, next, tail, parsed, advanced, later, rfl⟩ :=
        dataLayoutFrom_cons offset first _ layout laid
      obtain ⟨other, again, -, rfl⟩ := DataEntry.parse_of_form _ _ _ firstForm
      rw [parsed] at again
      cases again
      obtain ⟨address, found, placed⟩ := ih next tail later
      refine ⟨address, ?_, ?_⟩
      · rw [entry.lastDefinition_entry, found]
        rfl
      · rw [placed, entry.advance_ok offset next advanced, Nat.add_assoc, storedBytes_append]

/-- The last member with some property. -/
theorem exists_last {Item : Type} (Holds : Item → Prop) (items : List Item)
    (present : ∃ item ∈ items, Holds item) :
    ∃ before item after, items = before ++ item :: after ∧ Holds item ∧
      ∀ later ∈ after, ¬ Holds later := by
  induction items with
  | nil =>
      obtain ⟨item, member, -⟩ := present
      cases member
  | cons first rest ih =>
      by_cases again : ∃ item ∈ rest, Holds item
      · obtain ⟨before, item, after, rfl, holds, last⟩ := ih again
        exact ⟨first :: before, item, after, rfl, holds, last⟩
      · obtain ⟨item, member, holds⟩ := present
        rcases List.mem_cons.mp member with rfl | inRest
        · exact ⟨[], item, rest, rfl, holds, fun later inRest other => again ⟨later, inRest, other⟩⟩
        · exact absurd ⟨item, inRest, holds⟩ again

theorem segment_address (lines : List Line) (layout : DataLayout)
    (laid : dataLayoutFrom 0 lines = .ok layout) (name : Text) (offset : UInt64) :
    layout.segment.symbols.address? name = some offset ↔ DefinedAt lines name offset.toNat := by
  have meaning : layout.segment.symbols.address? name =
      (lastDefinition? layout.definitions name).map Symbol.address :=
    address_define_empty layout.definitions name
  rw [meaning]
  constructor
  · intro defined
    -- Some line defines the name, and the last one that does settles the offset.
    have present : ∃ line ∈ lines, ∃ record, DataForm line.code (some name) record := by
      by_contra absent
      rw [dataLayoutFrom_undefined 0 lines layout laid name fun line member record form =>
        absent ⟨line, member, record, form⟩] at defined
      cases defined
    obtain ⟨before, line, after, rfl, ⟨record, form⟩, last⟩ := exists_last _ lines present
    obtain ⟨_, whole, -⟩ := dataLayoutFrom_lines 0 _ layout laid
    obtain ⟨records, formed⟩ := whole.front
    have never : ∀ later ∈ after, ∀ other, ¬ DataForm later.code (some name) other :=
      fun later member other form => last later member ⟨other, form⟩
    obtain ⟨address, found, placed⟩ :=
      dataLayoutFrom_last 0 before records formed line after layout laid name record form never
    rw [found] at defined
    cases defined
    refine ⟨before, line, after, record, records, rfl, form, never, formed, ?_⟩
    rw [placed, UInt64.toNat_zero, Nat.zero_add]
  · rintro ⟨before, line, after, record, records, rfl, form, last, formed, bytes⟩
    obtain ⟨address, found, placed⟩ :=
      dataLayoutFrom_last 0 before records formed line after layout laid name record form last
    rw [found, Option.map_some, Option.some.injEq]
    rw [bytes, UInt64.toNat_zero, Nat.zero_add] at placed
    exact UInt64.toNat_inj.mp placed

/-- Lines of data are a segment exactly if they have forms and their bytes an offset behind
them; labels and errors are where the bytes say. -/
theorem dataSegment_exact (lines : List Line) :
    ((∃ segment, DataSegment.ofLines lines = .ok segment) ↔
      ∃ records, DataLines lines records ∧ storedBytes records < 2 ^ 64) ∧
    (∀ segment, DataSegment.ofLines lines = .ok segment → ∀ name offset,
      segment.symbols.address? name = some offset ↔ DefinedAt lines name offset.toNat) ∧
    ∀ found, DataSegment.ofLines lines = .error found → BreaksAt 0 lines found := by
  refine ⟨?_, ?_, ?_⟩
  · simp only [DataSegment.ofLines, bind_ok_iff]
    constructor
    · rintro ⟨_, layout, laid, -⟩
      obtain ⟨records, formed, small⟩ := dataLayoutFrom_lines 0 lines layout laid
      exact ⟨records, formed, Nat.lt_of_le_of_lt (Nat.le_add_left _ _) small⟩
    · rintro ⟨records, formed, small⟩
      obtain ⟨layout, laid⟩ := dataLayoutFrom_complete 0 lines records formed
        (Nat.lt_of_le_of_lt (Nat.le_of_eq (Nat.zero_add _)) small)
      exact ⟨_, layout, laid, rfl⟩
  · intro segment built name offset
    simp only [DataSegment.ofLines, bind_ok_iff, pure_ok_iff] at built
    obtain ⟨layout, laid, rfl⟩ := built
    exact segment_address lines layout laid name offset
  · intro found failed
    rw [DataSegment.ofLines, bind_error_iff] at failed
    rcases failed with failed | ⟨layout, -, done⟩
    · exact dataLayoutFrom_breaks 0 lines found failed
    · cases done

/-- A label at the last offset there is, and one byte more behind it. -/
theorem dataSegment_exact_boundary :
    let lines : List Line := [⟨3, "a: .space 18446744073709551615".toList⟩, ⟨4, " b :".toList⟩]
    (∃ segment, DataSegment.ofLines lines = .ok segment ∧
      DefinedAt lines "b".toList 18446744073709551615) ∧
    BreaksAt 0 (lines ++ [⟨5, ".string \"\"".toList⟩]) ⟨5, .dataOverflow .string⟩ := by
  intro lines
  obtain ⟨-, addresses, -⟩ := dataSegment_exact lines
  obtain ⟨-, -, errors⟩ := dataSegment_exact (lines ++ [⟨5, ".string \"\"".toList⟩])
  exact ⟨⟨_, rfl, (addresses _ rfl "b".toList 18446744073709551615).mp rfl⟩, errors _ rfl⟩

end RiscAssembly
