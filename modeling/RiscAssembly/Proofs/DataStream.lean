import RiscAssembly.Proofs.DataGrammar

/-!
The data stream read back. Values are texts of any kind, so a value may look like a tag or
a count; only the counts tell where a record ends. The reader takes a tag, a count and as
many values as the tag has for that count, until nothing is left. It finds the records of
the lines.
-/

namespace RiscAssembly

open Text

def DirectiveName.ofText? (text : Text) : Option DirectiveName :=
  [DirectiveName.word, .string, .space].find? fun name => name.text = text

/-- How many values stand behind a count. Space is only counted. -/
def DirectiveName.stored : DirectiveName → Nat → Nat
  | .space, _ => 0
  | _, count => count

/-- The record at the start of a stream, and the rest of the stream. -/
def takeRecord? : List Text → Option (DataRecord × List Text)
  | tag :: digits :: rest => do
      let name ← DirectiveName.ofText? tag
      let count ← natural? 10 digits
      if name.stored count ≤ rest.length then
        some (⟨name, count, rest.take (name.stored count)⟩, rest.drop (name.stored count))
      else none
  | _ => none

theorem takeRecord_shorter (stream rest : List Text) (record : DataRecord)
    (taken : takeRecord? stream = some (record, rest)) : rest.length < stream.length := by
  unfold takeRecord? at taken
  split at taken
  · simp only [Option.bind_eq_bind, Option.bind_eq_some_iff] at taken
    obtain ⟨name, -, count, -, inside⟩ := taken
    split at inside
    · cases inside
      simp only [List.length_drop, List.length_cons]
      omega
    · cases inside
  · cases taken

/-- All records of a stream; none if the stream does not end with one. -/
def readRecords? (stream : List Text) : Option (List DataRecord) :=
  if stream.isEmpty then some []
  else match taken : takeRecord? stream with
    | none => none
    | some (record, rest) =>
        have := takeRecord_shorter stream rest record taken
        (readRecords? rest).map (record :: ·)
  termination_by stream.length

/-! Reading what was written. -/

/-- A record as it stands in a stream. -/
def DataRecord.written (record : DataRecord) : List Text :=
  record.name.text :: decimal record.count :: record.values

/-- As many values as the count says. -/
def DataRecord.Counted (record : DataRecord) : Prop :=
  record.values.length = record.name.stored record.count

theorem ofText_text (name : DirectiveName) : DirectiveName.ofText? name.text = some name := by
  cases name <;> rfl

theorem takeRecord_written (record : DataRecord) (counted : record.Counted) (rest : List Text) :
    takeRecord? (record.written ++ rest) = some (record, rest) := by
  have inside : record.values.length ≤ (record.values ++ rest).length := by
    rw [List.length_append]
    exact Nat.le_add_right _ _
  have announced : record.name.stored record.count = record.values.length := counted.symm
  simp only [DataRecord.written, List.cons_append, takeRecord?, ofText_text, natural_decimal,
    Option.bind_eq_bind, Option.bind_some, announced, if_pos inside, List.take_left,
    List.drop_left]

theorem readRecords_take (stream rest : List Text) (record : DataRecord)
    (taken : takeRecord? stream = some (record, rest)) :
    readRecords? stream = (readRecords? rest).map (record :: ·) := by
  have nonempty : ¬ stream.isEmpty = true := by
    intro empty
    rw [List.isEmpty_iff] at empty
    rw [empty] at taken
    cases taken
  rw [readRecords?, if_neg nonempty]
  split
  · rename_i failed
    rw [taken] at failed
    cases failed
  · rename_i found
    rw [taken] at found
    cases found
    rfl

/-- Records written one behind the other are read as they were. -/
theorem readRecords_written (records : List DataRecord)
    (counted : ∀ record ∈ records, record.Counted) :
    readRecords? (records.flatMap DataRecord.written) = some records := by
  induction records with
  | nil =>
      rw [List.flatMap_nil, readRecords?]
      rfl
  | cons record rest ih =>
      have first := takeRecord_written record (counted record List.mem_cons_self)
        (rest.flatMap DataRecord.written)
      have later := ih fun other member => counted other (List.mem_cons_of_mem record member)
      rw [List.flatMap_cons, readRecords_take _ _ record first, later, Option.map_some]

theorem Directive.record_written (directive : Directive) :
    directive.record.written = directive.values := by
  cases directive with
  | word stored => rfl
  | string characters => simp [DataRecord.written, record, values]
  | space size => rfl

theorem Directive.record_counted (directive : Directive) : directive.record.Counted := by
  cases directive with
  | word stored => rfl
  | string characters => simp [DataRecord.Counted, record, DirectiveName.stored]
  | space size => rfl

namespace DataEntry

theorem record_written (entry : DataEntry) :
    entry.record.toList.flatMap DataRecord.written = entry.values := by
  unfold record values
  cases entry.directive with
  | none => rfl
  | some directive => exact (List.append_nil _).trans directive.record_written

theorem record_counted (entry : DataEntry) : ∀ record ∈ entry.record.toList, record.Counted := by
  intro record member
  obtain ⟨directive, -, rfl⟩ := Option.map_eq_some_iff.mp (Option.mem_toList.mp member)
  exact directive.record_counted

end DataEntry

theorem dataLayoutFrom_records (offset : UInt64) (lines : List Line) (layout : DataLayout)
    (laid : dataLayoutFrom offset lines = .ok layout) :
    ∃ records, layout.values = records.flatMap DataRecord.written ∧
      (∀ record ∈ records, record.Counted) ∧ DataLines lines records ∧
      offset.toNat + storedBytes records = layout.size.toNat := by
  -- The offset is the bytes of the records so far, and the one behind the last is the size.
  induction lines generalizing offset layout with
  | nil =>
      cases laid
      exact ⟨[], rfl, by simp, .nil, rfl⟩
  | cons line rest ih =>
      obtain ⟨entry, next, tail, parsed, advanced, later, rfl⟩ :=
        dataLayoutFrom_cons offset line rest layout laid
      obtain ⟨records, written, counted, formed, total⟩ := ih next tail later
      have form := entry.form_of_parse line.code parsed
      refine ⟨entry.record.toList ++ records, ?_, ?_, .cons line rest _ _ records form formed, ?_⟩
      · rw [List.flatMap_append, entry.record_written, ← written]
      · rw [List.forall_mem_append]
        exact ⟨entry.record_counted, counted⟩
      · rw [storedBytes_append, ← Nat.add_assoc, ← entry.advance_ok offset next advanced, total]

/-- The reader takes the whole stream of a segment, and what it finds are the records that
the lines have as their forms, with as many bytes as the segment. -/
theorem dataStream_self_delimiting (lines : List Line) (segment : DataSegment)
    (built : DataSegment.ofLines lines = .ok segment) :
    ∃ records, readRecords? segment.values = some records ∧ DataLines lines records ∧
      storedBytes records = segment.size.toNat := by
  simp only [DataSegment.ofLines, bind_ok_iff, pure_ok_iff] at built
  obtain ⟨layout, laid, rfl⟩ := built
  obtain ⟨records, written, counted, formed, total⟩ := dataLayoutFrom_records 0 lines layout laid
  refine ⟨records, ?_, formed, (Nat.zero_add _).symm.trans total⟩
  rw [DataLayout.segment, written, readRecords_written records counted]

/-- A stored character that looks like a count, and a label and a marker that store nothing. -/
theorem dataStream_self_delimiting_digit :
    let lines : List Line := [⟨2, "a: .word 1 , 0x10".toList⟩, ⟨3, ".string \"2\\n\"".toList⟩,
      ⟨4, ".section .bss".toList⟩, ⟨5, "b:".toList⟩, ⟨6, ".space 3".toList⟩]
    let records : List DataRecord := [⟨.word, 2, ["1".toList, "0x10".toList]⟩,
      ⟨.string, 3, [['2'], ['\n'], [Char.ofNat 0]]⟩, ⟨.space, 3, []⟩]
    ∃ segment, DataSegment.ofLines lines = .ok segment ∧
      segment.values = [".word".toList, ['2'], ['1'], "0x10".toList, ".string".toList, ['3'],
        ['2'], ['\n'], [Char.ofNat 0], ".space".toList, ['3']] ∧
      readRecords? segment.values = some records ∧ DataLines lines records ∧
      segment.size = 14 := by
  intro lines records
  obtain ⟨segment, built, stored, size⟩ : ∃ segment, DataSegment.ofLines lines = .ok segment ∧
      segment.values = records.flatMap DataRecord.written ∧ segment.size = 14 :=
    ⟨_, rfl, by decide, rfl⟩
  obtain ⟨found, read, formed, -⟩ := dataStream_self_delimiting lines segment built
  have again : readRecords? segment.values = some records := by
    rw [stored]
    exact readRecords_written records (by simp [records, DataRecord.Counted, DirectiveName.stored])
  cases again.symm.trans read
  exact ⟨segment, built, stored, again, formed, size⟩

end RiscAssembly
