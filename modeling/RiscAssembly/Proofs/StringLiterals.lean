import RiscAssembly.Proofs.Decoration
import RiscAssembly.Proofs.DataGrammar
import RiscAssembly.Proofs.Resolution
import RiscAssembly.Proofs.Sectioning

/-!
Strings from the source to the data stream. A string is written between quotes with its
newlines escaped; whatever else is in it, a number sign, a colon, a comma or white space at
its ends, is no part of the syntax around it. A source that has no more than strings and the
entry point is assembled, every string is stored as it was meant, and each name stands for
the bytes before it.
-/

namespace RiscAssembly

open Text SymbolTable

/-- A string to be stored under a name. The name can be written before a colon, and the
characters between quotes. -/
structure NamedString where
  name : Text
  characters : Text
  nonempty : name ≠ []
  undotted : name.head? ≠ some '.'
  solid : ∀ c ∈ name, isSpace c = false
  plain : ∀ c ∈ name, c ≠ ':' ∧ c ≠ '#' ∧ c ≠ '\"'
  ascii : ∀ c ∈ characters, c.toNat < 128
  unquoted : ∀ c ∈ characters, c ≠ '\"' ∧ c ≠ '\\'

def escapeNewlines (characters : Text) : Text :=
  characters.flatMap fun c => if c = '\n' then ['\\', 'n'] else [c]

namespace NamedString

def quoted (string : NamedString) : Text :=
  '\"' :: escapeNewlines string.characters ++ ['\"']

def line (string : NamedString) : Text :=
  string.name ++ ": .string ".toList ++ string.quoted

/-- The line with white space before it, and white space and a comment behind it. -/
def WrittenOn (string : NamedString) (raw : Text) : Prop :=
  ∃ front tail, Blank front ∧ IsIdle tail ∧ '\n' ∉ front ++ tail ∧
    raw = front ++ string.line ++ tail

/-- The bytes of the string, with the zero that closes it. -/
def size (string : NamedString) : Nat := string.characters.length + 1

def values (string : NamedString) : List Text :=
  ".string".toList :: decimal string.size ::
    (string.characters.map fun c => [c]) ++ [[Char.ofNat 0]]

end NamedString

def storedSize (strings : List NamedString) : Nat := (strings.map NamedString.size).sum

/-- Raw lines, with the strings under their headers for data and the code under their headers
for text, when the lines before them have opened the section `current`. -/
inductive StringSource : Option Section → List Text → List NamedString → List Text → Prop
  | done (current : Option Section) : StringSource current [] [] []
  | idle (current : Option Section) (raw : Text) (rest : List Text) (strings : List NamedString)
      (codes : List Text) (whole : '\n' ∉ raw) (idle : IsIdle raw)
      (later : StringSource current rest strings codes) :
      StringSource current (raw :: rest) strings codes
  | header (current : Option Section) (kind : Section) (raw : Text) (rest : List Text)
      (strings : List NamedString) (codes : List Text) (whole : '\n' ∉ raw)
      (header : headerName? (codeOf raw) = some kind.name) (stored : kind ≠ .bss)
      (later : StringSource (some kind) rest strings codes) :
      StringSource current (raw :: rest) strings codes
  | string (raw : Text) (rest : List Text) (string : NamedString) (strings : List NamedString)
      (codes : List Text) (written : string.WrittenOn raw)
      (later : StringSource (some .data) rest strings codes) :
      StringSource (some .data) (raw :: rest) (string :: strings) codes
  | code (raw : Text) (rest : List Text) (strings : List NamedString) (codes : List Text)
      (whole : '\n' ∉ raw) (later : StringSource (some .text) rest strings codes) :
      StringSource (some .text) (raw :: rest) strings (codeOf raw :: codes)

/-! Escaped text. -/

theorem escapeNewlines_cons (c : Char) (characters : Text) :
    escapeNewlines (c :: characters) =
      (if c = '\n' then ['\\', 'n'] else [c]) ++ escapeNewlines characters := rfl

theorem unescaped_escapeNewlines (characters : Text) (plain : ∀ c ∈ characters, c ≠ '\\') :
    Unescaped (escapeNewlines characters) characters := by
  induction characters with
  | nil => exact .done
  | cons c rest ih =>
      rw [List.forall_mem_cons] at plain
      rw [escapeNewlines_cons]
      by_cases newline : c = '\n'
      · rw [if_pos newline, newline]
        exact .newline _ _ (ih plain.2)
      · rw [if_neg newline]
        exact .plain c _ _ plain.1 (ih plain.2)

theorem escapeNewlines_whole (characters : Text) : '\n' ∉ escapeNewlines characters := by
  induction characters with
  | nil => exact List.not_mem_nil
  | cons c rest ih =>
      rw [escapeNewlines_cons, List.mem_append, not_or]
      refine ⟨?_, ih⟩
      by_cases newline : c = '\n'
      · rw [if_pos newline]
        decide
      · rw [if_neg newline, List.mem_singleton]
        exact Ne.symm newline

/-- The search for a comment does not leave the quotes inside an escaped text. -/
theorem scanFrom_escapeNewlines (characters : Text)
    (unquoted : ∀ c ∈ characters, c ≠ '\"' ∧ c ≠ '\\') :
    scanFrom .inside (escapeNewlines characters) = some .inside := by
  induction characters with
  | nil => rfl
  | cons c rest ih =>
      rw [List.forall_mem_cons] at unquoted
      have later := ih unquoted.2
      have first : scanFrom .inside (if c = '\n' then ['\\', 'n'] else [c]) = some .inside := by
        by_cases newline : c = '\n'
        · rw [if_pos newline]
          rfl
        · rw [if_neg newline, scanFrom, if_neg unquoted.1.2, if_neg unquoted.1.1, scanFrom]
      rw [escapeNewlines_cons, scanFrom_append, first, Option.bind_some, later]

/-! A string on its line. -/

namespace NamedString

theorem scanFrom_line (string : NamedString) :
    scanFrom .outside string.line = some .outside := by
  have name : scanFrom .outside string.name = some .outside :=
    scanFrom_plain string.name (fun member => (string.plain _ member).2.1 rfl)
      fun member => (string.plain _ member).2.2 rfl
  have word : scanFrom .outside ": .string ".toList = some .outside := by decide
  have quoted : scanFrom .outside string.quoted = some .outside := by
    rw [quoted, List.cons_append, scanFrom, if_neg (by decide), if_pos rfl, scanFrom_append,
      scanFrom_escapeNewlines _ string.unquoted]
    rfl
  rw [line, scanFrom_append, scanFrom_append, name, Option.bind_some, word, Option.bind_some,
    quoted]

theorem quoted_solid (string : NamedString) : Solid string.quoted := solid_quoted _

theorem line_solid (string : NamedString) : Solid string.line :=
  solid_append string.name _ string.quoted ⟨string.nonempty, List.cons_ne_nil _ _⟩
    ⟨solid_of_free string.name string.solid, string.quoted_solid⟩

theorem WrittenOn.whole {string : NamedString} {raw : Text} (written : string.WrittenOn raw) :
    '\n' ∉ raw := by
  obtain ⟨front, tail, -, -, around, rfl⟩ := written
  have name : '\n' ∉ string.name := by
    intro member
    exact absurd (string.solid _ member) (by decide)
  have escaped := escapeNewlines_whole string.characters
  simp only [List.mem_append, not_or] at around
  simp only [line, quoted, List.cons_append, List.mem_append, List.mem_cons, not_or]
  exact ⟨⟨around.1, ⟨name, by decide⟩, by decide, escaped, by decide⟩, around.2⟩

theorem WrittenOn.codeOf {string : NamedString} {raw : Text} (written : string.WrittenOn raw) :
    codeOf raw = string.line := by
  obtain ⟨front, tail, blank, idle, -, rfl⟩ := written
  exact codeOf_written front string.line tail blank idle string.scanFrom_line string.line_solid

/-- A name starts the line, so the line is neither blank nor a header. -/
theorem line_content (string : NamedString) :
    string.line ≠ [] ∧ lineRole string.line = .content := by
  cases first : string.name with
  | nil => exact absurd first string.nonempty
  | cons c rest =>
      have undotted := string.undotted
      rw [first, List.head?_cons, ne_eq, Option.some.injEq] at undotted
      have solid := string.solid c (by rw [first]; exact List.mem_cons_self)
      rw [line, first, List.cons_append, List.cons_append]
      exact ⟨List.cons_ne_nil _ _, lineRole_content c _ solid undotted⟩

theorem parse_quoted (string : NamedString) :
    Directive.parseString string.quoted = .ok (.string string.characters) := by
  have unescaped := unescaped_escapeNewlines string.characters fun c member =>
    (string.unquoted c member).2
  rw [Directive.parseString_ok_iff]
  exact ⟨_, _, rfl, unescaped, (Directive.unescaped_ascii _ _ unescaped).mp string.ascii, rfl⟩

theorem parse_directive (string : NamedString) :
    Directive.parse (DirectiveName.string.text ++ ' ' :: string.quoted) =
      .ok (.string string.characters) := by
  have split := Directive.splitArguments_named .string ' ' string.quoted (by decide)
  rw [trim_solid string.quoted string.quoted_solid] at split
  rw [Directive.parse_named .string string.quoted _ split]
  exact string.parse_quoted

theorem parse_line (string : NamedString) :
    DataEntry.parse string.line = .ok ⟨some string.name, some (.string string.characters)⟩ := by
  have split : string.line = string.name ++ ':' :: (" .string ".toList ++ string.quoted) :=
    List.append_assoc _ _ _
  have labelled : Labelled string.line string.name (" .string ".toList ++ string.quoted) := by
    refine ⟨?_, string.nonempty, string.solid, string.name, ?_, ⟨[], [], ?_⟩, split⟩
    · rw [split, List.head?_append_of_ne_nil _ string.nonempty]
      exact string.undotted
    · exact fun member => (string.plain _ member).1 rfl
    · simp [Blank]
  have directive : trim (" .string ".toList ++ string.quoted) =
      DirectiveName.string.text ++ ' ' :: string.quoted := by
    have solid : Solid (DirectiveName.string.text ++ [' '] ++ string.quoted) :=
      solid_append _ _ _ ⟨by decide, List.cons_ne_nil _ _⟩
        ⟨solid_of_free _ (Directive.name_free .string), string.quoted_solid⟩
    exact (trim_cons_space ' ' _ (by decide)).trans (trim_solid _ solid)
  rw [DataEntry.parse_labelled _ _ _ labelled, directive, if_neg (by simp), string.parse_directive]
  rfl

theorem values_directive (string : NamedString) :
    (Directive.string string.characters).values = string.values := by
  rw [Directive.values, values, List.map_append]
  rfl

end NamedString

/-! Strings one behind the other. -/

theorem storedSize_cons (string : NamedString) (rest : List NamedString) :
    storedSize (string :: rest) = string.size + storedSize rest := by
  rw [storedSize, List.map_cons, List.sum_cons, storedSize]

/-- What a definition says, apart from its line. -/
def Symbol.place (symbol : Symbol UInt64) : Text × Nat := (symbol.name, symbol.address.toNat)

theorem dataLayoutFrom_strings (offset : UInt64) (lines : List Line) (strings : List NamedString)
    (codes : lines.map Line.code = strings.map NamedString.line)
    (fits : offset.toNat + storedSize strings < UInt64.size) :
    ∃ layout, dataLayoutFrom offset lines = .ok layout ∧
      layout.values = strings.flatMap NamedString.values ∧
      layout.definitions.map Symbol.place = strings.mapIdx fun index string =>
        (string.name, offset.toNat + storedSize (strings.take index)) := by
  -- The places in the rest are those behind the first string, moved on by its size.
  induction strings generalizing offset lines with
  | nil =>
      rw [List.map_nil, List.map_eq_nil_iff] at codes
      rw [codes]
      exact ⟨_, rfl, rfl, rfl⟩
  | cons string rest ih =>
      cases lines with
      | nil => cases codes
      | cons line others =>
          obtain ⟨code, codes⟩ := List.cons.inj codes
          let entry : DataEntry := ⟨some string.name, some (.string string.characters)⟩
          rw [storedSize_cons] at fits
          have bytes : storedBytes entry.record.toList = string.size :=
            Directive.storedBytes_record (.string string.characters)
          have bound : offset.toNat + string.size < UInt64.size := by omega
          obtain ⟨next, advanced⟩ := entry.advance_fits offset (by rwa [bytes])
          have moved : next.toNat = offset.toNat + string.size := by
            rw [entry.advance_ok offset next advanced, bytes]
          obtain ⟨tail, laid, values, places⟩ := ih next others codes (by omega)
          have parsed : DataEntry.parse line.code = .ok entry := by rw [code, string.parse_line]
          have whole : dataLayoutFrom offset (line :: others) = .ok
              ⟨entry.definitions line.number offset ++ tail.definitions,
                entry.values ++ tail.values, tail.size⟩ := by
            simp only [dataLayoutFrom, bind_ok_iff, onLine_ok_iff]
            exact ⟨entry, parsed, next, advanced, tail, laid, rfl⟩
          refine ⟨_, whole, ?_, ?_⟩
          · rw [values, List.flatMap_cons, ← string.values_directive]
            rfl
          · rw [List.map_append, places, List.mapIdx_cons]
            have shifted (index : Nat) : next.toNat + storedSize (rest.take index) =
                offset.toNat + storedSize ((string :: rest).take (index + 1)) := by
              rw [List.take_succ_cons, storedSize_cons, moved, Nat.add_assoc]
            simp only [shifted]
            rfl

/-! Strings under their headers. -/

theorem codeLinesFrom_code (number : Nat) (raw : Text) (rest : List Text) (some : codeOf raw ≠ []) :
    codeLinesFrom number (raw :: rest) =
      ⟨number, codeOf raw⟩ :: codeLinesFrom (number + 1) rest := by
  rw [codeLinesFrom, if_neg (by rwa [List.isEmpty_iff])]

/-- Lines of code that are kept under a header. -/
def AreContent (codes : List Text) : Prop := ∀ code ∈ codes, code ≠ [] ∧ lineRole code = .content

theorem StringSource.whole {current : Option Section} {raws : List Text}
    {strings : List NamedString} {codes : List Text}
    (source : StringSource current raws strings codes) : ∀ raw ∈ raws, '\n' ∉ raw := by
  induction source with
  | done current => exact fun _ => nofun
  | idle _ _ _ _ _ whole _ _ ih => exact List.forall_mem_cons.mpr ⟨whole, ih⟩
  | header _ _ _ _ _ _ whole _ _ _ ih => exact List.forall_mem_cons.mpr ⟨whole, ih⟩
  | string _ _ _ _ _ written _ ih => exact List.forall_mem_cons.mpr ⟨written.whole, ih⟩
  | code _ _ _ _ whole _ ih => exact List.forall_mem_cons.mpr ⟨whole, ih⟩

/-- All strings are data and all code is text; a header for text comes before the code. -/
theorem StringSource.partition {current : Option Section} {raws : List Text}
    {strings : List NamedString} {codes : List Text}
    (source : StringSource current raws strings codes) (content : AreContent codes)
    (number : Nat) :
    ∃ parts, partitionFrom current (codeLinesFrom number raws) = .ok parts ∧
      parts.sections.data.map Line.code = strings.map NamedString.line ∧
      parts.sections.text.map Line.code = codes ∧
      (current ≠ some .text → codes ≠ [] → ∃ header, parts.textHeader = some header) := by
  -- Outside of text, code that is still to come has its header before it.
  induction source generalizing number with
  | done current => exact ⟨_, rfl, rfl, rfl, fun _ some => absurd rfl some⟩
  | idle current raw rest strings codes _ idle later ih =>
      rw [codeLinesFrom, codeOf_idle raw idle]
      exact ih content (number + 1)
  | header current kind raw rest strings codes _ header stored later ih =>
      obtain ⟨parts, split, data, text, opened⟩ := ih content (number + 1)
      have some : codeOf raw ≠ [] := by
        intro none
        rw [none] at header
        cases header
      rw [codeLinesFrom_code number raw rest some, partitionFrom.eq_def]
      dsimp only
      rw [lineRole_header (codeOf raw) kind header]
      cases kind with
      | text =>
          dsimp only
          rw [split]
          exact ⟨{ parts with textHeader := number }, rfl, data, text, fun _ _ => ⟨number, rfl⟩⟩
      | data => exact ⟨parts, split, data, text, fun _ => opened (by decide)⟩
      | bss => exact absurd rfl stored
  | string raw rest string strings codes written later ih =>
      obtain ⟨parts, split, data, text, opened⟩ := ih content (number + 1)
      obtain ⟨some, role⟩ := string.line_content
      rw [← written.codeOf] at some role
      rw [codeLinesFrom_code number raw rest some, partitionFrom.eq_def]
      dsimp only
      rw [role]
      dsimp only
      rw [split]
      refine ⟨parts.addData ⟨number, codeOf raw⟩, rfl, ?_, text, opened⟩
      rw [Partition.addData, List.map_cons, data, List.map_cons, written.codeOf]
  | code raw rest strings codes _ later ih =>
      rw [AreContent, List.forall_mem_cons] at content
      obtain ⟨⟨some, role⟩, content⟩ := content
      obtain ⟨parts, split, data, text, -⟩ := ih content (number + 1)
      rw [codeLinesFrom_code number raw rest some, partitionFrom.eq_def]
      dsimp only
      rw [role]
      dsimp only
      rw [split]
      refine ⟨parts.addText ⟨number, codeOf raw⟩, rfl, data, ?_, fun other => absurd rfl other⟩
      rw [Partition.addText, List.map_cons, text]

theorem ofSource_strings (raws : List Text) (strings : List NamedString) (declaration : Text)
    (source : StringSource none raws strings [declaration, entryLabel])
    (declares : words declaration = entryDeclaration) :
    ∃ number lines, Sections.ofSource (join ['\n'] raws) = .ok ⟨[⟨number, entryLabel⟩], lines⟩ ∧
      lines.map Line.code = strings.map NamedString.line := by
  have declared : lineRole declaration = .content := by
    rw [lineRole, declares]
    rfl
  have some : declaration ≠ [] := by
    rintro rfl
    cases declares
  have content : AreContent [declaration, entryLabel] :=
    List.forall_mem_cons.mpr ⟨⟨some, declared⟩, List.forall_mem_singleton.mpr (by decide)⟩
  obtain ⟨parts, split, data, text, opened⟩ := source.partition content 1
  obtain ⟨header, headed⟩ := opened (by decide) (List.cons_ne_nil _ _)
  obtain ⟨first, _, shape, rfl, labelled⟩ := List.map_eq_cons_iff.mp text
  obtain ⟨second, none, rfl, label, nothing⟩ := List.map_eq_cons_iff.mp labelled
  rw [List.map_eq_nil_iff] at nothing
  refine ⟨second.number, parts.sections.data, (ofSource_ok_iff _ _).mpr
    ⟨parts, header, ?_, headed, ?_, rfl⟩, data⟩
  · rw [codeLines_join raws source.whole, split]
  · rw [dropEntryDeclaration_ok_iff, shape, nothing, ← label]
    exact ⟨rfl, first, second, [], rfl, declares, rfl⟩

/-! Whole sources. -/

/-- Every string is stored character by character, and its name has the offset of its bytes. -/
theorem assemble_strings (raws : List Text) (strings : List NamedString) (declaration : Text)
    (source : StringSource none raws strings [declaration, entryLabel])
    (declares : words declaration = entryDeclaration)
    (distinct : (strings.map NamedString.name).Nodup) (fits : storedSize strings < UInt64.size)
    (path : Text) (base : UInt64) :
    ∃ program, assemble path (join ['\n'] raws) base = .ok program ∧
      program.dataValues = strings.flatMap NamedString.values ∧
      program.dataSymbols.symbols.map Symbol.place = strings.mapIdx fun index string =>
        (string.name, storedSize (strings.take index)) := by
  obtain ⟨number, lines, split, codes⟩ := ofSource_strings raws strings declaration source declares
  obtain ⟨layout, laid, values, places⟩ := dataLayoutFrom_strings 0 lines strings codes
    (by rwa [UInt64.toNat_zero, Nat.zero_add])
  simp only [UInt64.toNat_zero, Nat.zero_add] at places
  have unique : (layout.definitions.map Symbol.name).Nodup := by
    have names : layout.definitions.map Symbol.name = strings.map NamedString.name := calc
      _ = (layout.definitions.map Symbol.place).map Prod.fst := List.map_map.symm
      _ = _ := by
        rw [places]
        exact List.ext_getElem (by simp) (by simp)
    rwa [names]
  have symbols : (empty.define layout.definitions).1.symbols = layout.definitions :=
    define_fresh empty layout.definitions unique
  let defined : List (Symbol UInt32) := [⟨"main".toList, number, 0⟩]
  let program : Program := ⟨[], [], layout.values, (empty.define defined).1,
    (empty.define layout.definitions).1,
    (empty.define defined).2 ++ (empty.define layout.definitions).2⟩
  have leads : Stages.LeadTo ⟨⟨[⟨number, entryLabel⟩], lines⟩, ⟨[], defined⟩, layout, []⟩
      (join ['\n'] raws) base program :=
    ⟨split, rfl, laid, rfl, rfl, rfl, .nil, rfl, rfl, rfl⟩
  refine ⟨program, leads.assembled path, values, ?_⟩
  rw [symbols, places]

/-- Text that looks like a comment, with a newline in it and white space at its ends; then a
comment with a quote in it; then an empty string. -/
theorem assemble_strings_comment :
    let raws := [".data", "a: .string \" # \\n:\t\" # \"", " b: .string \"\"", ".text",
      ".globl main", "main:"].map String.toList
    ∃ program, assemble [] (join ['\n'] raws) 0 = .ok program ∧
      program.dataValues = [".string", "7", " ", "#", " ", "\n", ":", "\t", "\x00", ".string", "1",
        "\x00"].map String.toList ∧
      program.dataSymbols.symbols.map Symbol.place = [("a".toList, 0), ("b".toList, 7)] := by
  intro raws
  let first : NamedString := ⟨"a".toList, " # \n:\t".toList, by decide, by decide,
    List.forall_mem_singleton.mpr (by decide), by simp, by simp, by simp⟩
  let second : NamedString := ⟨"b".toList, [], by decide, by decide,
    List.forall_mem_singleton.mpr (by decide), by simp, by simp, by simp⟩
  have commented : first.WrittenOn "a: .string \" # \\n:\t\" # \"".toList :=
    ⟨[], " # \"".toList, by decide, .inr ⟨[' '], " \"".toList, by decide, rfl⟩, by decide, rfl⟩
  have indented : second.WrittenOn " b: .string \"\"".toList :=
    ⟨[' '], [], by decide, .inl (by decide), by decide, rfl⟩
  have source : StringSource none raws [first, second] [".globl main".toList, entryLabel] := by
    refine .header _ .data _ _ _ _ (by decide) (by decide) (by decide) ?_
    refine .string _ _ first _ _ commented (.string _ _ second _ _ indented ?_)
    refine .header _ .text _ _ _ _ (by decide) (by decide) (by decide) ?_
    exact .code _ _ _ _ (by decide) (.code _ _ _ _ (by decide) (.done _))
  obtain ⟨program, assembled, values, places⟩ := assemble_strings raws [first, second] _
    source (by decide) (by decide) (by decide +zetaReduce) [] 0
  exact ⟨program, assembled, values.trans (by decide +zetaReduce), places⟩

end RiscAssembly
