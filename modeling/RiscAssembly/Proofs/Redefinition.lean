import Mathlib.Data.Finset.Card
import Mathlib.Data.List.Induction
import RiscAssembly.Proofs.DataGrammar
import RiscAssembly.Proofs.Resolution
import RiscAssembly.Proofs.Sectioning

/-!
Symbol tables and their warnings, for any sequence of definitions. A table has every name once,
where it was first defined, with what its last definition says; a definition is warned about
exactly if its name was defined before, and the warning points to the last place that did. For
a program the definitions are the labels of its text and those of its data, each in source
order, so that every label in the source is either an entry of a table or a warning.
-/

namespace RiscAssembly

open Text SymbolTable

namespace SymbolTable

variable {Address : Type}

/-- The definition of a name with no other one behind it. -/
def LastOf (definitions : List (Symbol Address)) (name : Text) (symbol : Symbol Address) : Prop :=
  ∃ before after, definitions = before ++ symbol :: after ∧ symbol.name = name ∧
    ∀ other ∈ after, other.name ≠ name

/-- A table that definitions, one after the other, should lead to. -/
structure Records (definitions : List (Symbol Address)) (table : SymbolTable Address) : Prop where
  meaning : ∀ name address, table.address? name = some address ↔
    ∃ symbol, LastOf definitions name symbol ∧ symbol.address = address
  entries : ∀ symbol ∈ table.symbols, LastOf definitions symbol.name symbol
  order : table.symbols.map Symbol.name = (definitions.map Symbol.name).eraseDups
  count : table.symbols.length = (definitions.map Symbol.name).toFinset.card

theorem lastDefinition_some_iff (definitions : List (Symbol Address)) (name : Text)
    (symbol : Symbol Address) :
    lastDefinition? definitions name = some symbol ↔ LastOf definitions name symbol := by
  rw [lastDefinition?, List.find?_eq_some_iff_append]
  constructor
  · rintro ⟨named, after, before, reversed, others⟩
    refine ⟨before.reverse, after.reverse, ?_, by simpa using named, ?_⟩
    · rw [← List.reverse_reverse definitions, reversed]
      simp
    · intro other member
      simpa using others other (List.mem_reverse.mp member)
  · rintro ⟨before, after, rfl, named, others⟩
    refine ⟨by simpa using named, after.reverse, before.reverse, by simp, ?_⟩
    intro other member
    simpa using others other (List.mem_reverse.mp member)

/-! One definition more. -/

theorem define_append (table : SymbolTable Address) (first second : List (Symbol Address)) :
    table.define (first ++ second) =
      (((table.define first).1.define second).1,
        (table.define first).2 ++ ((table.define first).1.define second).2) := by
  induction first generalizing table with
  | nil => rfl
  | cons symbol rest ih => simp only [List.cons_append, define, ih, List.append_assoc]

theorem define_concat (table : SymbolTable Address) (definitions : List (Symbol Address))
    (last : Symbol Address) :
    table.define (definitions ++ [last]) =
      ((table.define definitions).1.insert last,
        (table.define definitions).2 ++
          ((table.define definitions).1.redefinition? last).toList) := by
  rw [define_append]
  simp [define]

theorem eraseDups_concat (names : List Text) (last : Text) :
    (names ++ [last]).eraseDups =
      if last ∈ names then names.eraseDups else names.eraseDups ++ [last] := by
  rw [List.eraseDups_append]
  by_cases listed : last ∈ names
  · have removed : [last].removeAll names = [] := by simp [List.removeAll, listed]
    rw [removed, if_pos listed, List.eraseDups_nil, List.append_nil]
  · have kept : [last].removeAll names = [last] := by simp [List.removeAll, listed]
    rw [kept, if_neg listed]
    simp [List.eraseDups_cons]

theorem define_order (definitions : List (Symbol Address)) :
    (empty.define definitions).1.symbols.map Symbol.name =
      (definitions.map Symbol.name).eraseDups := by
  -- The last definition is split off: its place depends on the names before it.
  induction definitions using List.reverseRecOn with
  | nil => rfl
  | append_singleton definitions last ih =>
      rw [define_concat, insert, Text.names_put, ih, List.map_append, List.map_singleton,
        eraseDups_concat]
      simp only [List.mem_eraseDups]

theorem define_count (definitions : List (Symbol Address)) :
    (empty.define definitions).1.symbols.length =
      (definitions.map Symbol.name).toFinset.card := by
  have same : (definitions.map Symbol.name).toFinset =
      ((empty.define definitions).1.symbols.map Symbol.name).toFinset := by
    ext name
    simp only [define_order, List.mem_toFinset, List.mem_eraseDups]
  rw [same, List.toFinset_card_of_nodup (SymbolTable.unique _), List.length_map]

theorem define_records (definitions : List (Symbol Address)) :
    Records definitions (empty.define definitions).1 where
  meaning name address := by
    rw [address_define_empty, Option.map_eq_some_iff]
    simp only [lastDefinition_some_iff]
  entries symbol member :=
    (lastDefinition_some_iff _ _ _).mp (define_entry definitions symbol member)
  order := define_order definitions
  count := define_count definitions

/-- A definition is warned about if its name has a meaning already. -/
theorem redefinition_some_iff (earlier : List (Symbol Address)) (symbol : Symbol Address)
    (warning : Warning) :
    (empty.define earlier).1.redefinition? symbol = some warning ↔
      ∃ previous, LastOf earlier symbol.name previous ∧
        warning = ⟨symbol.name, symbol.line, previous.line⟩ := by
  rw [redefinition?, find_define_empty, Option.map_eq_some_iff]
  simp only [lastDefinition_some_iff, eq_comm (b := warning)]

/-- A definition adds an entry or a warning. -/
theorem insert_total (table : SymbolTable Address) (symbol : Symbol Address) :
    (table.redefinition? symbol).toList.length + (table.insert symbol).symbols.length =
      table.symbols.length + 1 := by
  have known : (table.redefinition? symbol).isSome ↔
      symbol.name ∈ table.symbols.map Symbol.name := by
    simp [redefinition?, find?, List.find?_isSome]
  have size := congrArg List.length (Text.names_put Symbol.name symbol table.symbols)
  rw [List.length_map] at size
  rw [insert, size]
  cases found : table.redefinition? symbol with
  | none =>
      have fresh : symbol.name ∉ table.symbols.map Symbol.name := by
        rw [← known, found]
        simp
      rw [if_neg fresh]
      simp
  | some warning =>
      have listed : symbol.name ∈ table.symbols.map Symbol.name := by
        rw [← known, found]
        rfl
      rw [if_pos listed]
      simp [Nat.add_comm]

theorem define_total (definitions : List (Symbol Address)) :
    (empty.define definitions).2.length + (empty.define definitions).1.symbols.length =
      definitions.length := by
  induction definitions using List.reverseRecOn with
  | nil => rfl
  | append_singleton definitions last ih =>
      have step := insert_total (empty.define definitions).1 last
      rw [define_concat, List.length_append, List.length_append, List.length_singleton]
      dsimp only
      omega

end SymbolTable

/-! Warnings. -/

/-- Where a label is defined. -/
structure LabelSite where
  name : Text
  line : Nat
  deriving DecidableEq

def Symbol.site {Address : Type} (symbol : Symbol Address) : LabelSite :=
  ⟨symbol.name, symbol.line⟩

/-- What is to be said about a label behind the labels before it. -/
def repetition? (earlier : List LabelSite) (site : LabelSite) : Option Warning :=
  ((earlier.filter fun other => other.name = site.name).getLast?).map fun previous =>
    ⟨site.name, site.line, previous.line⟩

/-- One warning for every label that repeats an earlier one, in order. -/
def repetitions (sites : List LabelSite) : List Warning :=
  sites.zipIdx.filterMap fun place => repetition? (sites.take place.2) place.1

theorem redefinition_repetition {Address : Type} (earlier : List (Symbol Address))
    (symbol : Symbol Address) :
    (empty.define earlier).1.redefinition? symbol =
      repetition? (earlier.map Symbol.site) symbol.site := by
  rw [redefinition?, find_define_empty, lastDefinition?, repetition?, List.filter_map,
    List.getLast?_map, List.getLast?_filter, Option.map_map]
  rfl

theorem repetitions_concat (sites : List LabelSite) (last : LabelSite) :
    repetitions (sites ++ [last]) = repetitions sites ++ (repetition? sites last).toList := by
  have earlier : (sites.zipIdx.filterMap fun place =>
      repetition? ((sites ++ [last]).take place.2) place.1) = repetitions sites := by
    apply List.filterMap_congr
    intro place member
    have inside := (List.mem_zipIdx member).2.1
    rw [List.take_append_of_le_length (by omega)]
  rw [repetitions, List.zipIdx_append, List.filterMap_append, earlier]
  congr 1
  cases found : repetition? sites last <;> simp [found]

theorem define_warnings {Address : Type} (definitions : List (Symbol Address)) :
    (empty.define definitions).2 = repetitions (definitions.map Symbol.site) := by
  induction definitions using List.reverseRecOn with
  | nil => rfl
  | append_singleton definitions last ih =>
      rw [define_concat, List.map_append, List.map_singleton, repetitions_concat, ih,
        redefinition_repetition]

/-- A warning points back if the labels stand on one line after the other. -/
theorem repetitions_back (sites : List LabelSite)
    (ordered : (sites.map LabelSite.line).Pairwise (· < ·)) (warning : Warning)
    (member : warning ∈ repetitions sites) : warning.previous < warning.line := by
  obtain ⟨⟨site, index⟩, placed, warned⟩ := List.mem_filterMap.mp member
  obtain ⟨previous, found, rfl⟩ := Option.map_eq_some_iff.mp warned
  have earlier := (List.mem_filter.mp (List.mem_of_getLast? found)).1
  have later : site ∈ sites.drop index := by
    have here := List.mk_mem_zipIdx_iff_getElem?.mp placed
    rw [← Nat.add_zero index, ← List.getElem?_drop] at here
    exact List.mem_of_getElem? here
  rw [← List.take_append_drop index sites, List.map_append, List.pairwise_append] at ordered
  exact ordered.2.2 _ (List.mem_map_of_mem earlier) _ (List.mem_map_of_mem later)

/-! Labels in the source. -/

/-- A line of text that defines a label. -/
structure IsLabelLine (code name : Text) : Prop where
  nonempty : name ≠ []
  single : name.getLast? ≠ some ':'
  solid : ∀ c ∈ name, isSpace c = false
  written : ∃ front, Padded name front ∧ code = front ++ [':']

/-- A line of data that defines a label. -/
def IsDataLabel (code name : Text) : Prop := ∃ record, DataForm code (some name) record

/-- The labels that lines define, in order. -/
inductive LabelSites (Defines : Text → Text → Prop) : List Line → List LabelSite → Prop
  | nil : LabelSites Defines [] []
  | label (line : Line) (rest : List Line) (name : Text) (sites : List LabelSite)
      (defined : Defines line.code name) (later : LabelSites Defines rest sites) :
      LabelSites Defines (line :: rest) (⟨name, line.number⟩ :: sites)
  | other (line : Line) (rest : List Line) (sites : List LabelSite)
      (undefined : ∀ name, ¬ Defines line.code name) (later : LabelSites Defines rest sites) :
      LabelSites Defines (line :: rest) sites

theorem LabelSites.sublist {Defines : Text → Text → Prop} {lines : List Line}
    {sites : List LabelSite} (defined : LabelSites Defines lines sites) :
    (sites.map LabelSite.line).Sublist (lines.map Line.number) := by
  induction defined with
  | nil => exact .slnil
  | label line rest name sites _ _ ih => exact ih.cons_cons line.number
  | other line rest sites _ _ ih => exact ih.cons line.number

theorem LabelSites.defined {Defines : Text → Text → Prop} {lines : List Line}
    {sites : List LabelSite} (labels : LabelSites Defines lines sites) (site : LabelSite)
    (member : site ∈ sites) : ∃ code, Defines code site.name := by
  induction labels with
  | nil => cases member
  | label line rest name sites defined _ ih =>
      rcases List.mem_cons.mp member with rfl | later
      · exact ⟨line.code, defined⟩
      · exact ih later
  | other line rest sites _ _ ih => exact ih member

theorem IsDataLabel.solid {code name : Text} (defined : IsDataLabel code name) :
    ∀ c ∈ name, isSpace c = false := by
  obtain ⟨record, form⟩ := defined
  cases form with
  | label _ _ rest labelled => exact labelled.solid
  | labelled _ _ rest directive record labelled => exact labelled.solid

theorem parse_label_iff (code name : Text) :
    Statement.parse code = .ok (.label name) ↔ IsLabelLine code name := by
  have labelled : Statement.parse code = .ok (.label name) ↔
      parseLabel code = .ok (some name) := by
    simp only [Statement.parse, bind_ok_iff]
    constructor
    · rintro ⟨label, read, rest⟩
      cases label with
      | some other =>
          cases rest
          exact read
      | none =>
          dsimp only at rest
          split at rest <;> cases rest
    · intro read
      exact ⟨some name, read, rfl⟩
  rw [labelled]
  constructor
  · intro read
    cases colon : dropLast? ':' code with
    | none => simp [parseLabel, colon] at read
    | some front =>
        have written := (dropLast_some_iff ':' code front).mp colon
        rw [written] at read
        obtain ⟨_, same, some, single, solid, padded⟩ := (parseLabel_front front _).mp read
        cases same
        exact ⟨some, single, solid, front, padded, written⟩
  · rintro ⟨some, single, solid, front, padded, rfl⟩
    exact (parseLabel_front front _).mpr ⟨name, rfl, some, single, solid, padded⟩

theorem placeFrom_sites (address : UInt32) (lines : List Line) (placement : Placement)
    (placed : placeFrom address lines = .ok placement) :
    LabelSites IsLabelLine lines (placement.definitions.map Symbol.site) := by
  induction lines generalizing address placement with
  | nil =>
      cases placed
      exact .nil
  | cons line rest ih =>
      rcases placeFrom_cons address line rest placement placed with
        ⟨name, tail, parsed, later, rfl⟩ | ⟨mnemonic, operands, tail, parsed, later, rfl⟩
      · exact .label line rest name _ ((parse_label_iff _ _).mp parsed) (ih address tail later)
      · refine .other line rest _ ?_ (ih _ tail later)
        intro name labelled
        rw [(parse_label_iff _ _).mpr labelled] at parsed
        cases parsed

theorem dataLayoutFrom_sites (offset : UInt64) (lines : List Line) (layout : DataLayout)
    (laid : dataLayoutFrom offset lines = .ok layout) :
    LabelSites IsDataLabel lines (layout.definitions.map Symbol.site) := by
  induction lines generalizing offset layout with
  | nil =>
      cases laid
      exact .nil
  | cons line rest ih =>
      obtain ⟨entry, next, tail, parsed, -, later, rfl⟩ :=
        dataLayoutFrom_cons offset line rest layout laid
      have form := entry.form_of_parse line.code parsed
      cases label : entry.label with
      | none =>
          simp only [DataEntry.definitions, label, Option.toList_none, List.map_nil,
            List.nil_append]
          refine .other line rest _ ?_ (ih next tail later)
          rintro name ⟨record, labelled⟩
          obtain ⟨other, again, named, -⟩ := DataEntry.parse_of_form _ _ _ labelled
          rw [parsed] at again
          cases again
          rw [label] at named
          cases named
      | some name =>
          rw [label] at form
          simp only [DataEntry.definitions, label, Option.toList_some, List.map_cons,
            List.map_nil, List.cons_append, List.nil_append]
          exact .label line rest name _ ⟨_, form⟩ (ih next tail later)

/-! Programs. -/

/-- The labels of a source, those of the text and those of the data. -/
def SourceLabels (source : Text) (code data : List LabelSite) : Prop :=
  ∃ sections, Sections.ofSource source = .ok sections ∧
    LabelSites IsLabelLine sections.text code ∧ LabelSites IsDataLabel sections.data data

/-- What a program has of the labels of its source. -/
structure Program.Keeps (program : Program) (code data : List LabelSite) : Prop where
  warnings : program.warnings = repetitions code ++ repetitions data
  back : ∀ warning ∈ program.warnings, warning.previous < warning.line
  total : program.warnings.length + program.codeSymbols.symbols.length +
    program.dataSymbols.symbols.length = code.length + data.length

theorem assemble_labels (path source : Text) (base : UInt64) (program : Program)
    (assembled : assemble path source base = .ok program) :
    ∃ code data, SourceLabels source code data ∧ program.Keeps code data := by
  obtain ⟨stages, leads⟩ := assemble_ok path source base program assembled
  have text := placeFrom_sites 0 _ _ leads.placed
  have data := dataLayoutFrom_sites 0 _ _ leads.laid
  have warnings : program.warnings =
      repetitions (stages.placement.definitions.map Symbol.site) ++
        repetitions (stages.layout.definitions.map Symbol.site) := by
    rw [leads.warnings, define_warnings, define_warnings]
  refine ⟨_, _, ⟨stages.sections, leads.split, text, data⟩, warnings, ?_, ?_⟩
  · obtain ⟨textOrder, dataOrder⟩ := ofSource_ordered source stages.sections leads.split
    intro warning member
    rw [warnings, List.mem_append] at member
    rcases member with inText | inData
    · exact repetitions_back _ (textOrder.sublist text.sublist) warning inText
    · exact repetitions_back _ (dataOrder.sublist data.sublist) warning inData
  · have textTotal := define_total stages.placement.definitions
    have dataTotal := define_total stages.layout.definitions
    rw [leads.warnings, leads.code, leads.data, List.length_append, List.length_map,
      List.length_map]
    omega

/-- Tables and warnings say what the definitions said, for any definitions and for the labels
of every program. -/
theorem redefinitions_exact :
    (∀ (Address : Type) (definitions : List (Symbol Address)),
      Records definitions (empty.define definitions).1) ∧
    (∀ (Address : Type) (earlier : List (Symbol Address)) (symbol : Symbol Address) warning,
      (empty.define earlier).1.redefinition? symbol = some warning ↔
        ∃ previous, LastOf earlier symbol.name previous ∧
          warning = ⟨symbol.name, symbol.line, previous.line⟩) ∧
    ∀ path source base program, assemble path source base = .ok program →
      ∃ code data, SourceLabels source code data ∧ program.Keeps code data :=
  ⟨fun _ => define_records, fun _ => redefinition_some_iff, assemble_labels⟩

/-- Two labels of the text repeat an earlier one, and one of the data. -/
theorem redefinitions_exact_thrice :
    let source :=
      ".text\n.globl main\nmain:\nmain :\n.data\nx: .word 1\nx:\n.text\nx:\nmain:".toList
    ∃ program code data, assemble [] source 0 = .ok program ∧ SourceLabels source code data ∧
      program.Keeps code data ∧ program.warnings.length = 3 := by
  intro source
  obtain ⟨-, -, labels⟩ := redefinitions_exact
  obtain ⟨code, data, sites, keeps⟩ := labels [] source 0 _ rfl
  exact ⟨_, code, data, rfl, sites, keeps, rfl⟩

end RiscAssembly
