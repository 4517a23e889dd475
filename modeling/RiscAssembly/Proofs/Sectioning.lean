import RiscAssembly.Proofs.Outcome
import RiscAssembly.Source.Section

/-!
Sections against the lines of code they are made from. A line belongs to the latest header
before it, wherever it stands, so the two streams are described here by looking back from
every line and not by carrying a current section along. Splitting succeeds exactly for
well-sectioned lines, and then each stream has all of its lines once, in source order and
with their own numbers.
-/

namespace RiscAssembly

open Text

/-- The lines of a source that have code on them, with their numbers counted from one. -/
def cleanedLines (source : Text) : List Line :=
  ((lines source).zipIdx 1).filterMap fun place =>
    if codeOf place.1 = [] then none else some ⟨place.2, codeOf place.1⟩

def sectionNames : List Text := [Section.text.name, Section.data.name, Section.bss.name]

/-- The name in a header: the one word behind the section word, or a lone word that is the
name of a section. -/
def headerName? (code : Text) : Option Text :=
  match words code with
  | [word] => if word ∈ sectionNames then some word else none
  | [word, name] => if word = sectionWord then some name else none
  | _ => none

/-- The name in the last header of some lines. -/
def latestHeader? (lines : List Line) : Option Text :=
  (lines.filterMap fun line => headerName? line.code).getLast?

/-- Every line with the lines before it; `before` comes before all of them. -/
def withPreceding : List Line → List Line → List (List Line × Line)
  | _, [] => []
  | before, line :: rest => (before, line) :: withPreceding (before ++ [line]) rest

/-- The line as text, if it is no header and the latest header before it is for text. -/
def asText? (before : List Line) (line : Line) : Option Line :=
  if headerName? line.code = none ∧ latestHeader? before = some Section.text.name then some line
  else none

/-- The line as data, if it is no header and the latest header before it is for data. A
header for uninitialised data stands for a marker. -/
def asData? (before : List Line) (line : Line) : Option Line :=
  match headerName? line.code with
  | some name =>
      if name = Section.bss.name then some ⟨line.number, bssMarker⟩ else none
  | none =>
      if latestHeader? before ∈ [some Section.data.name, some Section.bss.name] then some line
      else none

def textFrom (before lines : List Line) : List Line :=
  (withPreceding before lines).filterMap fun place => asText? place.1 place.2

def dataFrom (before lines : List Line) : List Line :=
  (withPreceding before lines).filterMap fun place => asData? place.1 place.2

/-- Lines of code that can be split into sections. -/
structure WellSectioned (lines : List Line) : Prop where
  named : ∀ line ∈ lines, ∀ name, headerName? line.code = some name → name ∈ sectionNames
  counted : ∀ line ∈ lines, (words line.code).head? = some sectionWord →
    (words line.code).length = 2
  opened : ∀ before line after, lines = before ++ line :: after →
    headerName? line.code = none → latestHeader? before ≠ none
  text : ∃ line ∈ lines, headerName? line.code = some Section.text.name
  entry : ∃ first second rest, textFrom [] lines = first :: second :: rest ∧
    words first.code = entryDeclaration ∧ second.code = entryLabel

/-! Cleaned lines. -/

theorem codeLinesFrom_zipIdx (number : Nat) (raws : List Text) :
    codeLinesFrom number raws = (raws.zipIdx number).filterMap fun place =>
      if codeOf place.1 = [] then none else some ⟨place.2, codeOf place.1⟩ := by
  induction raws generalizing number with
  | nil => rfl
  | cons raw rest ih =>
      by_cases blank : codeOf raw = []
      · simp [codeLinesFrom, blank, ih]
      · simp [codeLinesFrom, blank, ih]

theorem codeLines_eq_cleaned (source : Text) : codeLines source = cleanedLines source :=
  codeLinesFrom_zipIdx 1 (lines source)

theorem cleanedLines_ordered (source : Text) :
    ((cleanedLines source).map Line.number).Pairwise (· < ·) := by
  have numbers : (((lines source).zipIdx 1).map Prod.snd).Pairwise (· < ·) := by
    rw [List.zipIdx_map_snd]
    exact List.pairwise_lt_range' 1
  rw [List.pairwise_map] at numbers ⊢
  rw [cleanedLines, List.pairwise_filterMap]
  refine numbers.imp fun {first second} before line kept later behind => ?_
  split at kept <;> split at behind <;> cases kept <;> cases behind
  exact before

/-! Headers. -/

theorem mem_sectionNames (name : Text) :
    name ∈ sectionNames ↔ ∃ kind : Section, kind.name = name := by
  constructor
  · intro member
    simp only [sectionNames, List.mem_cons, List.not_mem_nil, or_false] at member
    rcases member with rfl | rfl | rfl
    · exact ⟨.text, rfl⟩
    · exact ⟨.data, rfl⟩
    · exact ⟨.bss, rfl⟩
  · rintro ⟨kind, rfl⟩
    cases kind with
    | text => exact List.mem_cons_self
    | data => exact List.mem_cons_of_mem _ List.mem_cons_self
    | bss => exact List.mem_cons_of_mem _ (List.mem_cons_of_mem _ List.mem_cons_self)

theorem Section.ofName_some_iff (name : Text) (kind : Section) :
    Section.ofName? name = some kind ↔ kind.name = name := by
  constructor
  · intro found
    simpa using List.find?_some found
  · rintro rfl
    cases kind <;> rfl

theorem Section.ofName_none_iff (name : Text) :
    Section.ofName? name = none ↔ name ∉ sectionNames := by
  rw [mem_sectionNames, not_exists, Option.eq_none_iff_forall_not_mem]
  exact forall_congr' fun kind => not_congr (Section.ofName_some_iff name kind)

/-- The section word at the start of a line, with a number of words that makes no header. -/
def IsBrokenHeader (code : Text) : Prop :=
  (words code).head? = some sectionWord ∧ (words code).length ≠ 2

/-- What the role of a line says about its words. -/
theorem lineRole_spec (code : Text) :
    match lineRole code with
    | .header kind => headerName? code = some kind.name ∧ ¬ IsBrokenHeader code
    | .content => headerName? code = none ∧ ¬ IsBrokenHeader code
    | .unsupportedHeader => IsBrokenHeader code ∨
        ∃ name, headerName? code = some name ∧ name ∉ sectionNames := by
  unfold lineRole headerName? IsBrokenHeader
  -- Both sides look at no more than two words and at whether there are others.
  rcases words code with _ | ⟨word, _ | ⟨name, _ | ⟨third, later⟩⟩⟩
  · simp
  · by_cases isWord : word = sectionWord
    · simp [isWord]
    · cases found : Section.ofName? word with
      | none =>
          have unlisted := (Section.ofName_none_iff word).mp found
          simp [isWord, found, unlisted]
      | some kind =>
          have same := (Section.ofName_some_iff word kind).mp found
          have listed := (mem_sectionNames word).mpr ⟨kind, same⟩
          simp [isWord, found, listed, same]
  · by_cases isWord : word = sectionWord
    · cases found : Section.ofName? name with
      | none =>
          have unlisted := (Section.ofName_none_iff name).mp found
          simp [isWord, found, unlisted]
      | some kind =>
          have same := (Section.ofName_some_iff name kind).mp found
          simp [isWord, found, same]
    · simp [isWord]
  · by_cases isWord : word = sectionWord
    · simp [isWord]
    · simp [isWord]

theorem lineRole_header (code : Text) (kind : Section)
    (header : headerName? code = some kind.name) : lineRole code = .header kind := by
  have found : Section.ofName? kind.name = some kind := (Section.ofName_some_iff _ kind).mpr rfl
  have other : kind.name ≠ sectionWord := by cases kind <;> decide
  revert header
  unfold headerName? lineRole
  rcases words code with _ | ⟨word, _ | ⟨name, _ | ⟨third, later⟩⟩⟩
  · intro header
    cases header
  · intro header
    by_cases listed : word ∈ sectionNames
    · have same : word = kind.name := by simpa [listed] using header
      simp [same, other, found]
    · simp [listed] at header
  · intro header
    by_cases isWord : word = sectionWord
    · have same : name = kind.name := by simpa [isWord] using header
      simp [isWord, same, found]
    · simp [isWord] at header
  · intro header
    cases header

theorem latestHeader_header (before : List Line) (line : Line) (name : Text)
    (header : headerName? line.code = some name) :
    latestHeader? (before ++ [line]) = some name := by
  simp [latestHeader?, List.filterMap_append, header]

theorem latestHeader_content (before : List Line) (line : Line)
    (content : headerName? line.code = none) :
    latestHeader? (before ++ [line]) = latestHeader? before := by
  simp [latestHeader?, List.filterMap_append, content]

/-! Looking back from every line. -/

theorem mem_withPreceding (before lines : List Line) (front : List Line) (line : Line) :
    (front, line) ∈ withPreceding before lines ↔
      ∃ between after, lines = between ++ line :: after ∧ front = before ++ between := by
  induction lines generalizing before with
  | nil => simp [withPreceding]
  | cons first rest ih =>
      rw [withPreceding, List.mem_cons, ih, Prod.mk.injEq]
      constructor
      · rintro (⟨rfl, rfl⟩ | ⟨between, after, rfl, rfl⟩)
        · exact ⟨[], rest, rfl, (List.append_nil _).symm⟩
        · exact ⟨first :: between, after, rfl, by simp⟩
      · rintro ⟨between, after, split, rfl⟩
        cases between with
        | nil =>
            cases split
            exact .inl ⟨List.append_nil _, rfl⟩
        | cons second between =>
            cases split
            exact .inr ⟨between, after, rfl, by simp⟩

/-- A line that splitting can take behind the lines before it. -/
structure Admitted (before : List Line) (line : Line) : Prop where
  named : ∀ name, headerName? line.code = some name → name ∈ sectionNames
  counted : ¬ IsBrokenHeader line.code
  opened : headerName? line.code = none → latestHeader? before ≠ none

/-- A line that is taken is a header for a known section or stands under one. -/
theorem admitted_cases (before : List Line) (line : Line) (current : Option Section)
    (tracked : latestHeader? before = current.map Section.name) (admitted : Admitted before line) :
    (∃ kind, lineRole line.code = .header kind) ∨
      (lineRole line.code = .content ∧ ∃ kind, current = some kind) := by
  have role := lineRole_spec line.code
  cases shape : lineRole line.code with
  | header kind => exact .inl ⟨kind, rfl⟩
  | content =>
      rw [shape] at role
      have opened := admitted.opened role.1
      cases current with
      | none => exact absurd tracked opened
      | some kind => exact .inr ⟨rfl, kind, rfl⟩
  | unsupportedHeader =>
      rw [shape] at role
      rcases role with broken | ⟨name, header, unlisted⟩
      · exact absurd broken admitted.counted
      · exact absurd (admitted.named name header) unlisted

theorem textFrom_cons (before : List Line) (line : Line) (rest : List Line) :
    textFrom before (line :: rest) =
      (asText? before line).toList ++ textFrom (before ++ [line]) rest := by
  cases found : asText? before line <;> simp [textFrom, withPreceding, found]

theorem dataFrom_cons (before : List Line) (line : Line) (rest : List Line) :
    dataFrom before (line :: rest) =
      (asData? before line).toList ++ dataFrom (before ++ [line]) rest := by
  cases found : asData? before line <;> simp [dataFrom, withPreceding, found]

theorem asText_some (before : List Line) (line kept : Line)
    (found : asText? before line = some kept) : kept = line := by
  unfold asText? at found
  split at found
  · exact (Option.some.inj found).symm
  · cases found

theorem asData_some (before : List Line) (line kept : Line)
    (found : asData? before line = some kept) :
    kept.number = line.number ∧ (kept = line ∨ kept.code = bssMarker) := by
  unfold asData? at found
  split at found
  · split at found
    · cases found
      exact ⟨rfl, .inr rfl⟩
    · cases found
  · split at found
    · cases found
      exact ⟨rfl, .inl rfl⟩
    · cases found

theorem textFrom_sublist (before lines : List Line) : (textFrom before lines).Sublist lines := by
  induction lines generalizing before with
  | nil => exact .slnil
  | cons line rest ih =>
      rw [textFrom_cons]
      cases found : asText? before line with
      | none => exact (ih _).cons line
      | some kept =>
          obtain rfl := asText_some before line kept found
          exact (ih _).cons_cons kept

theorem dataFrom_sublist (before lines : List Line) :
    ((dataFrom before lines).map Line.number).Sublist (lines.map Line.number) := by
  induction lines generalizing before with
  | nil => exact .slnil
  | cons line rest ih =>
      rw [dataFrom_cons, List.map_append, List.map_cons]
      cases found : asData? before line with
      | none => exact (ih _).cons line.number
      | some kept =>
          rw [← (asData_some before line kept found).1]
          exact (ih _).cons_cons kept.number

/-- The number of the first header for text. -/
def textHeader? (lines : List Line) : Option Nat :=
  (lines.find? fun line => headerName? line.code = some Section.text.name).map Line.number

theorem textHeader_cons (line : Line) (rest : List Line) :
    textHeader? (line :: rest) =
      if headerName? line.code = some Section.text.name then some line.number
      else textHeader? rest := by
  by_cases header : headerName? line.code = some Section.text.name <;> simp [textHeader?, header]

/-! Splitting, one line at a time. -/

/-- The partition that lines behind `before` should have. -/
def partitionOf (before lines : List Line) : Partition :=
  ⟨⟨textFrom before lines, dataFrom before lines⟩, textHeader? lines⟩

theorem asText_header (before : List Line) (line : Line) (kind : Section)
    (header : headerName? line.code = some kind.name) : asText? before line = none := by
  simp [asText?, header]

theorem asData_header (before : List Line) (line : Line) (kind : Section)
    (header : headerName? line.code = some kind.name) :
    asData? before line = if kind = .bss then some ⟨line.number, bssMarker⟩ else none := by
  rw [asData?, header]
  cases kind <;> rfl

theorem asText_content (before : List Line) (line : Line) (current : Section)
    (content : headerName? line.code = none)
    (tracked : latestHeader? before = some current.name) :
    asText? before line = if current = .text then some line else none := by
  rw [asText?, content, tracked]
  cases current <;> rfl

theorem asData_content (before : List Line) (line : Line) (current : Section)
    (content : headerName? line.code = none)
    (tracked : latestHeader? before = some current.name) :
    asData? before line = if current = .text then none else some line := by
  rw [asData?, content, tracked]
  cases current <;> rfl

/-- What a header does to the partition of the lines behind it. -/
theorem partitionFrom_header (current : Option Section) (line : Line) (rest : List Line)
    (kind : Section) (role : lineRole line.code = .header kind) (before : List Line)
    (later : partitionFrom (some kind) rest = .ok (partitionOf (before ++ [line]) rest)) :
    partitionFrom current (line :: rest) = .ok (partitionOf before (line :: rest)) := by
  have spec := lineRole_spec line.code
  rw [role] at spec
  obtain ⟨header, -⟩ := spec
  rw [partitionOf, textFrom_cons, dataFrom_cons, textHeader_cons,
    asText_header before line kind header, asData_header before line kind header, header,
    partitionFrom.eq_def]
  dsimp only
  rw [role]
  cases kind with
  | text =>
      dsimp only
      rw [later]
      rfl
  | data => exact later
  | bss =>
      dsimp only
      rw [later]
      rfl

/-- What a line under a header does to the partition of the lines behind it. -/
theorem partitionFrom_under (current : Section) (line : Line) (rest : List Line)
    (role : lineRole line.code = .content) (before : List Line)
    (tracked : latestHeader? before = some current.name)
    (later : partitionFrom (some current) rest = .ok (partitionOf (before ++ [line]) rest)) :
    partitionFrom (some current) (line :: rest) = .ok (partitionOf before (line :: rest)) := by
  have spec := lineRole_spec line.code
  rw [role] at spec
  obtain ⟨content, -⟩ := spec
  have header : textHeader? (line :: rest) = textHeader? rest := by
    rw [textHeader_cons, content, if_neg (by simp)]
  rw [partitionOf, textFrom_cons, dataFrom_cons, header,
    asText_content before line current content tracked,
    asData_content before line current content tracked, partitionFrom.eq_def]
  dsimp only
  rw [role]
  cases current with
  | text =>
      dsimp only
      rw [later]
      rfl
  | data =>
      dsimp only
      rw [later]
      rfl
  | bss =>
      dsimp only
      rw [later]
      rfl

/-- A line that was split off, and the section that is open behind it. -/
theorem partitionFrom_cons (current : Option Section) (line : Line) (rest : List Line)
    (parts : Partition) (split : partitionFrom current (line :: rest) = .ok parts) :
    ∃ next tail, partitionFrom next rest = .ok tail ∧
      ((∃ kind, lineRole line.code = .header kind ∧ next = some kind) ∨
        (lineRole line.code = .content ∧ next = current ∧ current ≠ none)) := by
  rw [partitionFrom.eq_def] at split
  dsimp only at split
  cases role : lineRole line.code with
  | unsupportedHeader =>
      rw [role] at split
      cases split
  | header kind =>
      rw [role] at split
      cases kind <;> simp only [bind_ok_iff, pure_ok_iff] at split
      · obtain ⟨tail, later, -⟩ := split
        exact ⟨_, tail, later, .inl ⟨_, rfl, rfl⟩⟩
      · exact ⟨_, parts, split, .inl ⟨_, rfl, rfl⟩⟩
      · obtain ⟨tail, later, -⟩ := split
        exact ⟨_, tail, later, .inl ⟨_, rfl, rfl⟩⟩
  | content =>
      rw [role] at split
      cases current with
      | none => cases split
      | some kind =>
          cases kind <;> simp only [bind_ok_iff, pure_ok_iff] at split <;>
            obtain ⟨tail, later, -⟩ := split <;>
            exact ⟨_, tail, later, .inr ⟨rfl, rfl, Option.some_ne_none _⟩⟩

/-- The section that is open is always the one of the latest header. -/
theorem latestHeader_tracked (current next : Option Section) (before : List Line) (line : Line)
    (tracked : latestHeader? before = current.map Section.name)
    (step : (∃ kind, lineRole line.code = .header kind ∧ next = some kind) ∨
      (lineRole line.code = .content ∧ next = current)) :
    latestHeader? (before ++ [line]) = next.map Section.name := by
  have spec := lineRole_spec line.code
  rcases step with ⟨kind, role, rfl⟩ | ⟨role, rfl⟩
  · rw [role] at spec
    exact latestHeader_header before line kind.name spec.1
  · rw [role] at spec
    rw [latestHeader_content before line spec.1, tracked]

/-- A line that was split off could be taken. -/
theorem admitted_of_step (current next : Option Section) (before : List Line) (line : Line)
    (tracked : latestHeader? before = current.map Section.name)
    (step : (∃ kind, lineRole line.code = .header kind ∧ next = some kind) ∨
      (lineRole line.code = .content ∧ next = current ∧ current ≠ none)) :
    Admitted before line := by
  have spec := lineRole_spec line.code
  rcases step with ⟨kind, role, -⟩ | ⟨role, -, opened⟩
  · rw [role] at spec
    refine ⟨?_, spec.2, ?_⟩
    · intro name header
      rw [spec.1, Option.some.injEq] at header
      exact (mem_sectionNames name).mpr ⟨kind, header⟩
    · intro content
      rw [spec.1] at content
      cases content
  · rw [role] at spec
    refine ⟨?_, spec.2, ?_⟩
    · intro name header
      rw [spec.1] at header
      cases header
    · intro _ closed
      rw [tracked, Option.map_eq_none_iff] at closed
      exact opened closed

theorem partitionFrom_sound (current : Option Section) (before lines : List Line)
    (parts : Partition) (tracked : latestHeader? before = current.map Section.name)
    (split : partitionFrom current lines = .ok parts) :
    ∀ place ∈ withPreceding before lines, Admitted place.1 place.2 := by
  -- `tracked` is the invariant: each line hands it on to the lines behind it.
  induction lines generalizing current before parts with
  | nil =>
      intro place member
      cases member
  | cons line rest ih =>
      obtain ⟨next, tail, later, step⟩ := partitionFrom_cons current line rest parts split
      intro place member
      rcases List.mem_cons.mp member with rfl | inRest
      · exact admitted_of_step current next before line tracked step
      · refine ih next (before ++ [line]) tail ?_ later place inRest
        exact latestHeader_tracked current next before line tracked
          (step.imp id fun content => ⟨content.1, content.2.1⟩)

theorem partitionFrom_complete (current : Option Section) (before lines : List Line)
    (tracked : latestHeader? before = current.map Section.name)
    (admitted : ∀ place ∈ withPreceding before lines, Admitted place.1 place.2) :
    partitionFrom current lines = .ok (partitionOf before lines) := by
  induction lines generalizing current before with
  | nil => rfl
  | cons line rest ih =>
      have tail := fun place member => admitted place (List.mem_cons_of_mem _ member)
      rcases admitted_cases before line current tracked (admitted _ List.mem_cons_self) with
        ⟨kind, role⟩ | ⟨role, kind, rfl⟩
      · refine partitionFrom_header current line rest kind role before (ih _ _ ?_ tail)
        exact latestHeader_tracked current _ before line tracked (.inl ⟨kind, role, rfl⟩)
      · refine partitionFrom_under kind line rest role before tracked (ih _ _ ?_ tail)
        exact latestHeader_tracked _ _ before line tracked (.inr ⟨role, rfl⟩)

theorem partitionFrom_ok_iff (lines : List Line) (parts : Partition) :
    partitionFrom none lines = .ok parts ↔
      (∀ place ∈ withPreceding [] lines, Admitted place.1 place.2) ∧
        parts = partitionOf [] lines := by
  constructor
  · intro split
    have admitted := partitionFrom_sound none [] lines parts rfl split
    rw [partitionFrom_complete none [] lines rfl admitted, Except.ok.injEq] at split
    exact ⟨admitted, split.symm⟩
  · rintro ⟨admitted, rfl⟩
    exact partitionFrom_complete none [] lines rfl admitted

/-! The entry point. -/

theorem dropEntryDeclaration_ok_iff (header : Nat) (text rest : List Line) :
    dropEntryDeclaration header text = .ok rest ↔
      rest = text.tail ∧ ∃ first second later, text = first :: second :: later ∧
        words first.code = entryDeclaration ∧ second.code = entryLabel := by
  unfold dropEntryDeclaration
  rcases text with _ | ⟨first, _ | ⟨second, later⟩⟩
  · simp
  · by_cases declared : words first.code = entryDeclaration <;> simp [declared]
  · by_cases declared : words first.code = entryDeclaration
    · by_cases labelled : second.code = entryLabel
      · have entry : ∃ f s l, first :: second :: later = f :: s :: l ∧
            words f.code = entryDeclaration ∧ s.code = entryLabel :=
          ⟨first, second, later, rfl, declared, labelled⟩
        rw [and_iff_left entry]
        simp [declared, labelled, eq_comm]
      · simp [declared, labelled]
    · simp [declared]

theorem textHeader_some_iff (lines : List Line) :
    (∃ number, textHeader? lines = some number) ↔
      ∃ line ∈ lines, headerName? line.code = some Section.text.name := by
  rw [← Option.isSome_iff_exists, textHeader?, Option.isSome_map, List.find?_isSome]
  simp only [decide_eq_true_eq]

theorem admitted_all_iff (lines : List Line) :
    (∀ place ∈ withPreceding [] lines, Admitted place.1 place.2) ↔
      (∀ line ∈ lines, ∀ name, headerName? line.code = some name → name ∈ sectionNames) ∧
      (∀ line ∈ lines, ¬ IsBrokenHeader line.code) ∧
      ∀ before line after, lines = before ++ line :: after →
        headerName? line.code = none → latestHeader? before ≠ none := by
  constructor
  · intro admitted
    have placed (before : List Line) (line : Line) (after : List Line)
        (split : lines = before ++ line :: after) : Admitted before line :=
      admitted (before, line) ((mem_withPreceding [] lines before line).mpr
        ⟨before, after, split, rfl⟩)
    refine ⟨?_, ?_, fun before line after split => (placed before line after split).opened⟩
    · intro line member
      obtain ⟨before, after, split⟩ := List.append_of_mem member
      exact (placed before line after split).named
    · intro line member
      obtain ⟨before, after, split⟩ := List.append_of_mem member
      exact (placed before line after split).counted
  · rintro ⟨named, counted, opened⟩ ⟨before, line⟩ member
    obtain ⟨between, after, split, same⟩ := (mem_withPreceding [] lines before line).mp member
    rw [List.nil_append] at same
    subst same
    have inside : line ∈ lines := by rw [split]; simp
    exact ⟨named line inside, counted line inside, opened before line after split⟩

/-- The steps of splitting a source. -/
theorem ofSource_ok_iff (source : Text) (sections : Sections) :
    Sections.ofSource source = .ok sections ↔
      ∃ parts header, partitionFrom none (codeLines source) = .ok parts ∧
        parts.textHeader = some header ∧
        dropEntryDeclaration header parts.sections.text = .ok sections.text ∧
        sections.data = parts.sections.data := by
  simp only [Sections.ofSource, bind_ok_iff]
  constructor
  · rintro ⟨parts, split, rest⟩
    cases header : parts.textHeader with
    | none =>
        rw [header] at rest
        cases rest
    | some number =>
        rw [header] at rest
        simp only [bind_ok_iff, pure_ok_iff] at rest
        obtain ⟨text, dropped, rfl⟩ := rest
        exact ⟨parts, number, split, header, dropped, rfl⟩
  · rintro ⟨parts, number, split, header, dropped, data⟩
    refine ⟨parts, split, ?_⟩
    rw [header]
    simp only [bind_ok_iff, pure_ok_iff]
    exact ⟨sections.text, dropped, by rw [← data]⟩

theorem ofSource_exact (source : Text) (sections : Sections) :
    Sections.ofSource source = .ok sections ↔
      WellSectioned (cleanedLines source) ∧
        sections.text = (textFrom [] (cleanedLines source)).tail ∧
        sections.data = dataFrom [] (cleanedLines source) := by
  rw [ofSource_ok_iff, codeLines_eq_cleaned]
  constructor
  · rintro ⟨parts, header, split, found, dropped, data⟩
    obtain ⟨admitted, rfl⟩ := (partitionFrom_ok_iff _ parts).mp split
    obtain ⟨named, counted, opened⟩ := (admitted_all_iff _).mp admitted
    obtain ⟨text, entry⟩ := (dropEntryDeclaration_ok_iff header _ sections.text).mp dropped
    refine ⟨⟨named, ?_, opened, (textHeader_some_iff _).mp ⟨header, found⟩, entry⟩, text, data⟩
    intro line member marked
    exact Decidable.not_not.mp fun other => counted line member ⟨marked, other⟩
  · rintro ⟨valid, text, data⟩
    obtain ⟨header, found⟩ := (textHeader_some_iff _).mpr valid.text
    have admitted := (admitted_all_iff (cleanedLines source)).mpr
      ⟨valid.named, fun line member broken => broken.2 (valid.counted line member broken.1),
        valid.opened⟩
    refine ⟨_, header, (partitionFrom_ok_iff _ _).mpr ⟨admitted, rfl⟩, found, ?_, data⟩
    exact (dropEntryDeclaration_ok_iff header _ sections.text).mpr ⟨text, valid.entry⟩

/-- Sections that take turns, with a marker and a comment. -/
theorem ofSource_exact_interleaved :
    let source := (".text\n.globl main\nmain:\n.data\ns: .word 7 # seven\n.text\nla a0, s\n" ++
      ".section .bss\nb: .space 4\n.text\necall").toList
    let text : List Line := [⟨3, "main:".toList⟩, ⟨7, "la a0, s".toList⟩, ⟨11, "ecall".toList⟩]
    let data : List Line := [⟨5, "s: .word 7".toList⟩, ⟨8, ".section .bss".toList⟩,
      ⟨9, "b: .space 4".toList⟩]
    Sections.ofSource source = .ok ⟨text, data⟩ ∧ WellSectioned (cleanedLines source) ∧
      text = (textFrom [] (cleanedLines source)).tail ∧
      data = dataFrom [] (cleanedLines source) := by
  intro source text data
  have split : Sections.ofSource source = .ok ⟨text, data⟩ := by rfl
  exact ⟨split, (ofSource_exact source ⟨text, data⟩).mp split⟩

theorem ofSource_streams (source : Text) (sections : Sections)
    (split : Sections.ofSource source = .ok sections) :
    sections.text = (textFrom [] (cleanedLines source)).tail ∧
      sections.data = dataFrom [] (cleanedLines source) := by
  obtain ⟨parts, header, parted, -, dropped, data⟩ := (ofSource_ok_iff source sections).mp split
  rw [codeLines_eq_cleaned] at parted
  obtain ⟨-, rfl⟩ := (partitionFrom_ok_iff _ parts).mp parted
  exact ⟨((dropEntryDeclaration_ok_iff header _ sections.text).mp dropped).1, data⟩

/-- The lines of each section have rising numbers, like the lines of the source. -/
theorem ofSource_ordered (source : Text) (sections : Sections)
    (split : Sections.ofSource source = .ok sections) :
    (sections.text.map Line.number).Pairwise (· < ·) ∧
      (sections.data.map Line.number).Pairwise (· < ·) := by
  have ordered := cleanedLines_ordered source
  obtain ⟨text, data⟩ := ofSource_streams source sections split
  rw [text, data]
  exact ⟨ordered.sublist (((List.tail_sublist _).trans (textFrom_sublist _ _)).map _),
    ordered.sublist (dataFrom_sublist _ _)⟩

end RiscAssembly
