import Mathlib.Data.List.Forall2
import RiscAssembly.Data.Segment
import RiscAssembly.Proofs.Spelling

/-!
The grammar of data. A line is a marker, a directive, or a label with a directive or nothing
behind it. A directive gives a record: a count, the values that are stored for it, and with
the count the number of bytes that it stands for. A line is read exactly if it has a form,
with the label and the record of the form.
-/

namespace RiscAssembly

open Text SymbolTable

/-- How many bytes of the segment a count stands for. -/
def DirectiveName.bytes : DirectiveName → Nat → Nat
  | .word, count => 4 * count
  | _, count => count

structure DataRecord where
  name : DirectiveName
  count : Nat
  values : List Text
  deriving DecidableEq

def DataRecord.bytes (record : DataRecord) : Nat := record.name.bytes record.count

def storedBytes (records : List DataRecord) : Nat := (records.map DataRecord.bytes).sum

/-- The body of a string literal and the characters it stands for. -/
inductive Unescaped : Text → Text → Prop
  | done : Unescaped [] []
  | newline (body characters : Text) (later : Unescaped body characters) :
      Unescaped ('\\' :: 'n' :: body) ('\n' :: characters)
  | plain (c : Char) (body characters : Text) (ordinary : c ≠ '\\')
      (later : Unescaped body characters) : Unescaped (c :: body) (c :: characters)

/-- The arguments of a directive and the record they give. -/
inductive ArgumentForm : Text → DataRecord → Prop
  | word (literals parts : List Text) (some : literals ≠ [])
      (valid : ∀ literal ∈ literals, IsLiteral literal)
      (padded : List.Forall₂ Padded literals parts) :
      ArgumentForm (join [','] parts) ⟨.word, literals.length, literals⟩
  | string (body characters arguments : Text) (unescaped : Unescaped body characters)
      (ascii : ∀ c ∈ body, c.toNat < 128) (padded : Padded ('\"' :: body ++ ['\"']) arguments) :
      ArgumentForm arguments
        ⟨.string, characters.length + 1, characters.map (fun c => [c]) ++ [[Char.ofNat 0]]⟩
  | space (digits arguments : Text) (some : digits ≠ [])
      (numeral : ∀ c ∈ digits, c.isDigit = true) (small : Nat.ofDigitChars 10 digits 0 < 2 ^ 64)
      (padded : Padded digits arguments) :
      ArgumentForm arguments ⟨.space, Nat.ofDigitChars 10 digits 0, []⟩

/-- A directive: its name, white space and its arguments. -/
inductive DirectiveForm : Text → DataRecord → Prop
  | named (c : Char) (arguments : Text) (record : DataRecord) (blank : isSpace c = true)
      (form : ArgumentForm arguments record) :
      DirectiveForm (record.name.text ++ c :: arguments) record

/-- A text up to its first colon gives a name; the rest stands behind the colon. -/
structure Labelled (text name rest : Text) : Prop where
  undotted : text.head? ≠ some '.'
  nonempty : name ≠ []
  solid : ∀ c ∈ name, isSpace c = false
  split : ∃ front, ':' ∉ front ∧ Padded name front ∧ text = front ++ ':' :: rest

/-- A line of data, with the label it defines and the record it gives. -/
inductive DataForm : Text → Option Text → Option DataRecord → Prop
  | marker : DataForm bssMarker none none
  | directive (text : Text) (record : DataRecord) (form : DirectiveForm text record) :
      DataForm text none (some record)
  | label (text name rest : Text) (labelled : Labelled text name rest) (blank : Blank rest) :
      DataForm text (some name) none
  | labelled (text name rest directive : Text) (record : DataRecord)
      (labelled : Labelled text name rest) (padded : Padded directive rest)
      (form : DirectiveForm directive record) :
      DataForm text (some name) (some record)

/-- Lines of data and the records of all of them. -/
inductive DataLines : List Line → List DataRecord → Prop
  | nil : DataLines [] []
  | cons (line : Line) (rest : List Line) (label : Option Text) (record : Option DataRecord)
      (records : List DataRecord) (form : DataForm line.code label record)
      (later : DataLines rest records) :
      DataLines (line :: rest) (record.toList ++ records)

theorem storedBytes_append (first second : List DataRecord) :
    storedBytes (first ++ second) = storedBytes first + storedBytes second := by
  rw [storedBytes, List.map_append, List.sum_append]
  rfl

/-! Arguments. -/

theorem solid_quoted (body : Text) : Solid ('\"' :: body ++ ['\"']) :=
  solid_enclosed '\"' '\"' body (by decide) (by decide)

namespace Directive

/-- The record that a directive adds to the data stream. -/
def record : Directive → DataRecord
  | .word values => ⟨.word, values.length, values⟩
  | .string characters =>
      ⟨.string, characters.length + 1, characters.map (fun c => [c]) ++ [[Char.ofNat 0]]⟩
  | .space size => ⟨.space, size, []⟩

theorem storedBytes_record (directive : Directive) :
    storedBytes [directive.record] = directive.size := by
  cases directive <;> rfl

def parseArguments : DirectiveName → Text → Except SourceError Directive
  | .word => parseWords
  | .string => parseString
  | .space => parseSpace

theorem parseWords_ok_iff (arguments : Text) (directive : Directive) :
    parseWords arguments = .ok directive ↔
      (∀ value ∈ (arguments.splitOnP (· = ',')).map trim, IsLiteral value) ∧
        directive = .word ((arguments.splitOnP (· = ',')).map trim) := by
  simp only [parseWords, bind_ok_iff, pure_ok_iff]
  constructor
  · rintro ⟨checked, all, rfl⟩
    refine ⟨fun value member => ?_, rfl⟩
    obtain ⟨bits, read⟩ := mapM_ok_mem _ _ checked all value member
    exact (twosComplement_isLiteral value).mp ⟨bits, (asSource_ok_iff _ bits).mp read⟩
  · rintro ⟨valid, rfl⟩
    obtain ⟨checked, all⟩ := mapM_ok_of_mem
      (fun value => asSource (Literal.twosComplement value))
      ((arguments.splitOnP (· = ',')).map trim) fun value member => by
        obtain ⟨bits, read⟩ := (twosComplement_isLiteral value).mpr (valid value member)
        exact ⟨bits, (asSource_ok_iff _ bits).mpr read⟩
    exact ⟨checked, all, rfl⟩

theorem unescape_ok (body characters : Text) (read : unescape body = .ok characters) :
    Unescaped body characters := by
  fun_induction unescape body generalizing characters with
  | case1 =>
      cases read
      exact .done
  | case2 => cases read
  | case3 rest ih =>
      simp only [bind_ok_iff, pure_ok_iff] at read
      obtain ⟨tail, later, rfl⟩ := read
      exact .newline rest tail (ih tail later)
  | case4 => cases read
  | case5 c rest lone escape other ih =>
      simp only [bind_ok_iff, pure_ok_iff] at read
      obtain ⟨tail, later, rfl⟩ := read
      -- A backslash with something behind it is an earlier case.
      have ordinary : c ≠ '\\' := by
        rintro rfl
        cases rest with
        | nil => exact lone rfl rfl
        | cons next rest => exact other next rest rfl rfl
      exact .plain c rest tail ordinary (ih tail later)

theorem unescape_complete (body characters : Text) (unescaped : Unescaped body characters) :
    unescape body = .ok characters := by
  induction unescaped with
  | done => rfl
  | newline body characters _ ih => rw [unescape, ih]; rfl
  | plain c body characters ordinary _ ih =>
      rw [unescape, ih]
      · rfl
      · simp [ordinary]
      · simp [ordinary]
      · simp [ordinary]

/-- An escape and what it stands for are both ASCII. -/
theorem unescaped_ascii (body characters : Text) (unescaped : Unescaped body characters) :
    (∀ c ∈ characters, c.toNat < 128) ↔ ∀ c ∈ body, c.toNat < 128 := by
  induction unescaped with
  | done => rfl
  | newline body characters _ ih => simp [ih]
  | plain c body characters _ _ ih => simp [ih]

theorem stringBody_some_iff (arguments body : Text) :
    stringBody? arguments = some body ↔ arguments = '\"' :: body ++ ['\"'] := by
  rw [stringBody?, Option.bind_eq_some_iff]
  simp only [dropFirst_some_iff, dropLast_some_iff]
  constructor
  · rintro ⟨_, rfl, rfl⟩
    rfl
  · rintro rfl
    exact ⟨_, rfl, rfl⟩

theorem parseString_ok_iff (arguments : Text) (directive : Directive) :
    parseString arguments = .ok directive ↔
      ∃ body characters, arguments = '\"' :: body ++ ['\"'] ∧ Unescaped body characters ∧
        (∀ c ∈ body, c.toNat < 128) ∧ directive = .string characters := by
  have checked (characters : Text) :
      characters.all isAscii = true ↔ ∀ c ∈ characters, c.toNat < 128 := by
    simp [List.all_eq_true, isAscii]
  unfold parseString
  constructor
  · intro parsed
    split at parsed
    · cases parsed
    · rename_i body quoted
      rw [bind_ok_iff] at parsed
      obtain ⟨characters, read, rest⟩ := parsed
      have unescaped := unescape_ok body characters read
      split at rest
      · rename_i ascii
        cases rest
        exact ⟨body, characters, (stringBody_some_iff arguments body).mp quoted, unescaped,
          (unescaped_ascii _ _ unescaped).mp ((checked characters).mp ascii), rfl⟩
      · cases rest
  · rintro ⟨body, characters, quoted, unescaped, ascii, rfl⟩
    rw [(stringBody_some_iff arguments body).mpr quoted]
    dsimp only
    rw [unescape_complete body characters unescaped]
    exact if_pos ((checked characters).mpr ((unescaped_ascii _ _ unescaped).mpr ascii))

theorem parseSpace_ok_iff (arguments : Text) (directive : Directive) :
    parseSpace arguments = .ok directive ↔
      arguments ≠ [] ∧ (∀ c ∈ arguments, c.isDigit = true) ∧
        Nat.ofDigitChars 10 arguments 0 < 2 ^ 64 ∧
        directive = .space (Nat.ofDigitChars 10 arguments 0) := by
  have power : UInt64.size = 2 ^ 64 := rfl
  unfold parseSpace
  constructor
  · intro parsed
    split at parsed
    · rename_i size found
      cases parsed
      obtain ⟨read, small⟩ := Option.filter_eq_some_iff.mp found
      obtain ⟨some, digits, rfl⟩ := (natural_ten_iff arguments size).mp read
      exact ⟨some, digits, by simpa [power] using small, rfl⟩
    · cases parsed
  · rintro ⟨some, digits, small, rfl⟩
    have read := (natural_ten_iff arguments _).mpr ⟨some, digits, rfl⟩
    have found : (natural? 10 arguments).filter (· < UInt64.size) =
        Option.some (Nat.ofDigitChars 10 arguments 0) :=
      Option.filter_eq_some_iff.mpr ⟨read, by simpa [power] using small⟩
    rw [found]

theorem literal_between_commas (literal : Text) (valid : IsLiteral literal) :
    Solid literal ∧ ',' ∉ literal := by
  obtain ⟨number, value⟩ := valid
  have token := Literal.value_isToken literal number value
  exact ⟨token.solid, fun member => absurd (token.spelled _ member) (by decide)⟩

theorem splitOnP_padded (literals parts : List Text) (some : literals ≠ [])
    (valid : ∀ literal ∈ literals, IsLiteral literal)
    (padded : List.Forall₂ Padded literals parts) :
    ((trim (join [','] parts)).splitOnP (· = ',')).map trim = literals := by
  obtain ⟨plain, trimmed⟩ := padded_parts literals parts
    (fun literal member => literal_between_commas literal (valid literal member)) padded
  have nonempty : parts ≠ [] := by
    rintro rfl
    exact some trimmed.symm
  rw [map_trim_splitOnP (· = ',') comma_solid]
  exact (congrArg _ (List.splitOn_intercalate ',' plain nonempty)).trans trimmed

theorem argumentForm_iff (arguments : Text) (record : DataRecord) :
    ArgumentForm arguments record ↔
      ∃ directive, parseArguments record.name (trim arguments) = .ok directive ∧
        directive.record = record := by
  constructor
  · intro form
    cases form with
    | word literals parts some valid padded =>
        have values := splitOnP_padded literals parts some valid padded
        refine ⟨.word literals, (parseWords_ok_iff _ _).mpr ?_, rfl⟩
        rw [values]
        exact ⟨valid, rfl⟩
    | string body characters _ unescaped ascii padded =>
        refine ⟨.string characters, (parseString_ok_iff _ _).mpr ?_, rfl⟩
        exact ⟨body, characters, padded.trim_eq (solid_quoted body), unescaped, ascii, rfl⟩
    | space digits _ some numeral small padded =>
        have token := natural_isToken 10 _ digits
          ((natural_ten_iff digits _).mpr ⟨some, numeral, rfl⟩)
        refine ⟨.space (Nat.ofDigitChars 10 digits 0), (parseSpace_ok_iff _ _).mpr ?_, rfl⟩
        rw [padded.trim_eq token.solid]
        exact ⟨some, numeral, small, rfl⟩
  · rintro ⟨directive, parsed, rfl⟩
    cases directive with
    | word values =>
        obtain ⟨valid, same⟩ := (parseWords_ok_iff _ _).mp parsed
        rw [map_trim_splitOnP (· = ',') comma_solid] at valid same
        cases same
        have form := ArgumentForm.word _ (arguments.splitOnP (· = ','))
          (by simp [List.splitOnP_ne_nil]) valid
          (List.forall₂_map_left_iff.mpr (List.forall₂_same.mpr fun part _ => padded_trim part))
        have whole : join [','] (arguments.splitOnP (· = ',')) = arguments :=
          List.intercalate_splitOn ','
        rwa [whole] at form
    | string characters =>
        obtain ⟨body, _, quoted, unescaped, ascii, same⟩ := (parseString_ok_iff _ _).mp parsed
        cases same
        exact .string body characters arguments unescaped ascii (quoted ▸ padded_trim arguments)
    | space size =>
        obtain ⟨some, numeral, small, same⟩ := (parseSpace_ok_iff _ _).mp parsed
        cases same
        exact .space _ arguments some numeral small (padded_trim arguments)

theorem parseArguments_name (name : DirectiveName) (arguments : Text) (directive : Directive)
    (parsed : parseArguments name arguments = .ok directive) : directive.record.name = name := by
  cases name with
  | word =>
      obtain ⟨-, rfl⟩ := (parseWords_ok_iff _ _).mp parsed
      rfl
  | string =>
      obtain ⟨_, _, -, -, -, rfl⟩ := (parseString_ok_iff _ _).mp parsed
      rfl
  | space =>
      obtain ⟨-, -, -, rfl⟩ := (parseSpace_ok_iff _ _).mp parsed
      rfl

/-! Directives. -/

theorem name_free (name : DirectiveName) : ∀ c ∈ name.text, isSpace c = false := by
  have table : name.text.all (!isSpace ·) = true := by cases name <;> rfl
  intro c member
  simpa using List.all_eq_true.mp table c member

theorem splitArguments_named (name : DirectiveName) (c : Char) (arguments : Text)
    (blank : isSpace c = true) :
    splitArguments (name.text ++ c :: arguments) = (name.text, trim arguments) := by
  rw [splitArguments, cut_append isSpace name.text arguments c (name_free name) blank]

theorem parse_named (name : DirectiveName) (arguments text : Text)
    (split : splitArguments text = (name.text, arguments)) :
    parse text = parseArguments name arguments := by
  unfold parse
  rw [split]
  cases name <;> rfl

/-- No directive can do without arguments. -/
theorem parseArguments_nil (name : DirectiveName) (directive : Directive) :
    parseArguments name [] ≠ .ok directive := by
  intro parsed
  cases name <;> cases parsed

theorem parse_ok_iff (text : Text) (directive : Directive) :
    parse text = .ok directive ↔
      ∃ name c arguments, isSpace c = true ∧ text = name.text ++ c :: arguments ∧
        parseArguments name (trim arguments) = .ok directive := by
  constructor
  · intro parsed
    have named : ∃ name : DirectiveName, (splitArguments text).1 = name.text := by
      unfold parse at parsed
      dsimp only at parsed
      split at parsed
      · exact ⟨.word, by assumption⟩
      · split at parsed
        · exact ⟨.string, by assumption⟩
        · split at parsed
          · exact ⟨.space, by assumption⟩
          · cases parsed
    obtain ⟨name, first⟩ := named
    have read := parse_named name (splitArguments text).2 text (Prod.ext first rfl)
    rw [parsed] at read
    unfold splitArguments at first read
    cases found : cut isSpace text with
    | none =>
        rw [found] at read
        exact absurd read.symm (parseArguments_nil name directive)
    | some parts =>
        rw [found] at first read
        obtain ⟨c, blank, -, whole⟩ := cut_some isSpace text parts.1 parts.2 found
        exact ⟨name, c, parts.2, blank, by rw [whole, ← first], read.symm⟩
  · rintro ⟨name, c, arguments, blank, rfl, read⟩
    rw [parse_named name _ _ (splitArguments_named name c arguments blank), read]

theorem directiveForm_iff (text : Text) (record : DataRecord) :
    DirectiveForm text record ↔
      ∃ directive, parse text = .ok directive ∧ directive.record = record := by
  constructor
  · rintro ⟨c, arguments, _, blank, form⟩
    obtain ⟨directive, read, same⟩ := (argumentForm_iff arguments record).mp form
    exact ⟨directive, (parse_ok_iff _ directive).mpr ⟨_, c, arguments, blank, rfl, read⟩, same⟩
  · rintro ⟨directive, parsed, rfl⟩
    obtain ⟨name, c, arguments, blank, rfl, read⟩ := (parse_ok_iff text directive).mp parsed
    obtain rfl := parseArguments_name name _ directive read
    exact .named c arguments _ blank ((argumentForm_iff arguments _).mpr ⟨directive, read, rfl⟩)

/-- White space behind a directive changes nothing. -/
theorem parse_trim (text : Text) (directive : Directive) (parsed : parse text = .ok directive) :
    parse (trim text) = .ok directive := by
  obtain ⟨name, c, arguments, blank, rfl, read⟩ := (parse_ok_iff text directive).mp parsed
  have some : trim arguments ≠ [] := by
    intro none
    rw [none] at read
    exact parseArguments_nil name directive read
  -- Only the white space behind the arguments goes; the name in front begins with a dot.
  obtain ⟨front, back, padding, parts⟩ := trim_parts arguments
  have head : Solid name.text ∧ name.text ≠ [] :=
    ⟨solid_of_free _ (name_free name), by cases name <;> decide⟩
  have whole : name.text ++ c :: arguments =
      [] ++ (name.text ++ (c :: front) ++ trim arguments) ++ back := by
    conv => lhs; rw [parts]
    simp
  have trimmed : trim (name.text ++ c :: arguments) =
      name.text ++ c :: (front ++ trim arguments) := by
    rw [whole, trim_padded [] _ back ⟨fun _ => nofun, padding.2⟩
      (solid_append _ _ _ ⟨head.2, some⟩ ⟨head.1, trim_solid_ends arguments⟩)]
    simp
  have again : trim (front ++ trim arguments) = trim arguments := by
    have core := trim_padded front (trim arguments) [] ⟨padding.1, fun _ => nofun⟩
      (trim_solid_ends arguments)
    rwa [List.append_nil] at core
  rw [trimmed, parse_named name _ _ (splitArguments_named name c _ blank), again, read]

theorem directiveForm_head (text : Text) (record : DataRecord)
    (form : DirectiveForm text record) : text.head? = some '.' := by
  obtain ⟨c, arguments, ⟨name, _, _⟩, -, -⟩ := form
  cases name <;> rfl

end Directive

/-! Lines. -/

/-- A label is a name in front of a colon at the end; it has no white space in it and does not
end in a colon itself. -/
theorem parseLabel_front (front : Text) (label : Option Text) :
    parseLabel (front ++ [':']) = .ok label ↔
      ∃ name, label = some name ∧ name ≠ [] ∧ name.getLast? ≠ some ':' ∧
        (∀ c ∈ name, isSpace c = false) ∧ Padded name front := by
  have body : dropLast? ':' (front ++ [':']) = some front := (dropLast_some_iff _ _ _).mpr rfl
  unfold parseLabel
  rw [body]
  dsimp only
  constructor
  · intro read
    split at read
    · cases read
    · rename_i valid
      cases read
      simp only [Bool.or_eq_true, not_or, List.isEmpty_iff, List.any_eq_true, not_exists,
        not_and, Bool.not_eq_true, decide_eq_true_eq] at valid
      exact ⟨trim front, rfl, valid.1.1, valid.1.2, valid.2, padded_trim front⟩
  · rintro ⟨name, rfl, some, colon, solid, padded⟩
    rw [padded.trim_eq (solid_of_free name solid), if_neg]
    simp only [Bool.or_eq_true, not_or, List.isEmpty_iff, List.any_eq_true, not_exists,
      not_and, Bool.not_eq_true, decide_eq_true_eq]
    exact ⟨⟨some, colon⟩, solid⟩

theorem parseLabel_colon (front : Text) (label : Option Text) (plain : ':' ∉ front) :
    parseLabel (front ++ [':']) = .ok label ↔
      ∃ name, label = some name ∧ name ≠ [] ∧ (∀ c ∈ name, isSpace c = false) ∧
        Padded name front := by
  rw [parseLabel_front]
  constructor
  · rintro ⟨name, same, some, -, solid, padded⟩
    exact ⟨name, same, some, solid, padded⟩
  · rintro ⟨name, same, some, solid, padded⟩
    refine ⟨name, same, some, ?_, solid, padded⟩
    intro last
    obtain ⟨_, _, -, rfl⟩ := padded
    exact plain (List.mem_append_left _ (List.mem_append_right _ (List.mem_of_getLast? last)))

namespace DataEntry

theorem parse_dotted (code : Text) (other : code ≠ bssMarker) (dotted : code.head? = some '.') :
    parse code = (do
      let directive ← Directive.parse code
      return ⟨none, some directive⟩) := by
  rw [parse, if_neg other, if_pos dotted]

theorem parse_colon (front rest : Text) (plain : ':' ∉ front)
    (undotted : (front ++ ':' :: rest).head? ≠ some '.') :
    parse (front ++ ':' :: rest) = (do
      let label ← parseLabel (front ++ [':'])
      if (trim rest).isEmpty then return ⟨label, none⟩
      else
        let directive ← Directive.parse (trim rest)
        return ⟨label, some directive⟩) := by
  have other : front ++ ':' :: rest ≠ bssMarker := by
    intro same
    rw [same] at undotted
    exact undotted rfl
  have free := free_of_not_mem ':' front plain
  rw [parse, if_neg other, if_neg undotted, cut_append (· = ':') front rest ':' free (by decide)]

theorem parse_labelled (text name rest : Text) (labelled : Labelled text name rest) :
    parse text = if (trim rest).isEmpty then .ok ⟨some name, none⟩
      else do
        let directive ← Directive.parse (trim rest)
        return ⟨some name, some directive⟩ := by
  obtain ⟨undotted, some, solid, front, plain, padded, rfl⟩ := labelled
  have label := (parseLabel_colon front _ plain).mpr ⟨name, rfl, some, solid, padded⟩
  rw [parse_colon front rest plain undotted, label]
  rfl

def record (entry : DataEntry) : Option DataRecord := entry.directive.map Directive.record

theorem parse_of_form (code : Text) (label : Option Text) (record : Option DataRecord)
    (form : DataForm code label record) :
    ∃ entry, parse code = .ok entry ∧ entry.label = label ∧ entry.record = record := by
  cases form with
  | marker => exact ⟨⟨none, none⟩, if_pos rfl, rfl, rfl⟩
  | directive _ record form =>
      obtain ⟨directive, parsed, rfl⟩ := (Directive.directiveForm_iff code record).mp form
      have other : code ≠ bssMarker := by
        rintro rfl
        cases parsed
      refine ⟨⟨none, some directive⟩, ?_, rfl, rfl⟩
      rw [parse_dotted code other (Directive.directiveForm_head code _ form), parsed]
      rfl
  | label _ name rest labelled blank =>
      refine ⟨⟨some name, none⟩, ?_, rfl, rfl⟩
      rw [parse_labelled code name rest labelled, (trim_eq_nil_iff rest).mpr blank]
      rfl
  | labelled _ name rest text record labelled padded form =>
      obtain ⟨directive, parsed, rfl⟩ := (Directive.directiveForm_iff text record).mp form
      have read := Directive.parse_trim text directive parsed
      rw [← padded.trim_trim] at read
      have present : ¬ (trim rest).isEmpty = true := by
        intro absent
        rw [List.isEmpty_iff.mp absent] at read
        cases read
      refine ⟨⟨some name, some directive⟩, ?_, rfl, rfl⟩
      rw [parse_labelled code name rest labelled, if_neg present, read]
      rfl

theorem form_of_parse (code : Text) (entry : DataEntry) (parsed : parse code = .ok entry) :
    DataForm code entry.label entry.record := by
  by_cases marker : code = bssMarker
  · rw [marker, parse, if_pos rfl] at parsed
    cases parsed
    exact marker ▸ .marker
  by_cases dotted : code.head? = some '.'
  · rw [parse_dotted code marker dotted, bind_ok_iff] at parsed
    obtain ⟨directive, read, same⟩ := parsed
    cases same
    exact .directive code _ ((Directive.directiveForm_iff _ _).mpr ⟨directive, read, rfl⟩)
  cases found : cut (· = ':') code with
  | none =>
      rw [parse, if_neg marker, if_neg dotted, found] at parsed
      cases parsed
  | some parts =>
      -- The cut is at the first colon, so the text before it has none.
      obtain ⟨c, colon, free, whole⟩ := cut_some (· = ':') code parts.1 parts.2 found
      obtain rfl : c = ':' := of_decide_eq_true colon
      have plain : ':' ∉ parts.1 := fun member => absurd (free _ member) (by decide)
      rw [whole] at dotted
      rw [whole, parse_colon parts.1 parts.2 plain dotted, bind_ok_iff] at parsed
      obtain ⟨label, read, rest⟩ := parsed
      obtain ⟨name, rfl, present, solid, padded⟩ := (parseLabel_colon parts.1 label plain).mp read
      have labelled : Labelled code name parts.2 :=
        ⟨whole ▸ dotted, present, solid, parts.1, plain, padded, whole⟩
      by_cases alone : (trim parts.2).isEmpty = true
      · rw [if_pos alone] at rest
        cases rest
        exact .label code name parts.2 labelled
          ((trim_eq_nil_iff parts.2).mp (List.isEmpty_iff.mp alone))
      · rw [if_neg alone, bind_ok_iff] at rest
        obtain ⟨directive, parsed, same⟩ := rest
        cases same
        exact .labelled code name parts.2 (trim parts.2) _ labelled (padded_trim parts.2)
          ((Directive.directiveForm_iff _ _).mpr ⟨directive, parsed, rfl⟩)

/-- A line is read exactly if it has a form, with the label and the record of the form. -/
theorem dataForm_iff (code : Text) (label : Option Text) (record : Option DataRecord) :
    DataForm code label record ↔
      ∃ entry, parse code = .ok entry ∧ entry.label = label ∧ entry.record = record := by
  constructor
  · exact parse_of_form code label record
  · rintro ⟨entry, parsed, rfl, rfl⟩
    exact form_of_parse code entry parsed

/-- Where the check of the offset passes, nothing wraps. -/
theorem advance_ok (entry : DataEntry) (offset next : UInt64)
    (advanced : entry.advance offset = .ok next) :
    next.toNat = offset.toNat + storedBytes entry.record.toList := by
  unfold advance at advanced
  unfold record
  split at advanced
  · rename_i none
    cases advanced
    rw [none]
    rfl
  · rename_i directive some
    split at advanced
    · rename_i inside
      cases advanced
      have power : UInt64.size = 2 ^ 64 := rfl
      rw [power] at inside
      rw [some, Option.map_some, Option.toList_some, directive.storedBytes_record,
        UInt64.toNat_add, UInt64.toNat_ofNat', Nat.add_mod_mod, Nat.mod_eq_of_lt inside]
    · cases advanced

theorem advance_fits (entry : DataEntry) (offset : UInt64)
    (fits : offset.toNat + storedBytes entry.record.toList < 2 ^ 64) :
    ∃ next, entry.advance offset = .ok next := by
  unfold record at fits
  unfold advance
  cases present : entry.directive with
  | none => exact ⟨offset, rfl⟩
  | some directive =>
      rw [present, Option.map_some, Option.toList_some, Directive.storedBytes_record] at fits
      exact ⟨_, if_pos fits⟩

theorem advance_error (entry : DataEntry) (offset : UInt64) (cause : SourceError)
    (failed : entry.advance offset = .error cause) :
    2 ^ 64 ≤ offset.toNat + storedBytes entry.record.toList ∧
      ∃ directive, cause = .dataOverflow directive := by
  constructor
  · by_contra small
    obtain ⟨next, advanced⟩ := entry.advance_fits offset (Nat.lt_of_not_le small)
    rw [advanced] at failed
    cases failed
  · unfold advance at failed
    split at failed
    · cases failed
    · split at failed
      · cases failed
      · cases failed
        exact ⟨_, rfl⟩

end DataEntry

theorem dataLayoutFrom_cons (offset : UInt64) (line : Line) (rest : List Line)
    (layout : DataLayout) (laid : dataLayoutFrom offset (line :: rest) = .ok layout) :
    ∃ entry next tail, DataEntry.parse line.code = .ok entry ∧
      entry.advance offset = .ok next ∧ dataLayoutFrom next rest = .ok tail ∧
      layout = ⟨entry.definitions line.number offset ++ tail.definitions,
        entry.values ++ tail.values, tail.size⟩ := by
  simp only [dataLayoutFrom, bind_ok_iff, pure_ok_iff, onLine_ok_iff] at laid
  obtain ⟨entry, parsed, next, advanced, tail, later, rfl⟩ := laid
  exact ⟨entry, next, tail, parsed, advanced, later, rfl⟩

end RiscAssembly
