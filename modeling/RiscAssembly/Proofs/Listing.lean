import Mathlib.Data.List.Nodup
import RiscAssembly.Command.Standard
import RiscAssembly.Proofs.DataStream
import RiscAssembly.Proofs.Layout
import RiscAssembly.Proofs.LiteralGrammar
import RiscAssembly.Proofs.Reassembly
import RiscAssembly.Proofs.Redefinition

/-!
The listing against the words of the program. While the code fits in 2^32 bytes, the lines
between the two rules are those of the words, in order, each with its address and the line of
the instruction it comes from, and in front of the word at an address stand the labels that
have it. Labels are at the start of an instruction or behind the last one, so that every label
has its line except those behind the last instruction. All of this is so in any styling.
-/

namespace RiscAssembly

open Text SymbolTable

/-- The words of a program, each with the instruction that it is made for. -/
def Program.origins (program : Program) : List (Instruction × Word) :=
  program.instructions.flatMap fun instruction =>
    (instruction.emit.toOption.getD []).map (instruction, ·)

def Program.declaredBytes (program : Program) : Nat :=
  (program.instructions.map Instruction.size).sum

section Format

variable (styling : Styling)

/-- The line for a label: its name in green, under the texts of the instructions. -/
def labelLine (symbol : Symbol UInt32) : Text :=
  List.replicate 12 ' ' ++ "| ".toList ++ List.replicate 32 ' ' ++ " | ".toList
    ++ styling.opening [.green] ++ symbol.name ++ ":".toList ++ styling.closing [.green]

/-- The lines for the labels at an address, in the order of the table. -/
def Program.labelLines (program : Program) (address : Nat) : List Text :=
  (program.codeSymbols.symbols.filter fun symbol => symbol.address.toNat = address).map
    (labelLine styling)

/-- A line that shows a word, its address and a number of a line. -/
inductive WordLine (address : Nat) (word : Word) (line : Nat) : Text → Prop
  | shown (digits style rest : Text) (blanks : Nat) (wide : 8 ≤ digits.length)
      (capital : ∀ c ∈ digits, c ∈ "0123456789ABCDEF".toList)
      (numeral : IsNumeral 16 digits address)
      (dimmed : style = [] ∨ style = styling.opening [.dim]) :
      WordLine address word line ("[".toList ++ digits ++ "]  | ".toList ++ word ++ " | ".toList
        ++ style ++ List.replicate blanks ' ' ++ decimal line ++ ":   ".toList ++ rest)

/-- What stands between the rules of a listing, and which of it the words are. -/
structure Program.Lists (program : Program) (words listed : List Text) : Prop where
  made : program.origins.map Prod.snd = program.machineWords
  shown : List.Forall₂ (fun place => WordLine styling (4 * place.2) place.1.2 place.1.1.line)
    program.origins.zipIdx words
  labelled : listed = words.zipIdx.flatMap fun place =>
    program.labelLines styling (4 * place.2) ++ [place.1]
  once : ∀ symbol ∈ program.codeSymbols.symbols,
    symbol.address.toNat < program.declaredBytes → listed.count (labelLine styling symbol) = 1
  omitted : ∀ symbol ∈ program.codeSymbols.symbols,
    labelLine styling symbol ∉ listed ↔ symbol.address.toNat = program.declaredBytes

end Format

/-! Addresses. -/

theorem IsNumeral.concat {base : Nat} {digits : Text} {number : Nat}
    (numeral : IsNumeral base digits number) (c : Char) (value : Nat)
    (digit : IsDigitOf base c value) : IsNumeral base (digits ++ [c]) (base * number + value) := by
  obtain ⟨-, values, each, rfl⟩ := numeral
  refine ⟨by simp, values ++ [value], List.rel_append each (.cons digit .nil), ?_⟩
  rw [List.reverse_append, List.reverse_singleton, List.singleton_append, Nat.ofDigits_cons]
  exact Nat.add_comm _ _

theorem IsNumeral.padStart {base : Nat} {digits : Text} {number : Nat}
    (numeral : IsNumeral base digits number) (positive : 0 < base) (width : Nat) :
    IsNumeral base (padStart width '0' digits) number := by
  obtain ⟨some, values, each, rfl⟩ := numeral
  have zero : IsDigitOf base '0' 0 := ⟨positive, List.mem_singleton.mpr rfl⟩
  refine ⟨by simp [Text.padStart, some], List.replicate (width - digits.length) 0 ++ values, ?_, ?_⟩
  · apply List.rel_append _ each
    exact List.forall₂_iff_get.mpr ⟨by simp, by simpa using fun _ _ => zero⟩
  · rw [List.reverse_append, List.reverse_replicate, Nat.ofDigits_append_replicate_zero]

/-- The digits that are written for a number are those of its remainders. -/
theorem mem_toDigits (n : Nat) (c : Char) (member : c ∈ Nat.toDigits 16 n) :
    ∃ digit < 16, c = Nat.digitChar digit := by
  induction n using Nat.strongRecOn with
  | ind n ih =>
      rw [Nat.toDigits_eq_if (by decide)] at member
      by_cases small : n < 16
      · rw [if_pos small, List.mem_singleton] at member
        exact ⟨n, small, member⟩
      · rw [if_neg small, List.mem_append, List.mem_singleton] at member
        rcases member with before | last
        · exact ih (n / 16) (by omega) before
        · exact ⟨n % 16, by omega, last⟩

theorem upper_digit (digit : Nat) (small : digit < 16) :
    IsDigitOf 16 (Nat.digitChar digit).toUpper digit ∧
      (Nat.digitChar digit).toUpper ∈ "0123456789ABCDEF".toList := by
  have table : ((List.range 16).all fun digit =>
      (digitCharacters.getD digit []).contains (Nat.digitChar digit).toUpper &&
        "0123456789ABCDEF".toList.contains (Nat.digitChar digit).toUpper) = true := by decide
  have row := List.all_eq_true.mp table digit (List.mem_range.mpr small)
  rw [Bool.and_eq_true, List.contains_iff_mem, List.contains_iff_mem] at row
  exact ⟨⟨small, row.1⟩, row.2⟩

theorem toDigits_numeral (n : Nat) : IsNumeral 16 ((Nat.toDigits 16 n).map Char.toUpper) n := by
  induction n using Nat.strongRecOn with
  | ind n ih =>
      rw [Nat.toDigits_eq_if (by decide)]
      by_cases small : n < 16
      · rw [if_pos small]
        refine ⟨by simp, [n], .cons (upper_digit n small).1 .nil, ?_⟩
        simp
      · rw [if_neg small, List.map_append, List.map_singleton]
        have digit := (upper_digit (n % 16) (by omega)).1
        have numeral := (ih (n / 16) (by omega)).concat _ _ digit
        rwa [Nat.div_add_mod] at numeral

theorem hexadecimal_numeral (width n : Nat) : IsNumeral 16 (hexadecimal width n) n :=
  (toDigits_numeral n).padStart (by decide) width

theorem hexadecimal_capital (width n : Nat) (c : Char) (member : c ∈ hexadecimal width n) :
    c ∈ "0123456789ABCDEF".toList := by
  rw [hexadecimal, padStart, List.mem_append] at member
  rcases member with zero | digit
  · rw [List.eq_of_mem_replicate zero]
    exact List.mem_cons_self
  · obtain ⟨lower, inDigits, rfl⟩ := List.mem_map.mp digit
    obtain ⟨value, small, rfl⟩ := mem_toDigits n lower inDigits
    exact (upper_digit value small).2

theorem hexadecimal_wide (width n : Nat) : width ≤ (hexadecimal width n).length := by
  rw [hexadecimal, padStart, List.length_append, List.length_replicate]
  omega

theorem render_wordLine (styling : Styling) (address : Nat) (bits : Word) (line : Nat)
    (tokens : Option (List Text)) :
    WordLine styling address bits line
      ((ListingRow.word address bits line tokens).render styling) := by
  have lines (style rest : Text) := @WordLine.shown styling address bits line
    (hexadecimal 8 address) style rest (4 - (decimal line).length) (hexadecimal_wide 8 address)
    (hexadecimal_capital 8 address) (hexadecimal_numeral 8 address)
  cases tokens with
  | some tokens =>
      have shown := lines [] (tokensColumn styling tokens) (.inl rfl)
      simpa [ListingRow.render, lineColumn, Text.padStart] using shown
  | none =>
      have shown := lines _ ("..".toList ++ styling.closing [.dim]) (.inr rfl)
      simpa [ListingRow.render, lineColumn, Text.padStart, Styling.styled] using shown

/-! Words. -/

/-- A row for a word at some place in the program. -/
def WordRow (place : (Instruction × Word) × Nat) (row : ListingRow) : Prop :=
  ∃ tokens, (tokens = none ∨ tokens = some place.1.1.tokens) ∧
    row = .word (4 * place.2) place.1.2 place.1.1.line tokens

/-- Shares of words one behind the other, with each instruction at the address of its first
word. -/
def AtWords : Nat → List (Instruction × List Word) → Prop
  | _, [] => True
  | start, share :: rest =>
      share.1.address.toNat = 4 * start ∧ share.2 ≠ [] ∧ AtWords (start + share.2.length) rest

theorem atWords_zip (start : Nat) (instructions : List Instruction) (groups : List (List Word))
    (filled : List.Forall₂ Instruction.Filled instructions groups)
    (placed : Consecutive (UInt32.ofNat (4 * start)) instructions)
    (fits : 4 * (start + groups.flatten.length) ≤ 2 ^ 32) :
    AtWords start (instructions.zip groups) := by
  induction filled generalizing start with
  | nil => trivial
  | @cons instruction group _ _ first _ ih =>
      obtain ⟨here, -, tail⟩ := placed
      obtain ⟨-, -, some⟩ := filled_sized instruction group first
      have positive := List.length_pos_iff.mpr some
      rw [List.flatten_cons, List.length_append] at fits
      refine ⟨?_, some, ih (start + group.length) ?_ (by omega)⟩
      · -- The group has a word, so its own address is still below 2^32.
        rw [here, UInt32.toNat_ofNat', Nat.mod_eq_of_lt (by omega)]
      · rwa [Nat.mul_add, UInt32.ofNat_add, first.count]

theorem laterWordRows_shown (instruction : Instruction) (start : Nat) (words : List Word) :
    List.Forall₂ WordRow ((words.map (instruction, ·)).zipIdx start)
      (laterWordRows instruction.line (4 * start) words) := by
  induction words generalizing start with
  | nil => exact .nil
  | cons word rest ih => exact .cons ⟨none, .inl rfl, rfl⟩ (ih (start + 1))

theorem wordRows_shown (instruction : Instruction) (start : Nat) (words : List Word)
    (here : instruction.address.toNat = 4 * start) :
    List.Forall₂ WordRow ((words.map (instruction, ·)).zipIdx start)
      (wordRows instruction words) := by
  cases words with
  | nil => exact .nil
  | cons word rest =>
      rw [wordRows, here]
      exact .cons ⟨_, .inr rfl, rfl⟩ (laterWordRows_shown instruction (start + 1) rest)

theorem shares_shown (start : Nat) (shares : List (Instruction × List Word))
    (placed : AtWords start shares) :
    List.Forall₂ WordRow ((shares.flatMap fun share => share.2.map (share.1, ·)).zipIdx start)
      (shares.flatMap fun share => wordRows share.1 share.2) := by
  induction shares generalizing start with
  | nil => exact .nil
  | cons share rest ih =>
      obtain ⟨here, -, tail⟩ := placed
      rw [List.flatMap_cons, List.flatMap_cons, List.zipIdx_append, List.length_map]
      exact List.rel_append (wordRows_shown share.1 start share.2 here) (ih _ tail)

theorem origins_shares (instructions : List Instruction) (groups : List (List Word))
    (emitted : List.Forall₂ (fun instruction group => instruction.emit = .ok group)
      instructions groups) :
    (instructions.flatMap fun instruction =>
      (instruction.emit.toOption.getD []).map (instruction, ·)) =
        (instructions.zip groups).flatMap fun share => share.2.map (share.1, ·) := by
  induction emitted with
  | nil => rfl
  | cons first _ ih =>
      rw [List.flatMap_cons, List.zip_cons_cons, List.flatMap_cons, ih, first]
      rfl

/-! Labels. -/

/-- The rows of a listing that are not for labels. -/
def Program.codeRows (program : Program) : List ListingRow :=
  program.wordsByInstruction.flatMap fun share => wordRows share.1 share.2

def labelsAt (symbols : SymbolTable UInt32) (address : Nat) : List ListingRow :=
  (symbols.symbols.filter fun symbol => symbol.address.toNat = address).map fun symbol =>
    .label symbol.name

/-- Rows with the labels at their places in front of them. -/
def withLabels (symbols : SymbolTable UInt32) (rows : List (ListingRow × Nat)) :
    List ListingRow :=
  rows.flatMap fun place => labelsAt symbols (4 * place.2) ++ [place.1]

/-- A place in front of a share or behind the last one. -/
def IsBoundary (start : Nat) (shares : List (Instruction × List Word)) (place : Nat) : Prop :=
  ∃ before after, shares = before ++ after ∧ place = start + (before.flatMap Prod.snd).length

theorem labelRows_at (symbols : SymbolTable UInt32) (address : UInt32) :
    labelRows symbols address = labelsAt symbols address.toNat := by
  simp only [labelRows, labelsAt, ← UInt32.toNat_inj]

theorem withLabels_cons (symbols : SymbolTable UInt32) (row : ListingRow) (place : Nat)
    (rows : List (ListingRow × Nat)) :
    withLabels symbols ((row, place) :: rows) =
      labelsAt symbols (4 * place) ++ row :: withLabels symbols rows := by
  rw [withLabels, List.flatMap_cons, List.append_assoc, List.singleton_append, withLabels]

theorem withLabels_none (symbols : SymbolTable UInt32) (start : Nat) (rows : List ListingRow)
    (none : ∀ place, start ≤ place → place < start + rows.length →
      labelsAt symbols (4 * place) = []) :
    withLabels symbols (rows.zipIdx start) = rows := by
  induction rows generalizing start with
  | nil => rfl
  | cons row rest ih =>
      rw [List.length_cons] at none
      have later := ih (start + 1) fun place least most => none place (by omega) (by omega)
      rw [List.zipIdx_cons, withLabels_cons, later, none start (by omega) (by omega),
        List.nil_append]

theorem share_labelled (symbols : SymbolTable UInt32) (start : Nat) (instruction : Instruction)
    (words : List Word) (here : instruction.address.toNat = 4 * start) (some : words ≠ [])
    (none : ∀ place, start < place → place < start + words.length →
      labelsAt symbols (4 * place) = []) :
    labelRows symbols instruction.address ++ wordRows instruction words =
      withLabels symbols ((wordRows instruction words).zipIdx start) := by
  cases words with
  | nil => exact absurd rfl some
  | cons word rest =>
      have count := (laterWordRows_shown instruction (start + 1) rest).length_eq
      rw [List.length_zipIdx, List.length_map, Nat.mul_add_one] at count
      rw [List.length_cons] at none
      rw [wordRows, List.zipIdx_cons, withLabels_cons, labelRows_at, here]
      congr 2
      exact (withLabels_none symbols (start + 1) _ fun place least most =>
        none place least (by omega)).symm

theorem IsBoundary.cons_iff {start : Nat} {share : Instruction × List Word}
    {rest : List (Instruction × List Word)} {place : Nat} :
    IsBoundary start (share :: rest) place ↔
      place = start ∨ IsBoundary (start + share.2.length) rest place := by
  constructor
  · rintro ⟨before, after, whole, rfl⟩
    cases before with
    | nil => exact .inl rfl
    | cons first before =>
        cases whole
        refine .inr ⟨before, after, rfl, ?_⟩
        rw [List.flatMap_cons, List.length_append, Nat.add_assoc]
  · rintro (rfl | ⟨before, after, rfl, rfl⟩)
    · exact ⟨[], share :: rest, rfl, rfl⟩
    · refine ⟨share :: before, after, rfl, ?_⟩
      rw [List.flatMap_cons, List.length_append, Nat.add_assoc]

theorem IsBoundary.le {start : Nat} {shares : List (Instruction × List Word)} {place : Nat}
    (boundary : IsBoundary start shares place) : start ≤ place := by
  obtain ⟨before, after, -, rfl⟩ := boundary
  exact Nat.le_add_right _ _

/-- Labels stand in front of shares only, so none has to stand between the words of one. -/
theorem shares_labelled (symbols : SymbolTable UInt32) (start : Nat)
    (shares : List (Instruction × List Word)) (placed : AtWords start shares)
    (boundaries : ∀ place, start ≤ place → labelsAt symbols (4 * place) ≠ [] →
      IsBoundary start shares place) :
    (shares.flatMap fun share => labelRows symbols share.1.address ++ wordRows share.1 share.2) =
      withLabels symbols ((shares.flatMap fun share => wordRows share.1 share.2).zipIdx start) := by
  induction shares generalizing start with
  | nil => rfl
  | cons share rest ih =>
      obtain ⟨here, some, tail⟩ := placed
      have positive := List.length_pos_iff.mpr some
      simp only [IsBoundary.cons_iff] at boundaries
      -- Between its start and the start of the next one an instruction has no boundary.
      have none : ∀ place, start < place → place < start + share.2.length →
          labelsAt symbols (4 * place) = [] := by
        intro place least most
        by_contra labelled
        rcases boundaries place (by omega) labelled with rfl | boundary
        · omega
        · have := boundary.le
          omega
      have later := ih (start + share.2.length) tail fun place least labelled =>
        (boundaries place (by omega) labelled).resolve_left (by omega)
      have count := (wordRows_shown share.1 start share.2 here).length_eq
      rw [List.length_zipIdx, List.length_map] at count
      rw [List.flatMap_cons, List.flatMap_cons, later,
        share_labelled symbols start share.1 share.2 here some none, List.zipIdx_append, ← count]
      exact List.flatMap_append.symm

/-! Lines for labels. -/

section Count

variable (styling : Styling) (program : Program)
variable (symbol : Symbol UInt32) (member : symbol ∈ program.codeSymbols.symbols)

theorem labelLine_inj (first second : Symbol UInt32)
    (same : labelLine styling first = labelLine styling second) : first.name = second.name := by
  simpa [labelLine] using same

theorem render_label :
    (ListingRow.label symbol.name).render styling = labelLine styling symbol := by
  simp [ListingRow.render, labelLine, Styling.styled]

include member

theorem labelLines_count (address : Nat) :
    (program.labelLines styling address).count (labelLine styling symbol) =
      if symbol.address.toNat = address then 1 else 0 := by
  have unique := program.codeSymbols.unique
  have apart : ∀ first ∈ program.codeSymbols.symbols, ∀ second ∈ program.codeSymbols.symbols,
      labelLine styling first = labelLine styling second → first = second := by
    intro first inFirst second inSecond same
    exact List.inj_on_of_nodup_map unique inFirst inSecond (labelLine_inj styling _ _ same)
  have distinct := List.Nodup.map_on apart (List.Nodup.of_map _ unique)
  have shown : labelLine styling symbol ∈ program.labelLines styling address ↔
      symbol.address.toNat = address := by
    simp only [Program.labelLines, List.mem_map, List.mem_filter, decide_eq_true_eq]
    constructor
    · rintro ⟨other, ⟨listed, here⟩, same⟩
      rw [← apart other listed symbol member same, here]
    · intro here
      exact ⟨symbol, ⟨member, here⟩, rfl⟩
  have nodup : (program.labelLines styling address).Nodup :=
    distinct.sublist (List.filter_sublist.map (labelLine styling))
  simp only [nodup.count, shown]

/-- Every address comes up once, and with it the labels that have it. -/
theorem listed_count (words : List Text) (start place : Nat)
    (marked : ∀ text ∈ words, text ≠ labelLine styling symbol)
    (here : symbol.address.toNat = 4 * place) :
    ((words.zipIdx start).flatMap fun line =>
      program.labelLines styling (4 * line.2) ++ [line.1]).count (labelLine styling symbol) =
        if start ≤ place ∧ place < start + words.length then 1 else 0 := by
  induction words generalizing start with
  | nil =>
      rw [if_neg (by simp only [List.length_nil]; omega)]
      rfl
  | cons text rest ih =>
      rw [List.forall_mem_cons] at marked
      have word : [text].count (labelLine styling symbol) = 0 := by
        rw [List.count_eq_zero, List.mem_singleton]
        exact Ne.symm marked.1
      rw [List.zipIdx_cons, List.flatMap_cons, List.count_append, List.count_append, word,
        labelLines_count styling program symbol member, ih (start + 1) marked.2, here,
        List.length_cons]
      split_ifs <;> omega

end Count

theorem render_withLabels (styling : Styling) (program : Program) (rows : List ListingRow) :
    (withLabels program.codeSymbols rows.zipIdx).map (ListingRow.render styling) =
      (rows.map (ListingRow.render styling)).zipIdx.flatMap fun place =>
        program.labelLines styling (4 * place.2) ++ [place.1] := by
  simp only [withLabels, List.map_flatMap, List.zipIdx_map, List.flatMap_map, labelsAt,
    Program.labelLines, List.map_append, List.map_map, Function.comp_def, render_label]
  rfl

/-! Lines. -/

theorem unbroken_append (first second : Text) :
    Unbroken (first ++ second) ↔ Unbroken first ∧ Unbroken second := List.forall_mem_append

theorem unbroken_flatMap {Item : Type} (items : List Item) (text : Item → Text)
    (unbroken : ∀ item ∈ items, Unbroken (text item)) : Unbroken (items.flatMap text) := by
  intro c member
  obtain ⟨item, listed, inside⟩ := List.mem_flatMap.mp member
  exact unbroken item listed c inside

theorem unbroken_solid (text : Text) (solid : ∀ c ∈ text, isSpace c = false) : Unbroken text := by
  intro c member
  have other := solid c member
  constructor
  · rintro rfl
    exact absurd other (by decide)
  · rintro rfl
    exact absurd other (by decide)

theorem IsToken.unbroken {text : Text} (token : IsToken text) : Unbroken text :=
  unbroken_solid text (token.free isSpace isSpace_tokenCharacter)

theorem unbroken_decimal (n : Nat) : Unbroken (decimal n) :=
  (natural_isToken 10 n _ (natural_decimal n)).unbroken

theorem unbroken_hexadecimal (width n : Nat) : Unbroken (hexadecimal width n) := by
  have read := (natural_iff 16 (by decide) _ n).mpr (hexadecimal_numeral width n)
  exact (natural_isToken 16 n _ read).unbroken

theorem unbroken_replicate (count : Nat) : Unbroken (List.replicate count ' ') := by
  intro c member
  rw [List.eq_of_mem_replicate member]
  decide

theorem unbroken_join (separator : Text) (parts : List Text) (between : Unbroken separator)
    (unbroken : ∀ part ∈ parts, Unbroken part) : Unbroken (join separator parts) := by
  cases parts with
  | nil => exact fun _ => nofun
  | cons first rest =>
      rw [List.forall_mem_cons] at unbroken
      rw [join_cons, unbroken_append]
      exact ⟨unbroken.1, unbroken_flatMap _ _ fun part listed =>
        (unbroken_append separator part).mpr ⟨between, unbroken.2 part listed⟩⟩

theorem unbroken_visibleCharacter (c : Char) : Unbroken (visibleCharacter c) := by
  unfold visibleCharacter
  split_ifs with tab back new single double slash printable
  · decide
  · decide
  · decide
  · decide
  · decide
  · decide
  · exact List.forall_mem_singleton.mpr ⟨new, back⟩
  · rw [unbroken_append, unbroken_append]
    refine ⟨⟨by decide, ?_⟩, by decide⟩
    intro digit member
    obtain ⟨value, small, rfl⟩ := mem_toDigits _ digit member
    have table : ((List.range 16).all fun value =>
        decide (Nat.digitChar value ≠ '\n' ∧ Nat.digitChar value ≠ '\r')) = true := by decide
    exact of_decide_eq_true (List.all_eq_true.mp table value (List.mem_range.mpr small))

theorem unbroken_visible (text : Text) : Unbroken (visible text) :=
  unbroken_flatMap _ _ fun c _ => unbroken_visibleCharacter c

section Rows

variable (styling : Styling)

theorem unbroken_styled (styles : List Style) (text : Text) (unbroken : Unbroken text) :
    Unbroken (styling.styled styles text) := by
  rw [Styling.styled, unbroken_append, unbroken_append]
  exact ⟨⟨styling.opening_unbroken styles, unbroken⟩, styling.closing_unbroken styles⟩

theorem mem_styled (styles : List Style) (text : Text) (c : Char) (inside : c ∈ text) :
    c ∈ styling.styled styles text :=
  List.mem_append_left _ (List.mem_append_right _ inside)

theorem unbroken_label (name : Text) (solid : ∀ c ∈ name, isSpace c = false) :
    Unbroken ((ListingRow.label name).render styling) := by
  have styled := unbroken_styled styling [.green] (name ++ ":".toList)
    ((unbroken_append _ _).mpr ⟨unbroken_solid name solid, by decide⟩)
  simp only [ListingRow.render, unbroken_append]
  exact ⟨⟨⟨⟨unbroken_replicate 12, by decide⟩, unbroken_replicate 32⟩, by decide⟩, styled⟩

theorem unbroken_tokens (tokens : List Text) (spelled : ∀ token ∈ tokens, IsToken token) :
    Unbroken (tokensColumn styling tokens) := by
  cases tokens with
  | nil => exact fun _ => nofun
  | cons mnemonic operands =>
      rw [List.forall_mem_cons] at spelled
      rw [tokensColumn, unbroken_append, unbroken_append, padEnd]
      refine ⟨⟨unbroken_styled styling _ _ ?_, by decide⟩, ?_⟩
      · exact (unbroken_append _ _).mpr ⟨spelled.1.unbroken, unbroken_replicate _⟩
      · exact unbroken_join _ _ (by decide) fun operand member =>
          (spelled.2 operand member).unbroken

theorem unbroken_word (address : Nat) (word : Word) (line : Nat) (tokens : Option (List Text))
    (bits : BitString.IsBits word)
    (spelled : ∀ shown, tokens = some shown → ∀ token ∈ shown, IsToken token) :
    Unbroken ((ListingRow.word address word line tokens).render styling) := by
  have digits : Unbroken word := by
    intro c member
    rcases bits c member with rfl | rfl <;> decide
  have number : Unbroken (lineColumn line) := by
    rw [lineColumn, padStart, unbroken_append, unbroken_append]
    exact ⟨⟨unbroken_replicate _, unbroken_decimal line⟩, by decide⟩
  have front := unbroken_hexadecimal 8 address
  simp only [ListingRow.render, unbroken_append]
  refine ⟨⟨⟨⟨⟨by decide, front⟩, by decide⟩, digits⟩, by decide⟩, ?_⟩
  cases tokens with
  | none => exact unbroken_styled styling _ _ ((unbroken_append _ _).mpr ⟨number, by decide⟩)
  | some shown =>
      exact (unbroken_append _ _).mpr ⟨number, unbroken_tokens styling shown (spelled shown rfl)⟩

theorem unbroken_dataSymbol (symbol : Symbol UInt64)
    (solid : ∀ c ∈ symbol.name, isSpace c = false) : Unbroken (dataSymbolRow styling symbol) := by
  apply unbroken_styled
  simp only [unbroken_append]
  exact ⟨⟨⟨by decide, unbroken_hexadecimal 4 _⟩, by decide⟩, unbroken_solid _ solid⟩

theorem unbroken_data (values : List Text) : ∀ line ∈ dataRow styling values, Unbroken line := by
  intro line member
  unfold dataRow at member
  split at member
  · cases member
  · rw [List.mem_singleton.mp member]
    apply unbroken_styled
    apply unbroken_join _ _ (by decide)
    intro value shown
    obtain ⟨original, -, rfl⟩ := List.mem_map.mp shown
    exact unbroken_visible original

end Rows

theorem exists_related {First Second : Type} {Related : First → Second → Prop}
    {firsts : List First} {seconds : List Second} (related : List.Forall₂ Related firsts seconds)
    (second : Second) (member : second ∈ seconds) : ∃ first ∈ firsts, Related first second := by
  induction related with
  | nil => cases member
  | @cons first _ firsts _ here _ ih =>
      rcases List.mem_cons.mp member with rfl | later
      · exact ⟨first, List.mem_cons_self, here⟩
      · obtain ⟨found, listed, holds⟩ := ih later
        exact ⟨found, List.mem_cons_of_mem first listed, holds⟩

theorem define_mem {Address : Type} (definitions : List (Symbol Address)) (symbol : Symbol Address)
    (member : symbol ∈ (empty.define definitions).1.symbols) : symbol ∈ definitions := by
  have entry := define_entry definitions symbol member
  exact List.mem_reverse.mp (List.mem_of_find?_eq_some entry)

/-! Programs. -/

namespace Stages.LeadTo

variable {stages : Stages} {source : Text} {base : UInt64} {program : Program}
variable (leads : stages.LeadTo source base program)

include leads

theorem declared : program.declaredBytes = 4 * program.machineWords.length := by
  rw [leads.words, filled_total _ _ leads.filled, Program.declaredBytes]

theorem made : program.origins.map Prod.snd = program.machineWords := by
  have second (shares : List (Instruction × List Word)) :
      (shares.flatMap fun share => share.2.map (share.1, ·)).map Prod.snd =
        (shares.map Prod.snd).flatten := by
    simp [List.flatMap_def, Function.comp_def]
  rw [Program.origins, origins_shares _ _ leads.emitted, second,
    List.map_snd_zip leads.filled.length_eq.ge, leads.words]

theorem boundary_take (count : Nat) :
    IsBoundary 0 program.wordsByInstruction (stages.groups.take count).flatten.length := by
  refine ⟨_, _, (List.take_append_drop count _).symm, ?_⟩
  rw [leads.shared, List.flatMap_def, List.map_take, List.map_snd_zip leads.filled.length_eq.ge,
    Nat.zero_add]

theorem taken_le (count : Nat) :
    (stages.groups.take count).flatten.length ≤ program.machineWords.length := by
  rw [leads.words]
  conv => rhs; rw [← List.take_append_drop count stages.groups, List.flatten_append]
  rw [List.length_append]
  exact Nat.le_add_right _ _

/-- The labels of the text are at the start of an instruction or behind the last one. -/
theorem boundary (fits : program.declaredBytes ≤ 2 ^ 32) (symbol : Symbol UInt32)
    (member : symbol ∈ program.codeSymbols.symbols) :
    ∃ place, symbol.address.toNat = 4 * place ∧ place ≤ program.machineWords.length ∧
      IsBoundary 0 program.wordsByInstruction place := by
  rw [leads.code] at member
  obtain ⟨before, -, -, -, address⟩ := leads.labelled symbol (define_entry _ _ member)
  generalize (writtenInstructions before).length = count at address
  have last := leads.taken_le count
  rw [leads.declared] at fits
  by_cases small : 4 * (stages.groups.take count).flatten.length < 2 ^ 32
  · refine ⟨_, ?_, last, leads.boundary_take count⟩
    rw [address, UInt32.toNat_ofNat', Nat.mod_eq_of_lt small]
  · -- A label at 2^32 is at zero, which is the start of the first instruction.
    refine ⟨0, ?_, Nat.zero_le _, leads.boundary_take 0⟩
    rw [address, UInt32.toNat_ofNat']
    omega

theorem atWords (fits : program.declaredBytes ≤ 2 ^ 32) :
    AtWords 0 program.wordsByInstruction := by
  rw [leads.declared, leads.words] at fits
  rw [leads.shared]
  exact atWords_zip 0 _ _ leads.filled leads.consecutive (by omega)

theorem shown (fits : program.declaredBytes ≤ 2 ^ 32) :
    List.Forall₂ WordRow program.origins.zipIdx program.codeRows := by
  rw [Program.origins, origins_shares _ _ leads.emitted, ← leads.shared]
  exact shares_shown 0 _ (leads.atWords fits)

theorem listingRows (fits : program.declaredBytes ≤ 2 ^ 32) :
    program.listingRows = withLabels program.codeSymbols program.codeRows.zipIdx := by
  apply shares_labelled _ 0 _ (leads.atWords fits)
  intro place _ labelled
  -- Whatever label is there has an address, and that is a boundary.
  obtain ⟨_, row⟩ := List.exists_mem_of_ne_nil _ labelled
  obtain ⟨symbol, member, -⟩ := List.mem_map.mp row
  obtain ⟨listed, here⟩ := List.mem_filter.mp member
  obtain ⟨other, there, -, boundary⟩ := leads.boundary fits symbol listed
  have same : other = place := by
    have := of_decide_eq_true here
    omega
  exact same ▸ boundary

theorem wordLines (styling : Styling) (fits : program.declaredBytes ≤ 2 ^ 32) :
    List.Forall₂ (fun place => WordLine styling (4 * place.2) place.1.2 place.1.1.line)
      program.origins.zipIdx (program.codeRows.map (ListingRow.render styling)) := by
  rw [List.forall₂_map_right_iff]
  refine (leads.shown fits).imp ?_
  rintro place _ ⟨tokens, -, rfl⟩
  exact render_wordLine styling _ _ _ tokens

theorem label_count (styling : Styling) (fits : program.declaredBytes ≤ 2 ^ 32)
    (symbol : Symbol UInt32) (member : symbol ∈ program.codeSymbols.symbols) (place : Nat)
    (here : symbol.address.toNat = 4 * place) :
    (program.listingRows.map (ListingRow.render styling)).count (labelLine styling symbol) =
      if place < program.machineWords.length then 1 else 0 := by
  have length : program.codeRows.length = program.machineWords.length := by
    rw [← (leads.shown fits).length_eq, List.length_zipIdx, ← List.length_map Prod.snd, leads.made]
  -- A line for a word begins with a bracket, one for a label with a blank.
  have marked : ∀ text ∈ program.codeRows.map (ListingRow.render styling),
      text ≠ labelLine styling symbol := by
    rintro text listed rfl
    obtain ⟨place, -, ⟨⟩⟩ := exists_related (leads.wordLines styling fits) _ listed
  rw [leads.listingRows fits, render_withLabels,
    listed_count styling program symbol member _ 0 place marked here, List.length_map, length]
  simp

theorem lists (styling : Styling) (fits : program.declaredBytes ≤ 2 ^ 32) :
    program.Lists styling (program.codeRows.map (ListingRow.render styling))
      (program.listingRows.map (ListingRow.render styling)) where
  made := leads.made
  shown := leads.wordLines styling fits
  labelled := by rw [leads.listingRows fits, render_withLabels]
  once symbol member below := by
    obtain ⟨place, here, -⟩ := leads.boundary fits symbol member
    rw [leads.declared] at below
    rw [leads.label_count styling fits symbol member place here, if_pos (by omega)]
  omitted symbol member := by
    obtain ⟨place, here, most, -⟩ := leads.boundary fits symbol member
    rw [← List.count_eq_zero, leads.label_count styling fits symbol member place here,
      leads.declared, here]
    by_cases below : place < program.machineWords.length
    · rw [if_pos below]
      omega
    · rw [if_neg below]
      omega

theorem code_solid (symbol : Symbol UInt32) (member : symbol ∈ program.codeSymbols.symbols) :
    ∀ c ∈ symbol.name, isSpace c = false := by
  rw [leads.code] at member
  have site := List.mem_map_of_mem (f := Symbol.site) (define_mem _ _ member)
  obtain ⟨code, defined⟩ := (placeFrom_sites 0 _ _ leads.placed).defined _ site
  exact defined.solid

theorem data_solid (symbol : Symbol UInt64) (member : symbol ∈ program.dataSymbols.symbols) :
    ∀ c ∈ symbol.name, isSpace c = false := by
  rw [leads.data] at member
  have site := List.mem_map_of_mem (f := Symbol.site) (define_mem _ _ member)
  obtain ⟨code, defined⟩ := (dataLayoutFrom_sites 0 _ _ leads.laid).defined _ site
  exact defined.solid

theorem origin_spelled (place : (Instruction × Word) × Nat)
    (member : place ∈ program.origins.zipIdx) :
    BitString.IsBits place.1.2 ∧ ∀ token ∈ place.1.1.tokens, IsToken token := by
  have origin := List.fst_mem_of_mem_zipIdx member
  obtain ⟨instruction, listed, inside⟩ := List.mem_flatMap.mp origin
  obtain ⟨words, emitted⟩ := emitted_mem _ _ leads.emitted instruction listed
  rw [emitted] at inside
  obtain ⟨word, made, same⟩ := List.mem_map.mp inside
  obtain ⟨-, width⟩ := emit_words instruction words emitted
  obtain ⟨mnemonic, operands, tokens, -, spelled⟩ := emit_tokens instruction words emitted
  rw [← same, tokens]
  exact ⟨(width word made).2, spelled⟩

theorem unbroken_rows (styling : Styling) (fits : program.declaredBytes ≤ 2 ^ 32)
    (row : ListingRow) (member : row ∈ program.listingRows) : Unbroken (row.render styling) := by
  rw [leads.listingRows fits] at member
  obtain ⟨place, placed, inside⟩ := List.mem_flatMap.mp member
  rcases List.mem_append.mp inside with label | word
  · obtain ⟨symbol, here, rfl⟩ := List.mem_map.mp label
    exact unbroken_label styling _ (leads.code_solid symbol (List.mem_filter.mp here).1)
  · rw [List.mem_singleton.mp word]
    obtain ⟨origin, made, tokens, given, row⟩ :=
      exists_related (leads.shown fits) _ (List.fst_mem_of_mem_zipIdx placed)
    obtain ⟨bits, spelled⟩ := leads.origin_spelled origin made
    rw [row]
    apply unbroken_word styling _ _ _ _ bits
    rintro shown rfl
    rcases given with none | some
    · cases none
    · cases some
      exact spelled

theorem unbroken_lines (styling : Styling) (fits : program.declaredBytes ≤ 2 ^ 32) :
    ∀ line ∈ [listingRule] ++ program.listingRows.map (ListingRow.render styling)
      ++ [listingRule] ++ program.dataSymbols.symbols.map (dataSymbolRow styling)
      ++ dataRow styling program.dataValues, Unbroken line := by
  have rule : Unbroken listingRule := by decide
  simp only [List.forall_mem_append, List.forall_mem_singleton, List.forall_mem_map]
  exact ⟨⟨⟨⟨rule, leads.unbroken_rows styling fits⟩, rule⟩, fun symbol member =>
    unbroken_dataSymbol styling symbol (leads.data_solid symbol member)⟩,
    unbroken_data styling _⟩

/-- A data stream has the tag of its first record in it. -/
theorem values_dotted (some : program.dataValues ≠ []) :
    ∃ value ∈ program.dataValues, '.' ∈ value := by
  obtain ⟨records, written, -⟩ := dataLayoutFrom_records 0 _ _ leads.laid
  rw [leads.values, written] at some ⊢
  cases records with
  | nil => exact absurd rfl some
  | cons record rest =>
      refine ⟨record.name.text, List.mem_cons_self, ?_⟩
      cases record.name <;> exact List.mem_cons_self


/-- A rule is no line of the code, which begins otherwise, and no line of the data, which has
characters in it that a rule does not have, whatever the styling adds. -/
theorem rule_apart (styling : Styling) :
    listingRule ∉ program.listingRows.map (ListingRow.render styling) ∧
      listingRule ∉ program.dataSymbols.symbols.map (dataSymbolRow styling) ++
        dataRow styling program.dataValues := by
  have unmarked : '@' ∉ listingRule := by decide
  have undotted : '.' ∉ listingRule := by decide
  refine ⟨?_, ?_⟩
  · intro member
    obtain ⟨row, -, same⟩ := List.mem_map.mp member
    cases row <;> cases same
  · rw [List.mem_append, not_or]
    constructor
    · intro member
      obtain ⟨symbol, -, same⟩ := List.mem_map.mp member
      rw [← same] at unmarked
      exact unmarked (mem_styled styling _ _ '@' List.mem_cons_self)
    · intro member
      unfold dataRow at member
      split at member
      · cases member
      · rename_i stored
        obtain ⟨value, listed, dotted⟩ := leads.values_dotted (by simpa using stored)
        have shown : '.' ∈ visible value := List.mem_flatMap.mpr ⟨'.', dotted, List.mem_cons_self⟩
        have part := join_within " ".toList _ _ (List.mem_map_of_mem (f := visible) listed)
        rw [List.mem_singleton.mp member] at undotted
        exact undotted (mem_styled styling _ _ '.' (part.subset shown))

end Stages.LeadTo

theorem listing_covers_code (styling : Styling) (path source : Text) (base : UInt64)
    (program : Program) (assembled : assemble path source base = .ok program)
    (fits : program.declaredBytes ≤ 2 ^ 32) :
    ∃ words listed rest,
      lines (program.listing styling) = listingRule :: listed ++ listingRule :: rest ∧
        listingRule ∉ listed ∧ listingRule ∉ rest ∧ program.Lists styling words listed := by
  obtain ⟨stages, leads⟩ := assemble_ok path source base program assembled
  obtain ⟨inCode, inData⟩ := leads.rule_apart styling
  have unbroken := leads.unbroken_lines styling fits
  refine ⟨_, _, _, ?_, inCode, inData, leads.lists styling fits⟩
  rw [Program.listing, lines_unlines]
  · simp
  · intro line member newline
    exact (unbroken line member '\n' newline).1 rfl
  · intro line member last
    exact (unbroken line member '\r' (List.mem_of_getLast? last)).2 rfl

/-- Two labels on one instruction, one in front of a constant of eight words and one behind
the last instruction. -/
theorem listing_covers_code_labels :
    let source := ".text\n.globl main\nmain:\nstart:\nj end\nagain:\nli a0, 5\nend:".toList
    ∃ program words listed rest, assemble [] source 0 = .ok program ∧
      program.declaredBytes = 36 ∧ program.codeSymbols.symbols.length = 4 ∧
      lines (program.listing ansi) = listingRule :: listed ++ listingRule :: rest ∧
      listingRule ∉ listed ∧ listingRule ∉ rest ∧ program.Lists ansi words listed := by
  intro source
  obtain ⟨words, listed, rest, covers⟩ := listing_covers_code ansi [] source 0 _ rfl (by decide)
  exact ⟨_, words, listed, rest, rfl, rfl, rfl, covers⟩

end RiscAssembly
