import RiscAssembly.Proofs.Renumbering
import RiscAssembly.Proofs.Statement

/-!
Decoration: what may be written into a source without changing its program. Blank lines and
lines that are all comment, white space around a line, a carriage return before its end, and
a comment behind it, where the line does not end inside quotes. All that assembling sees of
a decorated source are the same lines of code under other numbers.
-/

namespace RiscAssembly

open Text

/-- Where the search for a comment is when the text ends; nowhere if it has met one. -/
def scanFrom : QuoteState → Text → Option QuoteState
  | state, [] => some state
  | .outside, c :: rest =>
      if c = '#' then none else scanFrom (if c = '\"' then .inside else .outside) rest
  | .inside, c :: rest =>
      scanFrom (if c = '\\' then .escaped else if c = '\"' then .outside else .inside) rest
  | .escaped, _ :: rest => scanFrom .inside rest

/-- A line that does not end inside quotes: the search for a comment has met one, or ends
outside of them. -/
def EndsUnquoted (line : Text) : Prop :=
  scanFrom .outside line = none ∨ scanFrom .outside line = some .outside

/-- A blank line, or one with nothing but a comment. -/
def IsIdle (line : Text) : Prop :=
  Blank line ∨ ∃ front comment, Blank front ∧ line = front ++ '#' :: comment

/-- One step of decoration, with the new number of each line; lines are counted from one. -/
inductive Decorates : List Text → List Text → (Nat → Nat) → Prop
  | insert (before after : List Text) (line : Text) (whole : '\n' ∉ line) (idle : IsIdle line) :
      Decorates (before ++ after) (before ++ line :: after)
        fun number => if number ≤ before.length then number else number + 1
  | indent (before after : List Text) (front line back : Text) (whole : '\n' ∉ front ++ back)
      (blank : Blank (front ++ back)) :
      Decorates (before ++ line :: after) (before ++ (front ++ line ++ back) :: after) id
  | carriageReturn (before after : List Text) (line next : Text) :
      Decorates (before ++ line :: next :: after) (before ++ (line ++ ['\r']) :: next :: after) id
  | comment (before after : List Text) (line comment : Text) (whole : '\n' ∉ comment)
      (unquoted : EndsUnquoted line) :
      Decorates (before ++ line :: after) (before ++ (line ++ '#' :: comment) :: after) id

/-- Any number of steps. -/
inductive Decoration (lines : List Text) : List Text → (Nat → Nat) → Prop
  | none : Decoration lines lines id
  | step (decorated further : List Text) (places moved : Nat → Nat)
      (earlier : Decoration lines decorated places) (last : Decorates decorated further moved) :
      Decoration lines further (moved ∘ places)

/-! What is left of a line. -/

theorem stripCommentFrom_append (state : QuoteState) (raw rest : Text) :
    stripCommentFrom state (raw ++ rest) =
      stripCommentFrom state raw ++ (scanFrom state raw).elim [] (stripCommentFrom · rest) := by
  induction raw generalizing state with
  | nil => rfl
  | cons c raw ih =>
      rw [List.cons_append]
      cases state with
      | outside =>
          by_cases hash : c = '#'
          · simp [stripCommentFrom, scanFrom, hash]
          · simp [stripCommentFrom, scanFrom, hash, ih]
      | inside => simp [stripCommentFrom, scanFrom, ih]
      | escaped => simp [stripCommentFrom, scanFrom, ih]

theorem scanFrom_append (state : QuoteState) (text rest : Text) :
    scanFrom state (text ++ rest) = (scanFrom state text).bind (scanFrom · rest) := by
  induction text generalizing state with
  | nil => rfl
  | cons c text ih =>
      rw [List.cons_append]
      cases state with
      | outside =>
          by_cases hash : c = '#'
          · simp [scanFrom, hash]
          · simp [scanFrom, hash, ih]
      | inside => simp [scanFrom, ih]
      | escaped => simp [scanFrom, ih]

theorem scanFrom_plain (text : Text) (hash : '#' ∉ text) (quote : '\"' ∉ text) :
    scanFrom .outside text = some .outside := by
  induction text with
  | nil => rfl
  | cons c rest ih =>
      rw [List.mem_cons, not_or] at hash quote
      rw [scanFrom, if_neg (Ne.symm hash.1), if_neg (Ne.symm quote.1)]
      exact ih hash.2 quote.2

theorem scanFrom_blank (text : Text) (blank : Blank text) :
    scanFrom .outside text = some .outside :=
  scanFrom_plain text (blank_lacks text blank '#' (by decide))
    (blank_lacks text blank '\"' (by decide))

/-- Without a comment there is nothing to strip. -/
theorem stripCommentFrom_scanned (state final : QuoteState) (text : Text)
    (scanned : scanFrom state text = some final) : stripCommentFrom state text = text := by
  induction text generalizing state with
  | nil => rfl
  | cons c rest ih =>
      cases state with
      | outside =>
          by_cases hash : c = '#'
          · simp [scanFrom, hash] at scanned
          · rw [scanFrom, if_neg hash] at scanned
            rw [stripCommentFrom, if_neg hash, ih _ scanned]
      | inside =>
          rw [scanFrom] at scanned
          rw [stripCommentFrom, ih _ scanned]
      | escaped =>
          rw [scanFrom] at scanned
          rw [stripCommentFrom, ih _ scanned]

theorem codeOf_surrounded (front line back : Text) (blank : Blank front ∧ Blank back) :
    codeOf (front ++ line ++ back) = codeOf line := by
  have plain (state : QuoteState) (text : Text) (spaces : Blank text) :
      stripCommentFrom state text = text :=
    stripCommentFrom_plain state text (blank_lacks text spaces '#' (by decide))
  -- What is behind the line is kept or belongs to a comment; it is blank either way.
  obtain ⟨rest, spaces, stripped⟩ : ∃ rest, Blank rest ∧
      stripComment (line ++ back) = stripComment line ++ rest := by
    rw [stripComment, stripCommentFrom_append]
    cases scanFrom .outside line with
    | none => exact ⟨[], by simp [Blank], rfl⟩
    | some state => exact ⟨back, blank.2, by rw [Option.elim_some, plain state back blank.2]; rfl⟩
  have start : stripComment (front ++ (line ++ back)) = front ++ stripComment (line ++ back) := by
    rw [stripComment, stripCommentFrom_append, scanFrom_blank front blank.1,
      plain .outside front blank.1]
    rfl
  rw [codeOf, List.append_assoc, start, stripped, ← List.append_assoc,
    trim_surrounded front _ rest ⟨blank.1, spaces⟩, codeOf]

theorem codeOf_comment (line comment : Text) (unquoted : EndsUnquoted line) :
    codeOf (line ++ '#' :: comment) = codeOf line := by
  have stripped : stripComment (line ++ '#' :: comment) = stripComment line := by
    rw [stripComment, stripCommentFrom_append]
    rcases unquoted with met | outside
    · rw [met, Option.elim_none, List.append_nil, stripComment]
    · rw [outside, Option.elim_some, stripCommentFrom, if_pos rfl, List.append_nil, stripComment]
  rw [codeOf, stripped, codeOf]

theorem codeOf_blank (line : Text) (blank : Blank line) : codeOf line = [] := by
  have surrounded := codeOf_surrounded line [] [] ⟨blank, by simp [Blank]⟩
  rw [List.append_nil, List.append_nil] at surrounded
  rw [surrounded]
  rfl

theorem codeOf_idle (line : Text) (idle : IsIdle line) : codeOf line = [] := by
  rcases idle with blank | ⟨front, comment, blank, rfl⟩
  · exact codeOf_blank line blank
  · rw [codeOf_comment front comment (.inr (scanFrom_blank front blank)), codeOf_blank front blank]

/-- Code with white space before it, and white space and a comment behind it. -/
theorem codeOf_written (front code tail : Text) (blank : Blank front) (idle : IsIdle tail)
    (unquoted : scanFrom .outside code = some .outside) (solid : Solid code) :
    codeOf (front ++ code ++ tail) = code := by
  have alone : codeOf code = code := by
    rw [codeOf, stripComment, stripCommentFrom_scanned _ _ code unquoted, trim_solid code solid]
  rcases idle with spaces | ⟨gap, comment, spaces, rfl⟩
  · rw [codeOf_surrounded front code tail ⟨blank, spaces⟩, alone]
  · have outside : scanFrom .outside (front ++ code ++ gap) = some .outside := by
      rw [scanFrom_append, scanFrom_append, scanFrom_blank front blank, Option.bind_some, unquoted,
        Option.bind_some, scanFrom_blank gap spaces]
    rw [← List.append_assoc, codeOf_comment _ comment (.inr outside),
      codeOf_surrounded front code gap ⟨blank, spaces⟩, alone]

/-! Lines of code of joined lines. -/

theorem codeOf_carriageReturn (line : Text) : codeOf (line ++ ['\r']) = codeOf line :=
  codeOf_surrounded [] line ['\r'] ⟨by simp [Blank], List.forall_mem_singleton.mpr (by decide)⟩

/-- The ends of lines make no difference to their code. -/
theorem codeLinesFrom_closeLines (number : Nat) (parts : List Text) :
    codeLinesFrom number (closeLines parts) = codeLinesFrom number parts := by
  induction parts generalizing number with
  | nil => rfl
  | cons part rest ih =>
      cases rest with
      | nil =>
          cases part with
          | nil => rfl
          | cons c tail => rfl
      | cons next rest =>
          have code : codeOf ((dropLast? '\r' part).getD part) = codeOf part := by
            cases ended : dropLast? '\r' part with
            | none => rfl
            | some front =>
                rw [(dropLast_some_iff '\r' part front).mp ended, codeOf_carriageReturn]
                rfl
          rw [closeLines, codeLinesFrom, code, ih]
          conv_rhs => rw [codeLinesFrom]

theorem codeLines_join (raws : List Text) (whole : ∀ raw ∈ raws, '\n' ∉ raw) :
    codeLines (join ['\n'] raws) = codeLinesFrom 1 raws := by
  rw [codeLines, lines, codeLinesFrom_closeLines]
  cases raws with
  | nil => rfl
  | cons first rest =>
      exact congrArg _ (List.splitOn_intercalate '\n' whole (List.cons_ne_nil _ _))

/-! Numbers of lines. -/

theorem codeLinesFrom_append (number : Nat) (before after : List Text) :
    codeLinesFrom number (before ++ after) =
      codeLinesFrom number before ++ codeLinesFrom (number + before.length) after := by
  induction before generalizing number with
  | nil => rfl
  | cons raw rest ih =>
      have next : number + (rest.length + 1) = number + 1 + rest.length := by omega
      rw [List.cons_append, codeLinesFrom, codeLinesFrom, ih, List.length_cons, next]
      by_cases blank : (codeOf raw).isEmpty = true
      · rw [if_pos blank, if_pos blank]
      · rw [if_neg blank, if_neg blank, List.cons_append]

theorem codeLinesFrom_numbers (number : Nat) (raws : List Text) :
    ∀ line ∈ codeLinesFrom number raws,
      number ≤ line.number ∧ line.number < number + raws.length := by
  induction raws generalizing number with
  | nil =>
      intro line member
      cases member
  | cons raw rest ih =>
      intro line member
      have later (inRest : line ∈ codeLinesFrom (number + 1) rest) := ih (number + 1) line inRest
      rw [codeLinesFrom] at member
      rw [List.length_cons]
      split at member
      · have bounds := later member
        omega
      · rcases List.mem_cons.mp member with rfl | inRest
        · exact ⟨Nat.le_refl _, by dsimp only; omega⟩
        · have bounds := later inRest
          omega

theorem codeLinesFrom_succ (number : Nat) (raws : List Text) :
    codeLinesFrom (number + 1) raws = (codeLinesFrom number raws).map (Line.renumber (· + 1)) := by
  induction raws generalizing number with
  | nil => rfl
  | cons raw rest ih =>
      rw [codeLinesFrom, codeLinesFrom, ih (number + 1)]
      split <;> rfl

theorem codeLinesFrom_replace (number : Nat) (before after : List Text) (line other : Text)
    (same : codeOf other = codeOf line) :
    codeLinesFrom number (before ++ other :: after) =
      codeLinesFrom number (before ++ line :: after) := by
  rw [codeLinesFrom_append, codeLinesFrom_append, codeLinesFrom, codeLinesFrom, same]

theorem renumber_id (lines : List Line) : lines.map (Line.renumber id) = lines :=
  List.map_id lines

theorem codeLinesFrom_insert (before after : List Text) (line : Text) (idle : codeOf line = []) :
    codeLinesFrom 1 (before ++ line :: after) =
      (codeLinesFrom 1 (before ++ after)).map (Line.renumber fun number =>
        if number ≤ before.length then number else number + 1) := by
  have skipped : codeLinesFrom (1 + before.length) (line :: after) =
      codeLinesFrom (1 + before.length + 1) after := by
    rw [codeLinesFrom, idle]
    rfl
  rw [codeLinesFrom_append, codeLinesFrom_append, List.map_append, skipped,
    codeLinesFrom_succ (1 + before.length)]
  -- Lines before the new one keep their numbers; those behind it move on by one.
  congr 1
  · conv_lhs => rw [← renumber_id (codeLinesFrom 1 before)]
    refine List.map_congr_left fun found member => ?_
    have bounds := codeLinesFrom_numbers 1 before found member
    rw [Line.renumber, Line.renumber, if_pos (by omega)]
    rfl
  · refine List.map_congr_left fun found member => ?_
    have bounds := codeLinesFrom_numbers _ after found member
    rw [Line.renumber, Line.renumber, if_neg (by omega)]

/-! Decorated lines. -/

theorem Decorates.codeLines {lines decorated : List Text} {moved : Nat → Nat}
    (decorates : Decorates lines decorated moved) :
    codeLinesFrom 1 decorated = (codeLinesFrom 1 lines).map (Line.renumber moved) := by
  cases decorates with
  | insert before after line whole idle =>
      exact codeLinesFrom_insert before after line (codeOf_idle line idle)
  | indent before after front line back whole blank =>
      rw [renumber_id]
      exact codeLinesFrom_replace 1 before after line _
        (codeOf_surrounded front line back ((blank_append front back).mp blank))
  | carriageReturn before after line next =>
      rw [renumber_id]
      exact codeLinesFrom_replace 1 before (next :: after) line _ (codeOf_carriageReturn line)
  | comment before after line comment whole unquoted =>
      rw [renumber_id]
      exact codeLinesFrom_replace 1 before after line _ (codeOf_comment line comment unquoted)

theorem whole_replace (before after : List Text) (line other : Text)
    (whole : ∀ raw ∈ before ++ line :: after, '\n' ∉ raw) (plain : '\n' ∉ line → '\n' ∉ other) :
    ∀ raw ∈ before ++ other :: after, '\n' ∉ raw := by
  rw [List.forall_mem_append, List.forall_mem_cons] at whole ⊢
  exact ⟨whole.1, plain whole.2.1, whole.2.2⟩

theorem Decorates.whole {lines decorated : List Text} {moved : Nat → Nat}
    (decorates : Decorates lines decorated moved) (whole : ∀ line ∈ lines, '\n' ∉ line) :
    ∀ line ∈ decorated, '\n' ∉ line := by
  cases decorates with
  | insert before after line plain idle =>
      rw [List.forall_mem_append] at whole
      rw [List.forall_mem_append, List.forall_mem_cons]
      exact ⟨whole.1, plain, whole.2⟩
  | indent before after front line back plain blank =>
      refine whole_replace before after line _ whole fun free => ?_
      simp only [List.mem_append, not_or] at plain ⊢
      exact ⟨⟨plain.1, free⟩, plain.2⟩
  | carriageReturn before after line next =>
      refine whole_replace before (next :: after) line _ whole fun free => ?_
      rw [List.mem_append, not_or]
      exact ⟨free, by decide⟩
  | comment before after line comment plain unquoted =>
      refine whole_replace before after line _ whole fun free => ?_
      rw [List.mem_append, List.mem_cons, not_or, not_or]
      exact ⟨free, by decide, plain⟩

theorem Decoration.codeLines {lines decorated : List Text} {places : Nat → Nat}
    (decoration : Decoration lines decorated places) :
    codeLinesFrom 1 decorated = (codeLinesFrom 1 lines).map (Line.renumber places) := by
  induction decoration with
  | none => exact (renumber_id _).symm
  | step decorated further places moved earlier last ih =>
      rw [last.codeLines, ih, List.map_map]
      rfl

theorem Decoration.whole {lines decorated : List Text} {places : Nat → Nat}
    (decoration : Decoration lines decorated places) (whole : ∀ line ∈ lines, '\n' ∉ line) :
    ∀ line ∈ decorated, '\n' ∉ line := by
  induction decoration with
  | none => exact whole
  | step decorated further places moved earlier last ih => exact last.whole ih

/-! Programs of decorated sources. -/

/-- The same error on the counterpart of its line, or the one that is about no line. -/
def Counterpart (places : Nat → Nat) (left right : LocatedError) : Prop :=
  Moved places left right ∨
    left = ⟨1, .structural .missingTextSection⟩ ∧ right = ⟨1, .structural .missingTextSection⟩

theorem Moved.counterpart {places : Nat → Nat} (left right : LocatedError)
    (moved : Moved places left right) : Counterpart places left right := .inl moved

theorem ofSource_renumber (places : Nat → Nat) (source other : Text)
    (moved : codeLines other = (codeLines source).map (Line.renumber places)) :
    Agree (Counterpart places) (fun left right => right = left.renumber places)
      (Sections.ofSource source) (Sections.ofSource other) := by
  rw [Sections.ofSource, Sections.ofSource, moved]
  have split := partitionFrom_renumber places none (codeLines source)
  refine (split.imp_cause Moved.counterpart).bind ?_
  rintro ⟨sections, header⟩ _ rfl
  cases header with
  | none => exact .error (.inr ⟨rfl, rfl⟩)
  | some number =>
      have dropped := dropEntryDeclaration_renumber places number sections.text
      refine (dropped.imp_cause Moved.counterpart).bind ?_
      rintro text _ rfl
      exact .ok rfl

theorem assemble_decorated (lines decorated : List Text) (places : Nat → Nat)
    (whole : ∀ line ∈ lines, '\n' ∉ line) (decoration : Decoration lines decorated places)
    (path : Text) (base : UInt64) :
    (∃ program, assemble path (join ['\n'] lines) base = .ok program ∧
      assemble path (join ['\n'] decorated) base = .ok (program.renumber places)) ∨
    (∃ line error, error ≠ .structural .missingTextSection ∧
      assemble path (join ['\n'] lines) base = .error ⟨path, line, error⟩ ∧
      assemble path (join ['\n'] decorated) base = .error ⟨path, places line, error⟩) ∨
    (assemble path (join ['\n'] lines) base =
        .error ⟨path, 1, .structural .missingTextSection⟩ ∧
      assemble path (join ['\n'] decorated) base =
        .error ⟨path, 1, .structural .missingTextSection⟩) := by
  have moved : codeLines (join ['\n'] decorated) =
      (codeLines (join ['\n'] lines)).map (Line.renumber places) := by
    rw [codeLines_join lines whole, codeLines_join decorated (decoration.whole whole)]
    exact decoration.codeLines
  have agree := assemble_agree path _ _ base base
    ((ofSource_renumber places _ _ moved).bind fun sections _ same => by
      rw [same]
      exact (assembleSections_renumber places sections base).imp_cause Moved.counterpart)
  generalize assemble path (join ['\n'] lines) base = left at agree ⊢
  generalize assemble path (join ['\n'] decorated) base = right at agree ⊢
  cases agree with
  | ok same => exact .inl ⟨_, rfl, by rw [same]⟩
  | error same =>
      obtain ⟨found, _, ⟨rfl, other⟩ | ⟨rfl, rfl⟩, rfl, rfl⟩ := same
      · exact .inr (.inl ⟨found.line, found.error, other, rfl, rfl⟩)
      · exact .inr (.inr ⟨rfl, rfl⟩)

/-- A line for a comment, one after a quoted mark, a carriage return and an indentation. -/
theorem assemble_decorated_quoted :
    let lines : List Text := [".data".toList, "s: .string \"#\"".toList, ".text".toList,
      ".globl main".toList, "main:".toList, "la a0, s".toList]
    let decorated : List Text := ["# entry".toList, ".data\r".toList,
      "s: .string \"#\"# mark".toList, ".text".toList, ".globl main".toList,
      "\tmain:".toList, "la a0, s".toList]
    ∃ places program, Decoration lines decorated places ∧
      assemble [] (join ['\n'] lines) 4096 = .ok program ∧
      program.dataValues = [".string".toList, ['2'], ['#'], [Char.ofNat 0]] ∧
      assemble [] (join ['\n'] decorated) 4096 = .ok (program.renumber places) ∧
      (program.renumber places).instructions.map Instruction.line = [7] := by
  intro lines decorated
  have inserted : Decorates lines ("# entry".toList :: lines) _ :=
    .insert [] lines "# entry".toList (by decide) (.inr ⟨[], " entry".toList, by decide, rfl⟩)
  have returned : Decorates _ _ id :=
    .carriageReturn ["# entry".toList] (lines.drop 2) ".data".toList
      "s: .string \"#\"".toList
  have commented : Decorates _ _ id :=
    .comment (decorated.take 2) (lines.drop 2) "s: .string \"#\"".toList " mark".toList
      (by decide) (.inr rfl)
  have indented : Decorates _ decorated id :=
    .indent (decorated.take 5) ["la a0, s".toList] ['\t'] "main:".toList [] (by decide)
      (by decide)
  have decoration : Decoration lines decorated _ :=
    .step _ _ _ _ (.step _ _ _ _ (.step _ _ _ _ (.step _ _ _ _ .none inserted) returned)
      commented) indented
  obtain ⟨program, plain, same⟩ | ⟨line, error, -, failed, -⟩ | ⟨failed, -⟩ :=
    assemble_decorated lines decorated _ (by decide) decoration [] 4096
  · cases plain
    exact ⟨_, _, decoration, rfl, rfl, same, rfl⟩
  · cases failed
  · cases failed

end RiscAssembly
