import Mathlib.Data.List.Forall2
import RiscAssembly.Proofs.Outcome
import RiscAssembly.Text.Numeral

/-!
Text taken apart and put together. Cutting at a separator undoes writing it between parts
that do not have it; trimming leaves text alone that neither starts nor ends with white
space; lines that are written one after the other are read back as they were.
-/

namespace RiscAssembly.Text

theorem dropFirst_some_iff (c : Char) (text rest : Text) :
    dropFirst? c text = some rest ↔ text = c :: rest := by
  cases text with
  | nil => simp [dropFirst?]
  | cons first tail => by_cases same : first = c <;> simp [dropFirst?, same]

theorem dropLast_some_iff (c : Char) (text rest : Text) :
    dropLast? c text = some rest ↔ text = rest ++ [c] := by
  unfold dropLast?
  constructor
  · intro dropped
    split at dropped
    · rename_i last
      obtain ⟨front, rfl⟩ := List.getLast?_eq_some_iff.mp last
      rw [List.dropLast_concat, Option.some.injEq] at dropped
      rw [dropped]
    · cases dropped
  · rintro rfl
    simp

theorem dropLast_none (c : Char) (text : Text) (other : text.getLast? ≠ some c) :
    dropLast? c text = none := if_neg other

/-! Separators. -/

section Separator

variable (separator : Char → Bool)

/-- No character of the text is a separator. -/
def Free (text : Text) : Prop := ∀ c ∈ text, separator c = false

theorem free_of_not_mem (c : Char) (text : Text) (absent : c ∉ text) : Free (· = c) text := by
  intro d member
  rw [decide_eq_false_iff_not]
  rintro rfl
  exact absent member

theorem cut_free (text : Text) (free : Free separator text) : cut separator text = none := by
  induction text with
  | nil => rfl
  | cons c rest ih =>
      have head := free c List.mem_cons_self
      have tail := ih fun d member => free d (List.mem_cons_of_mem c member)
      simp [cut, head, tail]

theorem cut_append (text rest : Text) (c : Char) (free : Free separator text)
    (hit : separator c = true) : cut separator (text ++ c :: rest) = some (text, rest) := by
  induction text with
  | nil => simp [cut, hit]
  | cons d tail ih =>
      have head := free d List.mem_cons_self
      have later := ih fun e member => free e (List.mem_cons_of_mem d member)
      simp [cut, head, later]

/-- The first part of a text begins like the text. -/
theorem splitOnP_cons (c : Char) (rest : Text) (solid : separator c = false) :
    ∃ part parts, (c :: rest).splitOnP separator = (c :: part) :: parts := by
  obtain ⟨part, parts, shape⟩ :=
    List.exists_cons_of_ne_nil (List.splitOnP_ne_nil separator rest)
  rw [List.splitOnP_cons_eq_if_modifyHead, if_neg (by simp [solid]), shape]
  exact ⟨part, parts, rfl⟩

theorem cut_some (text before after : Text) (found : cut separator text = some (before, after)) :
    ∃ c, separator c = true ∧ Free separator before ∧ text = before ++ c :: after := by
  induction text generalizing before with
  | nil => cases found
  | cons c rest ih =>
      rw [cut] at found
      by_cases hit : separator c = true
      · rw [if_pos hit] at found
        cases found
        exact ⟨c, hit, fun _ => nofun, rfl⟩
      · rw [if_neg hit, Option.map_eq_some_iff] at found
        obtain ⟨⟨front, tail⟩, later, same⟩ := found
        cases same
        obtain ⟨d, separated, free, rfl⟩ := ih front later
        refine ⟨d, separated, ?_, rfl⟩
        rintro e member
        rcases List.mem_cons.mp member with rfl | inside
        · simpa using hit
        · exact free e inside

/-- Text without separators in front becomes part of the first part. -/
theorem splitOnP_front (front text : Text) (free : Free separator front) :
    ∃ part parts, text.splitOnP separator = part :: parts ∧
      (front ++ text).splitOnP separator = (front ++ part) :: parts := by
  induction front with
  | nil =>
      obtain ⟨part, parts, shape⟩ :=
        List.exists_cons_of_ne_nil (List.splitOnP_ne_nil separator text)
      exact ⟨part, parts, shape, shape⟩
  | cons c rest ih =>
      obtain ⟨part, parts, whole, joined⟩ :=
        ih fun d member => free d (List.mem_cons_of_mem c member)
      refine ⟨part, parts, whole, ?_⟩
      rw [List.cons_append, List.splitOnP_cons_eq_if_modifyHead,
        if_neg (by simp [free c List.mem_cons_self]), joined]
      rfl

/-- Text without separators behind becomes part of the last part. -/
theorem splitOnP_back (text back : Text) (free : Free separator back) :
    ∃ parts last, text.splitOnP separator = parts ++ [last] ∧
      (text ++ back).splitOnP separator = parts ++ [last ++ back] := by
  induction text with
  | nil => exact ⟨[], [], List.splitOnP_nil, List.splitOnP_eq_singleton free⟩
  | cons c rest ih =>
      obtain ⟨parts, last, whole, joined⟩ := ih
      rw [List.cons_append, List.splitOnP_cons_eq_if_modifyHead,
        List.splitOnP_cons_eq_if_modifyHead, whole, joined]
      by_cases hit : separator c = true
      · rw [if_pos hit, if_pos hit]
        exact ⟨[] :: parts, last, rfl, rfl⟩
      · rw [if_neg hit, if_neg hit]
        cases parts with
        | nil => exact ⟨[], c :: last, rfl, rfl⟩
        | cons part parts => exact ⟨(c :: part) :: parts, last, rfl, rfl⟩

end Separator

theorem words_cons (c : Char) (rest : Text) (solid : isSpace c = false) :
    ∃ word later, words (c :: rest) = (c :: word) :: later := by
  obtain ⟨part, parts, start⟩ := splitOnP_cons isSpace c rest solid
  exact ⟨part, _, by rw [words, start, List.filter_cons_of_pos rfl]⟩

theorem join_cons (separator first : Text) (rest : List Text) :
    join separator (first :: rest) = first ++ rest.flatMap (separator ++ ·) := by
  induction rest generalizing first with
  | nil => simp [join]
  | cons second rest ih =>
      rw [join, List.intercalate_cons_cons, ← join, ih, List.flatMap_cons, List.append_assoc,
        List.append_assoc]

theorem join_concat (separator last : Text) (parts : List Text) :
    join separator (parts ++ [last]) = parts.flatMap (· ++ separator) ++ last := by
  induction parts with
  | nil => simp [join]
  | cons part rest ih =>
      obtain ⟨second, tail, shape⟩ : ∃ second tail, rest ++ [last] = second :: tail := by
        cases rest <;> exact ⟨_, _, rfl⟩
      rw [shape, join] at ih
      rw [List.cons_append, shape, join, List.intercalate_cons_cons, ih, List.flatMap_cons]
      simp only [List.append_assoc]

/-! Named entries. -/

section Named

variable {Entry : Type} (name : Entry → Text)

theorem find_put (entry : Entry) (entries : List Entry) (other : Text) :
    (put name entry entries).find? (fun found => name found = other) =
      if name entry = other then some entry
      else entries.find? fun found => name found = other := by
  induction entries with
  | nil => by_cases hit : name entry = other <;> simp [put, hit]
  | cons first rest ih =>
      by_cases same : name first = name entry
      · by_cases hit : name entry = other <;> simp [put, same, hit]
      · rw [put, if_neg same]
        by_cases hit : name first = other
        · have different : name entry ≠ other := fun equal => same (hit.trans equal.symm)
          simp [hit, different]
        · simp [hit, ih]

theorem put_fresh (entry : Entry) (entries : List Entry) (fresh : name entry ∉ entries.map name) :
    put name entry entries = entries ++ [entry] := by
  induction entries with
  | nil => rfl
  | cons first rest ih =>
      rw [List.map_cons, List.mem_cons, not_or] at fresh
      rw [put, if_neg (Ne.symm fresh.1), ih fresh.2, List.cons_append]

end Named

/-! White space around text. -/

/-- Text with no white space at its ends. -/
def Solid (text : Text) : Prop :=
  (∀ c, text.head? = some c → isSpace c = false) ∧
    ∀ c, text.getLast? = some c → isSpace c = false

theorem dropWhile_solid (text : Text) (solid : ∀ c, text.head? = some c → isSpace c = false) :
    text.dropWhile isSpace = text := by
  cases text with
  | nil => rfl
  | cons c rest => rw [List.dropWhile_cons_of_neg (by simp [solid c rfl])]

theorem trim_solid (text : Text) (solid : Solid text) : trim text = text := by
  have back : text.reverse.dropWhile isSpace = text.reverse := by
    apply dropWhile_solid
    intro c last
    rw [List.head?_reverse] at last
    exact solid.2 c last
  rw [trim, trimStart, dropWhile_solid text solid.1, trimEnd, back, List.reverse_reverse]

theorem trim_cons_space (c : Char) (text : Text) (blank : isSpace c = true) :
    trim (c :: text) = trim text := by
  rw [trim, trim, trimStart, trimStart, List.dropWhile_cons_of_pos blank]

/-- White space in the middle does not show at the ends. -/
theorem solid_append (front middle back : Text) (some : front ≠ [] ∧ back ≠ [])
    (solid : Solid front ∧ Solid back) : Solid (front ++ middle ++ back) := by
  constructor
  · intro c first
    cases front with
    | nil => exact absurd rfl some.1
    | cons d rest => exact solid.1.1 c first
  · intro c last
    rw [List.getLast?_append, List.getLast?_eq_some_getLast some.2, Option.some_or,
      ← List.getLast?_eq_some_getLast some.2] at last
    exact solid.2.2 c last

theorem solid_enclosed (first last : Char) (body : Text) (outer : isSpace first = false)
    (inner : isSpace last = false) : Solid (first :: body ++ [last]) := by
  constructor
  · intro c found
    cases found
    exact outer
  · intro c found
    rw [List.getLast?_concat] at found
    cases found
    exact inner

/-- White space and nothing else. -/
def Blank (text : Text) : Prop := ∀ c ∈ text, isSpace c = true

instance (text : Text) : Decidable (Blank text) :=
  decidable_of_iff (text.all isSpace = true) List.all_eq_true

theorem blank_lacks (text : Text) (blank : Blank text) (c : Char) (solid : isSpace c = false) :
    c ∉ text := by
  intro member
  rw [blank c member] at solid
  cases solid

theorem blank_append (front back : Text) : Blank (front ++ back) ↔ Blank front ∧ Blank back :=
  List.forall_mem_append

theorem dropWhile_blank (front rest : Text) (blank : Blank front)
    (solid : ∀ c, rest.head? = some c → isSpace c = false) :
    (front ++ rest).dropWhile isSpace = rest := by
  rw [List.dropWhile_append_of_pos blank, dropWhile_solid rest solid]

theorem trim_padded (front core back : Text) (blank : Blank front ∧ Blank back)
    (solid : Solid core) : trim (front ++ core ++ back) = core := by
  have reversed : Blank back.reverse := fun c member => blank.2 c (List.mem_reverse.mp member)
  cases core with
  | nil =>
      have all : Blank (front ++ [] ++ back) := by
        rw [List.append_nil]
        exact (blank_append front back).mpr blank
      have nothing := dropWhile_blank _ [] all (by simp)
      rw [List.append_nil] at nothing
      rw [trim, trimStart, nothing]
      rfl
  | cons c rest =>
      have start : (front ++ (c :: rest) ++ back).dropWhile isSpace = (c :: rest) ++ back := by
        rw [List.append_assoc]
        exact dropWhile_blank front _ blank.1 fun d first => solid.1 d first
      have stop : ((c :: rest) ++ back).reverse.dropWhile isSpace = (c :: rest).reverse := by
        rw [List.reverse_append]
        refine dropWhile_blank _ _ reversed fun d last => ?_
        rw [List.head?_reverse] at last
        exact solid.2 d last
      rw [trim, trimStart, start, trimEnd, stop, List.reverse_reverse]

theorem trimEnd_parts (text : Text) : ∃ back, Blank back ∧ text = trimEnd text ++ back := by
  refine ⟨(text.reverse.takeWhile isSpace).reverse, ?_, ?_⟩
  · intro c member
    exact List.all_eq_true.mp List.all_takeWhile c (List.mem_reverse.mp member)
  · rw [trimEnd, ← List.reverse_append, List.takeWhile_append_dropWhile, List.reverse_reverse]

theorem trim_parts (text : Text) :
    ∃ front back, (Blank front ∧ Blank back) ∧ text = front ++ trim text ++ back := by
  obtain ⟨back, blank, rest⟩ := trimEnd_parts (trimStart text)
  refine ⟨text.takeWhile isSpace, back, ⟨List.all_eq_true.mp List.all_takeWhile, blank⟩, ?_⟩
  rw [List.append_assoc, trim, ← rest, trimStart, List.takeWhile_append_dropWhile]

theorem dropWhile_head (text : Text) (c : Char)
    (first : (text.dropWhile isSpace).head? = some c) : isSpace c = false := by
  have tested := List.head?_dropWhile_not isSpace text
  rwa [first] at tested

theorem trim_solid_ends (text : Text) : Solid (trim text) := by
  obtain ⟨back, -, rest⟩ := trimEnd_parts (trimStart text)
  constructor
  · intro c first
    apply dropWhile_head text
    rw [trim] at first
    rw [← trimStart, rest, List.head?_append, first, Option.some_or]
  · intro c last
    rw [trim, trimEnd, List.getLast?_reverse] at last
    exact dropWhile_head _ c last

theorem trim_surrounded (front text back : Text) (blank : Blank front ∧ Blank back) :
    trim (front ++ text ++ back) = trim text := by
  obtain ⟨inner, outer, padding, parts⟩ := trim_parts text
  have whole : front ++ text ++ back = (front ++ inner) ++ trim text ++ (outer ++ back) := by
    conv => lhs; rw [parts]
    simp only [List.append_assoc]
  rw [whole]
  exact trim_padded _ _ _ ⟨(blank_append _ _).mpr ⟨blank.1, padding.1⟩,
    (blank_append _ _).mpr ⟨padding.2, blank.2⟩⟩ (trim_solid_ends text)

theorem trim_eq_nil_iff (text : Text) : trim text = [] ↔ Blank text := by
  constructor
  · intro empty
    obtain ⟨front, back, blank, parts⟩ := trim_parts text
    rw [parts, empty, List.append_nil]
    exact (blank_append front back).mpr blank
  · intro blank
    have padded := trim_padded text [] [] ⟨blank, fun _ => nofun⟩ ⟨fun _ => nofun, fun _ => nofun⟩
    rwa [List.append_nil, List.append_nil] at padded

theorem comma_solid (c : Char) (blank : isSpace c = true) : decide (c = ',') = false := by
  rw [decide_eq_false_iff_not]
  rintro rfl
  exact absurd blank (by decide)

/-- Trimmed parts do not depend on the white space around the whole. -/
theorem map_trim_splitOnP (separator : Char → Bool)
    (apart : ∀ c, isSpace c = true → separator c = false) (text : Text) :
    ((trim text).splitOnP separator).map trim = (text.splitOnP separator).map trim := by
  obtain ⟨front, back, blank, parts⟩ := trim_parts text
  have nothing : Blank [] := fun _ => nofun
  have atFront (part : Text) : trim (front ++ part) = trim part := by
    simpa using trim_surrounded front part [] ⟨blank.1, nothing⟩
  have atBack (part : Text) : trim (part ++ back) = trim part := by
    simpa using trim_surrounded [] part back ⟨nothing, blank.2⟩
  obtain ⟨part, others, inner, outer⟩ := splitOnP_front separator front (trim text ++ back)
    fun c member => apart c (blank.1 c member)
  obtain ⟨firsts, last, core, padded⟩ := splitOnP_back separator (trim text) back
    fun c member => apart c (blank.2 c member)
  calc ((trim text).splitOnP separator).map trim
      = ((trim text ++ back).splitOnP separator).map trim := by
        rw [core, padded, List.map_append, List.map_append, List.map_singleton,
          List.map_singleton, atBack]
    _ = ((front ++ (trim text ++ back)).splitOnP separator).map trim := by
        rw [inner, outer, List.map_cons, List.map_cons, atFront]
    _ = (text.splitOnP separator).map trim := by rw [← List.append_assoc, ← parts]

/-! Lines. -/

theorem splitOnP_unlines (lines : List Text) (whole : ∀ line ∈ lines, '\n' ∉ line) :
    (unlines lines).splitOnP (· = '\n') = lines ++ [[]] := by
  have joined : unlines lines = join ['\n'] (lines ++ [[]]) := by
    rw [join_concat, List.append_nil, unlines]
  rw [joined]
  exact List.splitOn_intercalate '\n'
    (List.forall_mem_append.mpr ⟨whole, List.forall_mem_singleton.mpr List.not_mem_nil⟩)
    (by simp)

theorem closeLines_append (lines : List Text)
    (plain : ∀ line ∈ lines, line.getLast? ≠ some '\r') :
    closeLines (lines ++ [[]]) = lines := by
  induction lines with
  | nil => rfl
  | cons line rest ih =>
      have kept := dropLast_none '\r' line (plain line List.mem_cons_self)
      have later := ih fun other member => plain other (List.mem_cons_of_mem line member)
      obtain ⟨next, tail, shape⟩ : ∃ next tail, rest ++ [[]] = next :: tail := by
        cases rest <;> exact ⟨_, _, rfl⟩
      rw [shape] at later
      rw [List.cons_append, shape, closeLines, kept, later]
      rfl

theorem lines_unlines (texts : List Text) (whole : ∀ line ∈ texts, '\n' ∉ line)
    (plain : ∀ line ∈ texts, line.getLast? ≠ some '\r') : lines (unlines texts) = texts := by
  rw [lines, splitOnP_unlines texts whole, closeLines_append texts plain]

/-! Parts of a text are no longer than the text. -/

theorem length_le_byteLength (text : Text) : text.length ≤ byteLength text := by
  induction text with
  | nil => exact Nat.le_refl 0
  | cons c rest ih =>
      have positive := c.utf8Size_pos
      rw [List.length_cons, byteLength]
      omega

theorem trim_within (text : Text) : trim text <:+: text := by
  obtain ⟨front, back, -, parts⟩ := trim_parts text
  exact ⟨front, back, parts.symm⟩

theorem join_within (separator : Text) (parts : List Text) (part : Text) (member : part ∈ parts) :
    part <:+: join separator parts := by
  cases parts with
  | nil => cases member
  | cons first rest =>
      rw [join_cons]
      rcases List.mem_cons.mp member with rfl | later
      · exact (List.prefix_append _ _).isInfix
      · obtain ⟨before, after, rfl⟩ := List.append_of_mem later
        refine ⟨first ++ before.flatMap (separator ++ ·) ++ separator,
          after.flatMap (separator ++ ·), ?_⟩
        simp

theorem closeLines_front (parts : List Text) (line : Text) (member : line ∈ closeLines parts) :
    ∃ part ∈ parts, line <+: part := by
  fun_induction closeLines parts with
  | case1 => cases member
  | case2 => cases member
  | case3 last _ =>
      obtain rfl := List.mem_singleton.mp member
      exact ⟨line, List.mem_cons_self, List.prefix_refl line⟩
  | case4 part next rest ih =>
      rcases List.mem_cons.mp member with rfl | later
      · refine ⟨part, List.mem_cons_self, ?_⟩
        cases dropped : dropLast? '\r' part with
        | none => exact List.prefix_refl part
        | some front =>
            rw [(dropLast_some_iff '\r' part front).mp dropped]
            exact List.prefix_append front _
      · obtain ⟨other, inRest, shorter⟩ := ih later
        exact ⟨other, List.mem_cons_of_mem part inRest, shorter⟩

theorem lines_within (text line : Text) (member : line ∈ lines text) : line <:+: text := by
  obtain ⟨part, parted, shorter⟩ := closeLines_front _ line member
  have inside := join_within ['\n'] _ part parted
  have whole : join ['\n'] (text.splitOnP (· = '\n')) = text := List.intercalate_splitOn '\n'
  rw [whole] at inside
  exact shorter.isInfix.trans inside

/-- Every line takes up a character, if only its newline. -/
theorem lines_length (text : Text) : (lines text).length ≤ text.length := by
  have longer (part next : Text) (rest : List Text) :
      (closeLines (part :: next :: rest)).length = (closeLines (next :: rest)).length + 1 := by
    rw [closeLines, List.length_cons]
  rw [lines]
  induction text with
  | nil => exact Nat.le_refl 0
  | cons c rest ih =>
      obtain ⟨part, parts, shape⟩ :=
        List.exists_cons_of_ne_nil (List.splitOnP_ne_nil (· = '\n') rest)
      rw [shape] at ih
      rw [List.splitOnP_cons_eq_if_modifyHead, shape, List.length_cons]
      split
      · rw [longer]
        exact Nat.succ_le_succ ih
      · cases parts with
        | nil => simp [closeLines]
        | cons next others =>
            rw [longer] at ih
            rw [List.modifyHead_cons, longer]
            exact Nat.le_succ_of_le ih

end RiscAssembly.Text

namespace RiscAssembly

open Text

/-! Padding. -/

/-- A text with white space around it, or none. -/
def Padded (core text : Text) : Prop :=
  ∃ front back, (Blank front ∧ Blank back) ∧ text = front ++ core ++ back

theorem padded_trim (text : Text) : Padded (trim text) text := trim_parts text

theorem Padded.trim_eq {core text : Text} (padded : Padded core text) (solid : Solid core) :
    trim text = core := by
  obtain ⟨front, back, blank, rfl⟩ := padded
  exact trim_padded front core back blank solid

theorem Padded.trim_trim {core text : Text} (padded : Padded core text) :
    trim text = trim core := by
  obtain ⟨front, back, blank, rfl⟩ := padded
  exact trim_surrounded front core back blank

theorem Padded.within {core text : Text} (padded : Padded core text) : core <:+: text := by
  obtain ⟨front, back, -, parts⟩ := padded
  exact ⟨front, back, parts.symm⟩

theorem Padded.lacks {core text : Text} (padded : Padded core text) (c : Char)
    (solid : isSpace c = false) (absent : c ∉ core) : c ∉ text := by
  obtain ⟨front, back, ⟨before, behind⟩, rfl⟩ := padded
  simp [blank_lacks front before c solid, blank_lacks back behind c solid, absent]

theorem padded_lacks (cores parts : List Text) (padded : List.Forall₂ Padded cores parts)
    (c : Char) (solid : isSpace c = false) (absent : ∀ core ∈ cores, c ∉ core) :
    ∀ part ∈ parts, c ∉ part := by
  induction padded with
  | nil => exact fun _ => nofun
  | cons first _ ih =>
      rw [List.forall_mem_cons] at absent ⊢
      exact ⟨first.lacks c solid absent.1, ih absent.2⟩

/-- Parts that can stand between commas are found again without the white space around them. -/
theorem padded_parts (cores parts : List Text)
    (valid : ∀ core ∈ cores, Solid core ∧ ',' ∉ core)
    (padded : List.Forall₂ Padded cores parts) :
    (∀ part ∈ parts, ',' ∉ part) ∧ parts.map trim = cores := by
  refine ⟨padded_lacks cores parts padded ',' (by decide) fun core member =>
    (valid core member).2, ?_⟩
  induction padded with
  | nil => rfl
  | @cons core part cores parts first _ ih =>
      have trimmed := ih fun other member => valid other (List.mem_cons_of_mem _ member)
      rw [List.map_cons, first.trim_eq (valid core List.mem_cons_self).1, trimmed]

theorem solid_of_free (text : Text) (free : ∀ c ∈ text, isSpace c = false) : Solid text := by
  constructor
  · intro c first
    exact free c (List.mem_of_head? first)
  · intro c last
    exact free c (List.mem_of_getLast? last)

end RiscAssembly
