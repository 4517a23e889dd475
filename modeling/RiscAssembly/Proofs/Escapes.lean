import RiscAssembly.Proofs.StringLiterals

/-!
Escapes and the texts they stand for. The body of a string literal is accepted exactly if
every backslash in it has the letter of the newline behind it, and fails at the first one
that has not. What comes out is a text without backslashes, and every such text comes out
of one body without newlines: the one that has them escaped.
-/

namespace RiscAssembly

open Text

/-- Every backslash has the letter of the newline right behind it. -/
def WellEscaped (body : Text) : Prop :=
  ∀ front rest, body = front ++ '\\' :: rest → rest.head? = some 'n'

/-- The first backslash that has another character behind it, or none: what is before it and
what is behind it. -/
structure FirstBroken (body front rest : Text) : Prop where
  parts : body = front ++ '\\' :: rest
  before : WellEscaped front
  broken : rest.head? ≠ some 'n'

theorem wellEscaped_nil : WellEscaped [] := by
  intro front rest parts
  cases front <;> cases parts

theorem wellEscaped_cons_iff (c : Char) (body : Text) :
    WellEscaped (c :: body) ↔ (c = '\\' → body.head? = some 'n') ∧ WellEscaped body := by
  constructor
  · intro escaped
    refine ⟨?_, ?_⟩
    · rintro rfl
      exact escaped [] body rfl
    · intro front rest parts
      exact escaped (c :: front) rest (by rw [parts, List.cons_append])
  · rintro ⟨first, later⟩ front rest parts
    cases front with
    | nil =>
        cases parts
        exact first rfl
    | cons d front =>
        cases parts
        exact later front rest rfl

theorem exists_firstBroken (body : Text) (wrong : ¬ WellEscaped body) :
    ∃ front rest, FirstBroken body front rest := by
  induction body with
  | nil => exact absurd wellEscaped_nil wrong
  | cons c body ih =>
      by_cases first : c = '\\' → body.head? = some 'n'
      · have later : ¬ WellEscaped body := fun escaped =>
          wrong ((wellEscaped_cons_iff c body).mpr ⟨first, escaped⟩)
        obtain ⟨front, rest, rfl, before, broken⟩ := ih later
        refine ⟨c :: front, rest, rfl, (wellEscaped_cons_iff c front).mpr ⟨?_, before⟩, broken⟩
        intro backslash
        -- The letter behind it is not the broken backslash, so it comes before that one.
        have letter := first backslash
        cases front with
        | nil => cases letter
        | cons d front => exact letter
      · obtain ⟨rfl, broken⟩ := Classical.not_imp.mp first
        exact ⟨[], body, rfl, wellEscaped_nil, broken⟩

/-! Reading a body. -/

theorem unescape_ok_iff (body : Text) :
    (∃ characters, unescape body = .ok characters) ↔ WellEscaped body := by
  constructor
  · rintro ⟨characters, read⟩
    have unescaped := Directive.unescape_ok body characters read
    clear read
    induction unescaped with
    | done => exact wellEscaped_nil
    | newline body characters _ ih => simp [wellEscaped_cons_iff, ih]
    | plain c body characters ordinary _ ih => simp [wellEscaped_cons_iff, ordinary, ih]
  · intro escaped
    fun_induction unescape body with
    | case1 => exact ⟨[], rfl⟩
    | case2 => cases ((wellEscaped_cons_iff _ _).mp escaped).1 rfl
    | case3 rest ih =>
        simp only [wellEscaped_cons_iff] at escaped
        obtain ⟨tail, later⟩ := ih escaped.2.2
        exact ⟨'\n' :: tail, by rw [later]; rfl⟩
    | case4 c rest other =>
        cases ((wellEscaped_cons_iff _ _).mp escaped).1 rfl
        exact absurd rfl other
    | case5 c rest _ _ _ ih =>
        obtain ⟨tail, later⟩ := ih ((wellEscaped_cons_iff c rest).mp escaped).2
        exact ⟨c :: tail, by rw [later]; rfl⟩

/-- What has been read makes no difference to what follows. -/
theorem unescape_append (front characters rest : Text) (unescaped : Unescaped front characters) :
    unescape (front ++ rest) = (do let tail ← unescape rest; return characters ++ tail) := by
  induction unescaped with
  | done =>
      rw [List.nil_append]
      cases unescape rest <;> rfl
  | newline body characters _ ih =>
      rw [List.cons_append, List.cons_append, unescape, ih]
      cases unescape rest <;> rfl
  | plain c body characters ordinary _ ih =>
      rw [List.cons_append, unescape, ih]
      · cases unescape rest <;> rfl
      · simp [ordinary]
      · simp [ordinary]
      · simp [ordinary]

theorem FirstBroken.unescape_eq {body front rest : Text} (first : FirstBroken body front rest) :
    unescape body = .error (.unsupportedEscape rest.head?) := by
  obtain ⟨rfl, before, broken⟩ := first
  obtain ⟨characters, read⟩ := (unescape_ok_iff front).mpr before
  have here : unescape ('\\' :: rest) = .error (.unsupportedEscape rest.head?) := by
    cases rest with
    | nil => rfl
    | cons c rest =>
        rw [unescape]
        · rfl
        · intro same
          exact broken (congrArg some same)
  rw [unescape_append front characters _ (Directive.unescape_ok front characters read), here]
  rfl

theorem unescape_error_iff (body : Text) (cause : SourceError) :
    unescape body = .error cause ↔
      ∃ front rest, FirstBroken body front rest ∧ cause = .unsupportedEscape rest.head? := by
  constructor
  · intro failed
    have wrong : ¬ WellEscaped body := by
      intro escaped
      obtain ⟨characters, read⟩ := (unescape_ok_iff body).mpr escaped
      rw [failed] at read
      cases read
    obtain ⟨front, rest, first⟩ := exists_firstBroken body wrong
    have same := first.unescape_eq
    rw [failed] at same
    cases same
    exact ⟨front, rest, first, rfl⟩
  · rintro ⟨front, rest, first, rfl⟩
    exact first.unescape_eq

/-! What comes out. -/

namespace Unescaped

variable {body characters : Text} (unescaped : Unescaped body characters)

include unescaped

theorem plain_characters : '\\' ∉ characters := by
  induction unescaped with
  | done => exact List.not_mem_nil
  | newline body characters _ ih => simp [ih]
  | plain c body characters ordinary _ ih => simp [ih, Ne.symm ordinary]

/-- Each escape is one character less. -/
theorem length_add_count : characters.length + body.count '\\' = body.length := by
  induction unescaped with
  | done => rfl
  | newline body characters _ ih =>
      rw [List.count_cons_self, List.count_cons_of_ne (by decide), List.length_cons,
        List.length_cons, List.length_cons]
      omega
  | plain c body characters ordinary _ ih =>
      rw [List.count_cons_of_ne ordinary, List.length_cons, List.length_cons]
      omega

theorem escapeNewlines_eq (unbroken : '\n' ∉ body) : escapeNewlines characters = body := by
  induction unescaped with
  | done => rfl
  | newline body characters _ ih =>
      rw [List.mem_cons, List.mem_cons, not_or, not_or] at unbroken
      rw [escapeNewlines_cons, if_pos rfl, ih unbroken.2.2]
      rfl
  | plain c body characters ordinary _ ih =>
      rw [List.mem_cons, not_or] at unbroken
      rw [escapeNewlines_cons, if_neg (Ne.symm unbroken.1), ih unbroken.2]
      rfl

end Unescaped

/-- Bodies are accepted by their backslashes alone and otherwise refused for the first one
that is wrong; between bodies without newlines and texts without backslashes, unescaping and
escaping undo each other. -/
theorem unescape_undoes_escaping :
    (∀ body, (∃ characters, unescape body = .ok characters) ↔ WellEscaped body) ∧
    (∀ body characters, unescape body = .ok characters →
      '\\' ∉ characters ∧ characters.length + body.count '\\' = body.length ∧
        ('\n' ∉ body → escapeNewlines characters = body)) ∧
    (∀ characters, '\\' ∉ characters →
      '\n' ∉ escapeNewlines characters ∧ unescape (escapeNewlines characters) = .ok characters) ∧
    ∀ body cause, unescape body = .error cause ↔
      ∃ front rest, FirstBroken body front rest ∧ cause = .unsupportedEscape rest.head? ∧
        cause.message =
          "Unsupported escape sequence: ".toList ++ quoted ('\\' :: rest.take 1) := by
  refine ⟨unescape_ok_iff, ?_, ?_, ?_⟩
  · intro body characters read
    have unescaped := Directive.unescape_ok body characters read
    exact ⟨unescaped.plain_characters, unescaped.length_add_count, unescaped.escapeNewlines_eq⟩
  · intro characters plain
    have unescaped := unescaped_escapeNewlines characters fun c member same =>
      plain (same ▸ member)
    exact ⟨escapeNewlines_whole characters, Directive.unescape_complete _ _ unescaped⟩
  · intro body cause
    rw [unescape_error_iff]
    constructor
    · rintro ⟨front, rest, first, rfl⟩
      refine ⟨front, rest, first, rfl, ?_⟩
      cases rest <;> rfl
    · rintro ⟨front, rest, first, named, -⟩
      exact ⟨front, rest, first, named⟩

/-- Two escapes next to each other; then a backslash that should be escaped by another, behind
an escape. -/
theorem unescape_undoes_escaping_adjacent :
    let body := "\\n\\na".toList
    let characters := "\n\na".toList
    unescape body = .ok characters ∧ '\\' ∉ characters ∧ '\n' ∉ body ∧
      escapeNewlines characters = body ∧
      unescape (escapeNewlines characters) = .ok characters ∧
      unescape "\\n\\\\n".toList = .error (.unsupportedEscape (some '\\')) := by
  intro body characters
  obtain ⟨escaped, accepted, written, refused⟩ := unescape_undoes_escaping
  have unbroken : '\n' ∉ body := by decide
  obtain ⟨plain, -, back⟩ := accepted body characters rfl
  have first : FirstBroken "\\n\\\\n".toList "\\n".toList "\\n".toList :=
    ⟨rfl, (escaped _).mp ⟨_, rfl⟩, by decide⟩
  exact ⟨rfl, plain, unbroken, back unbroken, (written characters plain).2,
    (refused _ _).mpr ⟨_, _, first, rfl, rfl⟩⟩

end RiscAssembly
