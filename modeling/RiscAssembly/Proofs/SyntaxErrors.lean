import RiscAssembly.Data.Segment
import RiscAssembly.Proofs.Outcome
import RiscAssembly.Source.Statement

/-!
What a line by itself can be refused for: its label, its directive, an escape or a literal.
Reading a statement or a line of data never finds fault with the structure of the source,
and never runs out of offsets: these errors come from what stands before the line. Nor does
it ever break a check of the assembler itself.
-/

namespace RiscAssembly

def SourceError.IsOfLine : SourceError → Prop
  | .labelSyntax _ => True
  | .unsupportedDirective _ => True
  | .unsupportedEscape _ => True
  | .instruction (.literalFormat _) => True
  | _ => False

def SourceError.IsSyntax : SourceError → Prop
  | .structural _ => False
  | .dataOverflow _ => False
  | _ => True

/-- Whatever error the computation has is one of syntax. -/
def FailsBySyntax {Value : Type} (outcome : Except SourceError Value) : Prop :=
  ∀ cause, outcome = .error cause → cause.IsSyntax

theorem failsBySyntax_of_line {Value : Type} {outcome : Except SourceError Value}
    (ofLine : FailsWithin SourceError.IsOfLine outcome) : FailsBySyntax outcome := by
  intro cause failed
  have refused := ofLine cause failed
  cases cause with
  | structural _ => exact refused
  | dataOverflow _ => exact refused
  | _ => trivial

theorem asSource_failsBySyntax {Value : Type} (outcome : Except InstructionError Value) :
    FailsBySyntax (asSource outcome) := by
  intro cause failed
  cases outcome with
  | error inner =>
      cases failed
      trivial
  | ok value => cases failed

/-! Statements. -/

theorem parseLabel_ofLine (code : Text) : FailsWithin SourceError.IsOfLine (parseLabel code) := by
  unfold parseLabel
  split
  · exact failsWithin_ok _ _
  · dsimp only
    split
    · exact failsWithin_error _ _ trivial
    · exact failsWithin_ok _ _

theorem statement_ofLine (code : Text) :
    FailsWithin SourceError.IsOfLine (Statement.parse code) := by
  refine (parseLabel_ofLine code).bind fun label _ => ?_
  cases label with
  | some name => exact failsWithin_ok _ _
  | none =>
      dsimp only
      split
      · exact failsWithin_error _ _ trivial
      · exact failsWithin_ok _ _

theorem statement_failsBySyntax (code : Text) : FailsBySyntax (Statement.parse code) :=
  failsBySyntax_of_line (statement_ofLine code)

/-! Lines of data. -/

theorem twosComplement_ofLine (literal : Text) :
    FailsWithin SourceError.IsOfLine (asSource (Literal.twosComplement literal)) := by
  unfold Literal.twosComplement
  split
  · exact failsWithin_error _ _ trivial
  · exact failsWithin_ok _ _

theorem unescape_ofLine (body : Text) : FailsWithin SourceError.IsOfLine (unescape body) := by
  fun_induction unescape body with
  | case1 => exact failsWithin_ok _ _
  | case2 => exact failsWithin_error _ _ trivial
  | case3 rest ih => exact ih.bind fun _ _ => failsWithin_ok _ _
  | case4 => exact failsWithin_error _ _ trivial
  | case5 c rest _ _ _ ih => exact ih.bind fun _ _ => failsWithin_ok _ _

namespace Directive

theorem parseWords_ofLine (arguments : Text) :
    FailsWithin SourceError.IsOfLine (parseWords arguments) := by
  have literals (values : List Text) : FailsWithin SourceError.IsOfLine
      (values.mapM fun value => asSource (Literal.twosComplement value)) := by
    induction values with
    | nil => exact failsWithin_ok _ _
    | cons value rest ih =>
        rw [List.mapM_cons]
        refine (twosComplement_ofLine value).bind fun _ _ => ?_
        exact ih.bind fun _ _ => failsWithin_ok _ _
  exact (literals _).bind fun _ _ => failsWithin_ok _ _

theorem parseString_ofLine (arguments : Text) :
    FailsWithin SourceError.IsOfLine (parseString arguments) := by
  unfold parseString
  split
  · exact failsWithin_error _ _ trivial
  · refine (unescape_ofLine _).bind fun characters _ => ?_
    split
    · exact failsWithin_ok _ _
    · exact failsWithin_error _ _ trivial

theorem parseSpace_ofLine (arguments : Text) :
    FailsWithin SourceError.IsOfLine (parseSpace arguments) := by
  unfold parseSpace
  split
  · exact failsWithin_ok _ _
  · exact failsWithin_error _ _ trivial

theorem parse_ofLine (code : Text) : FailsWithin SourceError.IsOfLine (parse code) := by
  unfold parse
  dsimp only
  split
  · exact parseWords_ofLine _
  · split
    · exact parseString_ofLine _
    · split
      · exact parseSpace_ofLine _
      · exact failsWithin_error _ _ trivial

end Directive

theorem entry_ofLine (code : Text) : FailsWithin SourceError.IsOfLine (DataEntry.parse code) := by
  unfold DataEntry.parse
  split
  · exact failsWithin_ok _ _
  · split
    · exact (Directive.parse_ofLine _).bind fun _ _ => failsWithin_ok _ _
    · split
      · exact failsWithin_error _ _ trivial
      · refine (parseLabel_ofLine _).bind fun label _ => ?_
        split
        · exact failsWithin_ok _ _
        · exact (Directive.parse_ofLine _).bind fun _ _ => failsWithin_ok _ _

theorem entry_failsBySyntax (code : Text) : FailsBySyntax (DataEntry.parse code) :=
  failsBySyntax_of_line (entry_ofLine code)

end RiscAssembly
