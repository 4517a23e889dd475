import RiscAssembly.Text.Basic

/-!
Terminal styles. How a style is switched on and off is up to the terminal and not settled
here: a styling frames a text with something that may be empty but does not break the line.
-/

namespace RiscAssembly

inductive Style where
  | bold
  | dim
  | underline
  | red
  | green
  | yellow
  | blue
  | cyan
  deriving DecidableEq

/-- Text that stands on one line. -/
def Unbroken (text : Text) : Prop := ∀ c ∈ text, c ≠ '\n' ∧ c ≠ '\r'

instance (text : Text) : Decidable (Unbroken text) :=
  decidable_of_iff (text.all (fun c => decide (c ≠ '\n' ∧ c ≠ '\r')) = true)
    (by simp [Unbroken])

/-- What goes before and behind a text in styles that apply together. -/
structure Styling where
  opening : List Style → Text
  closing : List Style → Text
  opening_unbroken : ∀ styles, Unbroken (opening styles)
  closing_unbroken : ∀ styles, Unbroken (closing styles)

def Styling.styled (styling : Styling) (styles : List Style) (text : Text) : Text :=
  styling.opening styles ++ text ++ styling.closing styles

end RiscAssembly
