import RiscAssembly.Text.Basic

/-!
Lines of code: what is left of a source line without its comment and the white space
around it. A line with nothing left is dropped, but it counts, so that every line keeps
its number. A `#` starts a comment unless it stands inside double quotes, where a
backslash takes the special meaning from the character after it.
-/

namespace RiscAssembly

structure Line where
  number : Nat
  code : Text
  deriving DecidableEq

inductive QuoteState where
  | outside
  | inside
  | escaped
  deriving DecidableEq

def stripCommentFrom : QuoteState → Text → Text
  | _, [] => []
  | .outside, c :: rest =>
      if c = '#' then []
      else c :: stripCommentFrom (if c = '\"' then .inside else .outside) rest
  | .inside, c :: rest =>
      c :: stripCommentFrom
        (if c = '\\' then .escaped else if c = '\"' then .outside else .inside) rest
  | .escaped, c :: rest => c :: stripCommentFrom .inside rest

def stripComment (raw : Text) : Text := stripCommentFrom .outside raw

def codeOf (raw : Text) : Text := Text.trim (stripComment raw)

/-- The lines of code among raw lines, the first of which has the given number. -/
def codeLinesFrom : Nat → List Text → List Line
  | _, [] => []
  | number, raw :: rest =>
      if (codeOf raw).isEmpty then codeLinesFrom (number + 1) rest
      else ⟨number, codeOf raw⟩ :: codeLinesFrom (number + 1) rest

def codeLines (source : Text) : List Line := codeLinesFrom 1 (Text.lines source)

end RiscAssembly
