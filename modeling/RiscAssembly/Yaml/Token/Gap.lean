import RiscAssembly.Yaml.Token

/-!
Gaps between the words of a quoted or plain scalar. Blanks on one line are kept. Where
lines meet the blanks are lost, and so is the line break: it becomes a space, or nothing if
empty lines follow, which are kept as line breaks.
-/

namespace RiscAssembly.Yaml

open Text

inductive Gap where
  | blanks (text : Text)
  /-- The first line break, if it was not escaped, and the further ones. -/
  | lines (first further : Text)
  deriving DecidableEq

namespace Gap

def addBlank (c : Char) : Gap → Gap
  | .blanks text => .blanks (text ++ [c])
  | .lines first further => .lines first further

def addBreak (text : Text) : Gap → Gap
  | .blanks _ => .lines text []
  | .lines first further => .lines first (further ++ text)

def isBroken : Gap → Bool
  | .blanks _ => false
  | .lines .. => true

/-- What the gap stands for. -/
def text : Gap → Text
  | .blanks text => text
  | .lines ['\n'] [] => [' ']
  | .lines ['\n'] further => further
  | .lines first further => first ++ further

end Gap

/-- The gap from here on, behind a part of it that has been read. It fails at the first
blank that is refused. -/
def gapFrom (refuses : Gap → Mark → Char → Bool) :
    Gap → Mark → Text → Except Mark (Gap × Cursor)
  | gap, mark, [] => .ok (gap, ⟨mark, []⟩)
  | gap, mark, '\r' :: '\n' :: rest => gapFrom refuses (gap.addBreak ['\n']) (mark.below 2) rest
  | gap, mark, c :: rest =>
      if isBlank c then
        if refuses gap mark c then .error mark
        else gapFrom refuses (gap.addBlank c) mark.right rest
      else if isLineBreak c then
        gapFrom refuses (gap.addBreak (breakText c)) (mark.below 1) rest
      else .ok (gap, ⟨mark, c :: rest⟩)

end RiscAssembly.Yaml
