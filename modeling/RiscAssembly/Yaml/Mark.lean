import RiscAssembly.Text.Numeral

/-!
The classes of characters that YAML distinguishes, places in a text, and the text from a
place on. A carriage return with a newline behind it is one line break; in a value every
line break is a newline, except that the two Unicode separators stay what they are.
-/

namespace RiscAssembly.Yaml

open Text

def isReadable (c : Char) : Bool :=
  inRanges [(0x09, 0x0A), (0x0D, 0x0D), (0x20, 0x7E), (0x85, 0x85), (0xA0, 0xD7FF),
    (0xE000, 0xFFFD), (0x10000, 0x10FFFF)] c

/-- What can be shown. The byte order mark cannot. -/
def isPrintable (c : Char) : Bool :=
  inRanges [(0x20, 0x7E), (0xA0, 0xD7FF), (0xE000, 0xFEFE), (0xFF00, 0xFFFD),
    (0x10000, 0x10FFFF)] c

def isBlank (c : Char) : Bool := decide (c = ' ') || decide (c = '\t')

def isLineBreak (c : Char) : Bool := [0x0A, 0x0D, 0x85, 0x2028, 0x2029].contains c.toNat

/-- What stands between two words. The zero character counts too. -/
def isSeparator (c : Char) : Bool := isBlank c || isLineBreak c || decide (c.toNat = 0)

def endsWord : Text → Bool
  | [] => true
  | c :: _ => isSeparator c

def isNameCharacter (c : Char) : Bool :=
  inRanges [(0x30, 0x39), (0x41, 0x5A), (0x5F, 0x5F), (0x61, 0x7A), (0x2D, 0x2D)] c

/-- The characters, lines and characters of the line that lie before a place. -/
structure Mark where
  index : Nat := 0
  line : Nat := 0
  column : Nat := 0
  deriving DecidableEq

namespace Mark

def right (mark : Mark) : Mark := ⟨mark.index + 1, mark.line, mark.column + 1⟩

def below (mark : Mark) (count : Nat) : Mark := ⟨mark.index + count, mark.line + 1, 0⟩

def isStart (mark : Mark) : Bool := decide (mark.line = 0) && decide (mark.column = 0)

def isBeside (mark other : Mark) : Bool :=
  decide (mark.line = other.line) && decide (mark.column = other.column)

/-- Lines and columns are counted from one. The start of the text is not named. -/
def suffix (mark : Mark) : Text :=
  if mark.isStart then []
  else " at line ".toList ++ decimal (mark.line + 1)
    ++ " column ".toList ++ decimal (mark.column + 1)

end Mark

structure Cursor where
  mark : Mark
  rest : Text
  deriving DecidableEq

/-- The text that a line break stands for in a value. -/
def breakText (c : Char) : Text :=
  if c.toNat = 0x2028 ∨ c.toNat = 0x2029 then [c] else ['\n']

namespace Cursor

def next? (cursor : Cursor) : Option Char := cursor.rest.head?

def isAt (cursor : Cursor) (c : Char) : Bool := decide (cursor.rest.head? = some c)

def isAtOneOf (cursor : Cursor) (characters : String) : Bool :=
  cursor.rest.head?.any characters.toList.contains

def endsWord (cursor : Cursor) : Bool := Yaml.endsWord cursor.rest

def endsLine (cursor : Cursor) : Bool := cursor.rest.head?.all isLineBreak

def skip : Cursor → Cursor
  | ⟨mark, []⟩ => ⟨mark, []⟩
  | ⟨mark, _ :: rest⟩ => ⟨mark.right, rest⟩

def skipWhileFrom (holds : Char → Bool) : Mark → Text → Cursor
  | mark, [] => ⟨mark, []⟩
  | mark, c :: rest =>
      if holds c then skipWhileFrom holds mark.right rest else ⟨mark, c :: rest⟩

def skipWhile (holds : Char → Bool) (cursor : Cursor) : Cursor :=
  skipWhileFrom holds cursor.mark cursor.rest

def takeWhile (holds : Char → Bool) (cursor : Cursor) : Text × Cursor :=
  (cursor.rest.takeWhile holds, cursor.skipWhile holds)

/-- The line break at the cursor, if one is there, and what follows it. -/
def takeBreak : Cursor → Text × Cursor
  | ⟨mark, '\r' :: '\n' :: rest⟩ => (['\n'], ⟨mark.below 2, rest⟩)
  | ⟨mark, c :: rest⟩ =>
      if isLineBreak c then (breakText c, ⟨mark.below 1, rest⟩) else ([], ⟨mark, c :: rest⟩)
  | ⟨mark, []⟩ => ([], ⟨mark, []⟩)

def skipBreak (cursor : Cursor) : Cursor := cursor.takeBreak.2

/-- A comment reaches to the end of its line. -/
def skipComment (cursor : Cursor) : Cursor :=
  if cursor.isAt '#' then cursor.skipWhile (fun c => !isLineBreak c) else cursor

def startsWith (start : String) (cursor : Cursor) : Bool := start.toList.isPrefixOf cursor.rest

/-- Three dashes or three dots at the start of a line, as a word of their own. -/
def isAtDocumentMark (cursor : Cursor) : Bool :=
  decide (cursor.mark.column = 0) && (cursor.startsWith "---" || cursor.startsWith "...")
    && Yaml.endsWord (cursor.rest.drop 3)

end Cursor

end RiscAssembly.Yaml
