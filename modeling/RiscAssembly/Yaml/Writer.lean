import RiscAssembly.Yaml.Artifact
import RiscAssembly.Yaml.Mark
import RiscAssembly.Yaml.Scalar

/-!
Writing YAML in block style, as the usual library does. A text is written plain if it is then
read as that text; otherwise in single quotes, or in double quotes if it has characters that
cannot be shown. Sequences stand at the column of their key, mappings two columns further in, and
no line is ever folded.
-/

namespace RiscAssembly.Yaml

open Text

/-- A colon before the end of a word, or a number sign behind one. -/
def hasIndicator : Text → Bool
  | [] => false
  | c :: rest =>
      (decide (c = ':') && endsWord rest) || (isSeparator c && decide (rest.head? = some '#'))
        || hasIndicator rest

def startsWith (start : String) (text : Text) : Bool := start.toList.isPrefixOf text

def startIndicators : Text := "#,[]\x7b\x7d&*!|>'\"%@`".toList

/-- Marks that only count as such at the end of a word. -/
def startMarks : Text := "-?:".toList

def hasStartIndicator : Text → Bool
  | [] => false
  | c :: rest => startIndicators.contains c || (startMarks.contains c && endsWord rest)

def allowsPlain (text : Text) : Bool :=
  !(startsWith "---" text || startsWith "..." text || hasStartIndicator text || hasIndicator text
    || decide (text.head? = some ' ') || decide (text.getLast? = some ' '))

/-- Whether a plain text would be read as something else, or nearly so. -/
def isAmbiguous (text : Text) : Bool :=
  decide (Scalar.ofPlain text ≠ .string) || hasLeadingZeros text

def singleQuoted (text : Text) : Text :=
  "'".toList ++ text.flatMap (fun c => if c = '\'' then "''".toList else [c]) ++ "'".toList

/-- The escapes that have a letter of their own. -/
def letterEscapes : List (Nat × Char) :=
  [(0x00, '0'), (0x07, 'a'), (0x08, 'b'), (0x09, 't'), (0x0A, 'n'), (0x0B, 'v'), (0x0C, 'f'),
    (0x0D, 'r'), (0x1B, 'e'), (0x22, '\"'), (0x5C, '\\'), (0x85, 'N')]

def escaped (c : Char) : Text :=
  match letterEscapes.find? (fun entry => entry.1 = c.toNat) with
  | some (_, letter) => ['\\', letter]
  | none =>
      if isPrintable c then [c]
      else if c.toNat ≤ 0xFF then "\\x".toList ++ hexadecimal 2 c.toNat
      else if c.toNat ≤ 0xFFFF then "\\u".toList ++ hexadecimal 4 c.toNat
      else "\\U".toList ++ hexadecimal 8 c.toNat

def doubleQuoted (text : Text) : Text := "\"".toList ++ text.flatMap escaped ++ "\"".toList

def scalar (text : Text) : Text :=
  if !text.all isPrintable then doubleQuoted text
  else if isAmbiguous text || !allowsPlain text then singleQuoted text
  else text

/-- A text as an element of a sequence. A lone newline is a block that keeps it. -/
def elementLines (text : Text) : List Text :=
  if text = ['\n'] then ["|2+".toList, []] else [scalar text]

/-- Further lines stand two columns in, except that empty lines stay empty. -/
def indented (line : Text) : Text := if line.isEmpty then [] else "  ".toList ++ line

def item : List Text → List Text
  | [] => []
  | first :: rest => ("- ".toList ++ first) :: rest.map indented

/-- A long key is written apart from its value. -/
def entry (key value : Text) : List Text :=
  if byteLength key ≤ 128 then [scalar key ++ ": ".toList ++ value]
  else ["? ".toList ++ scalar key, ": ".toList ++ value]

def heading (key : Text) : Text := scalar key ++ ":".toList

def emptySequence : Text := "[]".toList

def emptyMapping : Text := "\x7b\x7d".toList

mutual

/-- The lines of a value that stands by itself. -/
def valueLines : Value → List Text
  | .text content => elementLines content
  | .number value => [decimal value]
  | .sequence [] => [emptySequence]
  | .sequence (first :: rest) => itemLines (first :: rest)
  | .mapping [] => [emptyMapping]
  | .mapping (first :: rest) => entryLines (first :: rest)

def itemLines : List Value → List Text
  | [] => []
  | value :: rest => item (valueLines value) ++ itemLines rest

def entryLines : List (Text × Value) → List Text
  | [] => []
  | (key, value) :: rest => fieldLines key value ++ entryLines rest

/-- The lines of a value behind its key. -/
def fieldLines (key : Text) : Value → List Text
  | .text content => entry key (scalar content)
  | .number value => entry key (decimal value)
  | .sequence [] => entry key emptySequence
  | .sequence (first :: rest) => heading key :: itemLines (first :: rest)
  | .mapping [] => entry key emptyMapping
  | .mapping (first :: rest) => heading key :: (entryLines (first :: rest)).map indented

end

def write (value : Value) : Text := unlines (valueLines value)

end RiscAssembly.Yaml
