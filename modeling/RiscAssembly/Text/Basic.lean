/-!
Text as a list of characters, with the few ways the assembler takes it apart:
trimming, cutting at the first or at every separator, words and lines. Widths are
measured in bytes of UTF-8, so a cut at a byte offset may fall inside a character;
`cutBytes` then has no answer. White space is the Unicode property White_Space, 25
characters in all; the zero-width space and the byte order mark are not among them.
Lists of named entries are kept without repeated names by `put`.
-/

namespace RiscAssembly

abbrev Text := List Char

namespace Text

/-- Classes of characters are ranges of code points, both ends included. -/
def inRanges (ranges : List (Nat × Nat)) (c : Char) : Bool :=
  ranges.any fun range => decide (range.1 ≤ c.toNat) && decide (c.toNat ≤ range.2)

def spaceRanges : List (Nat × Nat) :=
  [(0x09, 0x0D), (0x20, 0x20), (0x85, 0x85), (0xA0, 0xA0), (0x1680, 0x1680), (0x2000, 0x200A),
    (0x2028, 0x2029), (0x202F, 0x202F), (0x205F, 0x205F), (0x3000, 0x3000)]

def isSpace (c : Char) : Bool := inRanges spaceRanges c

def byteLength : Text → Nat
  | [] => 0
  | c :: rest => c.utf8Size + byteLength rest

def cutBytes : Nat → Text → Option (Text × Text)
  | 0, text => some ([], text)
  | _ + 1, [] => none
  | count + 1, c :: rest =>
      if c.utf8Size ≤ count + 1 then
        (cutBytes (count + 1 - c.utf8Size) rest).map fun parts => (c :: parts.1, parts.2)
      else none

def trimStart (text : Text) : Text := text.dropWhile isSpace

def trimEnd (text : Text) : Text := (text.reverse.dropWhile isSpace).reverse

def trim (text : Text) : Text := trimEnd (trimStart text)

/-- The parts around the first separator, which belongs to neither. -/
def cut (separator : Char → Bool) : Text → Option (Text × Text)
  | [] => none
  | c :: rest =>
      if separator c then some ([], rest)
      else (cut separator rest).map fun parts => (c :: parts.1, parts.2)

def words (text : Text) : List Text := (text.splitOnP isSpace).filter fun part => !part.isEmpty

def dropLast? (c : Char) (text : Text) : Option Text :=
  if text.getLast? = some c then some text.dropLast else none

def dropFirst? (c : Char) : Text → Option Text
  | [] => none
  | first :: rest => if first = c then some rest else none

/-- Parts of a text cut at its newlines, as lines. A carriage return before a newline
belongs to the line end; the part after the last newline is a line only if it is not empty. -/
def closeLines : List Text → List Text
  | [] => []
  | [last] => if last.isEmpty then [] else [last]
  | part :: next :: rest => (dropLast? '\r' part).getD part :: closeLines (next :: rest)

def lines (text : Text) : List Text := closeLines (text.splitOnP (· = '\n'))

def unlines (lines : List Text) : Text := lines.flatMap fun line => line ++ ['\n']

def join (separator : Text) (parts : List Text) : Text := separator.intercalate parts

def padStart (width : Nat) (fill : Char) (text : Text) : Text :=
  List.replicate (width - text.length) fill ++ text

def padEnd (width : Nat) (fill : Char) (text : Text) : Text :=
  text ++ List.replicate (width - text.length) fill

section Named

variable {Entry : Type} (name : Entry → Text)

/-- Entries with another one in the place of the entry of its name, or else behind all. -/
def put (entry : Entry) : List Entry → List Entry
  | [] => [entry]
  | first :: rest =>
      if name first = name entry then entry :: rest else first :: put entry rest

theorem names_put (entry : Entry) (entries : List Entry) :
    (put name entry entries).map name =
      if name entry ∈ entries.map name then entries.map name
      else entries.map name ++ [name entry] := by
  induction entries with
  | nil => rfl
  | cons first rest ih =>
      by_cases same : name first = name entry
      · simp [put, same]
      · have other : name entry ≠ name first := fun equal => same equal.symm
        rw [put, if_neg same, List.map_cons, ih, List.map_cons]
        by_cases later : name entry ∈ rest.map name <;> simp [other, later]

theorem put_nodup (entry : Entry) (entries : List Entry) (unique : (entries.map name).Nodup) :
    ((put name entry entries).map name).Nodup := by
  rw [names_put]
  split
  · exact unique
  · rename_i absent
    rw [List.nodup_append]
    refine ⟨unique, List.pairwise_singleton _ _, ?_⟩
    rintro other member last inLast rfl
    exact absent (List.mem_singleton.mp inLast ▸ member)

end Named

end Text

end RiscAssembly
