import RiscAssembly.Yaml.Token

/-!
Block scalars: lines below a bar or an angle bracket, indented further than what surrounds
them. Literal ones keep their line breaks; folded ones join lines with a space, except
beside lines that start with a blank. The line breaks at the end are cut to one, dropped or
kept.
-/

namespace RiscAssembly.Yaml

open Text

inductive Chomping where
  | clip
  | strip
  | keep
  deriving DecidableEq

def Chomping.ofIndicator? : Char → Option Chomping
  | '-' => some .strip
  | '+' => some .keep
  | _ => none

structure BlockHeader where
  chomping : Chomping := .clip
  /-- Columns that the lines stand further in, if that is said. -/
  increment : Option Nat := none
  deriving DecidableEq

def chompingAt (cursor : Cursor) : Option Chomping × Cursor :=
  match cursor.next?.bind Chomping.ofIndicator? with
  | some chomping => (some chomping, cursor.skip)
  | none => (none, cursor)

def incrementAt (start : Mark) (cursor : Cursor) : Except Error (Option Nat × Cursor) :=
  match cursor.next?.bind (digit? 10) with
  | some 0 => cursor.fail .zeroIndentation .blockScalar start
  | some increment => .ok (some increment, cursor.skip)
  | none => .ok (none, cursor)

/-- The two indicators stand in either order. -/
def blockHeader (start : Mark) (cursor : Cursor) : Except Error (BlockHeader × Cursor) := do
  let (before, cursor) := chompingAt cursor
  let (increment, cursor) ← incrementAt start cursor
  let (after, cursor) :=
    if before.isNone && increment.isSome then chompingAt cursor else (none, cursor)
  let cursor := (cursor.skipWhile isBlank).skipComment
  if cursor.endsLine then
    return (⟨(before.or after).getD .clip, increment⟩, cursor.skipBreak)
  else cursor.fail .noCommentOrBreak .blockScalar start

/-- Empty lines before the next line of content, and the farthest column reached by spaces.
A known indentation ends the spaces that count. -/
structure EmptyLines where
  widest : Nat := 0
  breaks : Text := []
  cursor : Cursor
  deriving DecidableEq

def emptyLinesFrom (indent : Option Nat) :
    Nat → Text → Mark → Text → Except Mark EmptyLines
  | widest, breaks, mark, [] => .ok ⟨max widest mark.column, breaks, ⟨mark, []⟩⟩
  | widest, breaks, mark, '\r' :: '\n' :: rest =>
      emptyLinesFrom indent (max widest mark.column) (breaks ++ ['\n']) (mark.below 2) rest
  | widest, breaks, mark, c :: rest =>
      let inIndent := indent.all fun column => mark.column < column
      if inIndent && c = ' ' then emptyLinesFrom indent widest breaks mark.right rest
      else if inIndent && c = '\t' then .error mark
      else if isLineBreak c then
        emptyLinesFrom indent (max widest mark.column) (breaks ++ breakText c) (mark.below 1) rest
      else .ok ⟨max widest mark.column, breaks, ⟨mark, c :: rest⟩⟩

def emptyLines (indent : Option Nat) (start : Mark) (cursor : Cursor) :
    Except Error EmptyLines :=
  match emptyLinesFrom indent 0 [] cursor.mark cursor.rest with
  | .error mark => Cursor.fail ⟨mark, []⟩ .tabIndentation .blockScalar start
  | .ok found => .ok found

/-- The lines of a block scalar as far as they have been read: its text, the line break of
its last line, the empty lines behind that, and whether the last line starts with a
blank. -/
structure BlockText where
  text : Text := []
  lineBreak : Text := []
  emptyLines : Text := []
  startsBlank : Bool := false
  deriving DecidableEq

namespace BlockText

def joint (block : BlockText) (folded nextBlank : Bool) : Text :=
  if folded && block.lineBreak = ['\n'] && !block.startsBlank && !nextBlank then
    if block.emptyLines.isEmpty then [' '] else block.emptyLines
  else block.lineBreak ++ block.emptyLines

def finish (block : BlockText) : Chomping → Text
  | .strip => block.text
  | .clip => block.text ++ block.lineBreak
  | .keep => block.text ++ block.lineBreak ++ block.emptyLines

end BlockText

/-- The lines at the given indentation. The fuel bounds their number. -/
def blockLinesFrom (folded : Bool) (indent : Nat) (start : Mark) :
    Nat → BlockText → Cursor → Except Error (BlockText × Cursor)
  | 0, block, cursor => .ok (block, cursor)
  | fuel + 1, block, cursor =>
      if cursor.mark.column ≠ indent || cursor.rest.isEmpty then .ok (block, cursor)
      else do
        let startsBlank := cursor.next?.any isBlank
        let (line, stop) := cursor.takeWhile fun c => !isLineBreak c
        let (lineBreak, stop) := stop.takeBreak
        let found ← emptyLines (some indent) start stop
        blockLinesFrom folded indent start fuel
          ⟨block.text ++ block.joint folded startsBlank ++ line, lineBreak, found.breaks,
            startsBlank⟩
          found.cursor

def BlockHeader.indent? (header : BlockHeader) (outer : Int) : Option Nat :=
  header.increment.map fun increment => outer.toNat + increment

/-- A block scalar within a block at a column, which is negative outside of all blocks. If
the indentation is not said it is that of the first line, but further in than the
surroundings. -/
def blockToken (folded : Bool) (outer : Int) (cursor : Cursor) : Except Error Lexeme := do
  let start := cursor.mark
  let (header, stop) ← blockHeader start cursor.skip
  let found ← emptyLines (header.indent? outer) start stop
  let indent := (header.indent? outer).getD (max found.widest (max (outer + 1).toNat 1))
  let (block, stop) ← blockLinesFrom folded indent start cursor.rest.length
    ⟨[], [], found.breaks, false⟩ found.cursor
  return (.scalar (block.finish header.chomping) (if folded then .folded else .literal), stop)

end RiscAssembly.Yaml
