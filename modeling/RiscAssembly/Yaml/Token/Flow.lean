import RiscAssembly.Yaml.Token.Gap

/-!
Scalars inside lines: quoted with single quotes, where a quote is written twice, or with
double quotes, where a backslash starts an escape, and plain.
-/

namespace RiscAssembly.Yaml

open Text

/-- The characters up to a blank, a line break or the closing quote. -/
def singleRun : Mark → Text → Text × Cursor
  | mark, [] => ([], ⟨mark, []⟩)
  | mark, '\'' :: '\'' :: rest =>
      let tail := singleRun mark.right.right rest
      ('\'' :: tail.1, tail.2)
  | mark, c :: rest =>
      if c = '\'' || isSeparator c then ([], ⟨mark, c :: rest⟩)
      else
        let tail := singleRun mark.right rest
        (c :: tail.1, tail.2)

def letterCodes : List (Char × Nat) :=
  [('0', 0x00), ('a', 0x07), ('b', 0x08), ('t', 0x09), ('\t', 0x09), ('n', 0x0A), ('v', 0x0B),
    ('f', 0x0C), ('r', 0x0D), ('e', 0x1B), (' ', 0x20), ('\"', 0x22), ('/', 0x2F), ('\\', 0x5C),
    ('N', 0x85), ('_', 0xA0), ('L', 0x2028), ('P', 0x2029)]

def codeWidths : List (Char × Nat) := [('x', 2), ('u', 4), ('U', 8)]

def isCodePoint (code : Nat) : Bool := decide (code.isValidChar)

def codedCharacter (width : Nat) (text : Text) : Except Problem Char :=
  if text.length < width then .error .noHexadecimal
  else match natural? 16 (text.take width) with
    | none => .error .noHexadecimal
    | some code => if isCodePoint code then .ok (Char.ofNat code) else .error .badCodePoint

def Mark.rightBy (mark : Mark) (count : Nat) : Mark :=
  ⟨mark.index + count, mark.line, mark.column + count⟩

/-- The characters up to a blank, a line break, an escaped line break or the closing
quote. -/
def doubleRun (start : Mark) : Mark → Text → Except Error (Text × Cursor)
  | mark, [] => .ok ([], ⟨mark, []⟩)
  | mark, '\\' :: rest => match rest with
    | [] => Cursor.fail ⟨mark, ['\\']⟩ .unknownEscape .quotedEscape start
    | c :: tail =>
        if isLineBreak c then .ok ([], ⟨mark, '\\' :: c :: tail⟩)
        else match letterCodes.lookup c, codeWidths.lookup c with
          | some code, _ => do
              let (text, stop) ← doubleRun start (mark.rightBy 2) tail
              return (Char.ofNat code :: text, stop)
          | none, some width => match codedCharacter width tail with
            | .error problem => Cursor.fail ⟨mark.rightBy 2, tail⟩ problem .quotedEscape start
            | .ok character => do
                let (text, stop) ←
                  doubleRun start (mark.rightBy (2 + width)) (tail.drop width)
                return (character :: text, stop)
          | none, none => Cursor.fail ⟨mark, '\\' :: c :: tail⟩ .unknownEscape .quotedEscape start
  | mark, c :: rest =>
      if c = '\"' || isSeparator c then .ok ([], ⟨mark, c :: rest⟩)
      else do
        let (text, stop) ← doubleRun start mark.right rest
        return (c :: text, stop)
  termination_by _ text => text.length
  decreasing_by all_goals simp <;> omega

inductive Quote where
  | single
  | double
  deriving DecidableEq

namespace Quote

def character : Quote → Char
  | .single => '\''
  | .double => '\"'

def style : Quote → ScalarStyle
  | .single => .singleQuoted
  | .double => .doubleQuoted

def run (quote : Quote) (start : Mark) (cursor : Cursor) : Except Error (Text × Cursor) :=
  match quote with
  | .single => .ok (singleRun cursor.mark cursor.rest)
  | .double => doubleRun start cursor.mark cursor.rest

/-- The gap behind a run. A run in double quotes may end with an escaped line break. -/
def gap (quote : Quote) (cursor : Cursor) : Gap × Cursor :=
  let (first, behind) :=
    if quote = .double && cursor.isAt '\\' then
      (Gap.lines [] [], cursor.skip.skipBreak)
    else (Gap.blanks [], cursor)
  (gapFrom (fun _ _ _ => false) first behind.mark behind.rest).toOption.getD (first, behind)

/-- The text up to the closing quote, behind a part of it. The fuel bounds the number of
runs. -/
def textFrom (quote : Quote) (start : Mark) : Nat → Text → Cursor → Except Error (Text × Cursor)
  | 0, _, cursor => cursor.fail .endOfText .quotedScalar start
  | fuel + 1, text, cursor => do
      if cursor.isAtDocumentMark then cursor.fail .documentMark .quotedScalar start
      else if cursor.rest.isEmpty then cursor.fail .endOfText .quotedScalar start
      else
        let (run, stop) ← quote.run start cursor
        if stop.isAt quote.character then return (text ++ run, stop.skip)
        else
          let (gap, stop) := quote.gap stop
          quote.textFrom start fuel (text ++ run ++ gap.text) stop

/-- Every run but the first is followed or led by a character of its own. -/
def token (quote : Quote) (cursor : Cursor) : Except Error Lexeme := do
  let (text, stop) ← quote.textFrom cursor.mark (cursor.rest.length + 1) [] cursor.skip
  return (.scalar text quote.style, stop)

end Quote

/-- The characters of a plain word. Within brackets and braces those end it, and a colon
before one of them is refused. -/
def plainRun (inFlow : Bool) : Mark → Text → Except Mark (Text × Cursor)
  | mark, [] => .ok ([], ⟨mark, []⟩)
  | mark, c :: rest =>
      if isSeparator c then .ok ([], ⟨mark, c :: rest⟩)
      else if inFlow && c = ':' && rest.head?.any ",?[]\x7b\x7d".toList.contains then .error mark
      else if (c = ':' && endsWord rest) || (inFlow && ",[]\x7b\x7d".toList.contains c) then
        .ok ([], ⟨mark, c :: rest⟩)
      else do
        let (text, stop) ← plainRun inFlow mark.right rest
        return (c :: text, stop)

/-- A plain scalar as far as it has been read: its text, where that ends, and the gap behind
it. -/
structure PlainText where
  text : Text := []
  stop : Mark
  gap : Gap := .blanks []
  cursor : Cursor
  deriving DecidableEq

def PlainText.add (plain : PlainText) (run : Text) (cursor : Cursor) : PlainText :=
  if run.isEmpty then { plain with cursor }
  else { text := plain.text ++ plain.gap.text ++ run, stop := cursor.mark, cursor }

/-- A plain scalar goes on over lines that are indented at least so far. The fuel bounds the
number of words. -/
def plainFrom (inFlow : Bool) (indent : Int) (start : Mark) :
    Nat → PlainText → Except Error PlainText
  | 0, plain => .ok plain
  | fuel + 1, plain => do
      if plain.cursor.isAtDocumentMark || plain.cursor.isAt '#' then return plain
      else match plainRun inFlow plain.cursor.mark plain.cursor.rest with
        | .error mark => Cursor.fail ⟨mark, []⟩ .colonInPlain .plainScalar start
        | .ok (run, stop) =>
            let plain := plain.add run stop
            if !stop.next?.any isSeparator then return plain
            else
              let refuses := fun (gap : Gap) (mark : Mark) (c : Char) =>
                gap.isBroken && decide ((mark.column : Int) < indent) && decide (c = '\t')
              match gapFrom refuses (.blanks []) stop.mark stop.rest with
              | .error mark => Cursor.fail ⟨mark, []⟩ .tabInPlain .plainScalar start
              | .ok (gap, behind) =>
                  let plain := { plain with gap := gap, cursor := behind }
                  if !inFlow && decide ((behind.mark.column : Int) < indent) then return plain
                  else plainFrom inFlow indent start fuel plain

def plainScalar (inFlow : Bool) (indent : Int) (cursor : Cursor) : Except Error PlainText :=
  plainFrom inFlow indent cursor.mark (cursor.rest.length + 1) { stop := cursor.mark, cursor }

end RiscAssembly.Yaml
