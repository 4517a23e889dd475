import RiscAssembly.Yaml.Token

/-!
Tokens made of names: anchors, aliases, tags and directives. A tag is a handle, which
directives give a meaning, and the rest of an address; bytes of the address may be written
as a percent sign and two hexadecimal digits. An address is a string of bytes and stays one:
each of its characters is a byte, and a zero byte ends it.
-/

namespace RiscAssembly.Yaml

open Text

def anchorName (context : Context) (cursor : Cursor) : Except Error (Text × Cursor) :=
  let (name, stop) := cursor.skip.takeWhile isNameCharacter
  if name.isEmpty || !(stop.endsWord || stop.isAtOneOf "?:,]\x7d%@`") then
    stop.fail .noAnchorName context cursor.mark
  else .ok (name, stop)

def anchorToken (cursor : Cursor) : Except Error Lexeme := do
  let (name, stop) ← anchorName .anchor cursor
  return (.anchor name, stop)

def aliasToken (cursor : Cursor) : Except Error Lexeme := do
  let (name, stop) ← anchorName .alias cursor
  return (.alias name, stop)

def octet? : Text → Option Nat
  | '%' :: high :: low :: _ => natural? 16 [high, low]
  | _ => none

/-- The number of bytes of a character by its first byte. -/
def octetCount (first : Nat) : Nat :=
  if first < 0x80 then 1
  else if first / 0x20 = 0x06 then 2
  else if first / 0x10 = 0x0E then 3
  else if first / 0x08 = 0x1E then 4
  else 0

def Cursor.skipOctet (cursor : Cursor) : Cursor := cursor.skip.skip.skip

/-- Further bytes of a character. Their bits are not put together, so it does not matter
whether fewer bytes would do. -/
def octetsFrom (context : Context) (start : Mark) : Nat → Cursor → Except Error (Text × Cursor)
  | 0, cursor => .ok ([], cursor)
  | count + 1, cursor => match octet? cursor.rest with
    | none => cursor.fail .badUriEscape context start
    | some byte =>
        if byte / 0x40 = 0x02 then do
          let (rest, stop) ← octetsFrom context start count cursor.skipOctet
          return (Char.ofNat byte :: rest, stop)
        else cursor.fail .badUriNext context start

def escapedOctets (context : Context) (start : Mark) (cursor : Cursor) :
    Except Error (Text × Cursor) :=
  match octet? cursor.rest with
  | none => cursor.fail .badUriEscape context start
  | some first =>
      let count := octetCount first
      if count = 0 then cursor.fail .badUriFirst context start
      else do
        let (rest, stop) ← octetsFrom context start (count - 1) cursor.skipOctet
        return (Char.ofNat first :: rest, stop)

/-- The characters of an address. Commas and brackets count only where nothing else can be
meant. -/
def isUriCharacter (verbatim : Bool) (c : Char) : Bool :=
  isNameCharacter c || ";/?:@&=+$.%!~*'()".toList.contains c
    || (verbatim && ",[]".toList.contains c)

def uriFrom (verbatim : Bool) (context : Context) (start : Mark) :
    Nat → Cursor → Except Error (Text × Cursor)
  | 0, cursor => .ok ([], cursor)
  | fuel + 1, cursor => match cursor.rest with
    | [] => .ok ([], cursor)
    | c :: _ =>
        if !isUriCharacter verbatim c then .ok ([], cursor)
        else do
          let (first, stop) ←
            if c = '%' then escapedOctets context start cursor else .ok ([c], cursor.skip)
          let (rest, stop) ← uriFrom verbatim context start fuel stop
          return (first ++ rest, stop)

def beforeZero (address : Text) : Text := address.takeWhile fun c => c.toNat ≠ 0

def uri (verbatim : Bool) (context : Context) (start : Mark) (cursor : Cursor) :
    Except Error (Text × Cursor) := do
  let (address, stop) ← uriFrom verbatim context start cursor.rest.length cursor
  return (beforeZero address, stop)

/-- An address that may not be empty. A zero byte counts as long as it is not dropped. -/
def someUri (verbatim : Bool) (context : Context) (start : Mark) (cursor : Cursor) :
    Except Error (Text × Cursor) := do
  let (address, stop) ← uriFrom verbatim context start cursor.rest.length cursor
  if address.isEmpty then stop.fail .noTagUri context start
  else return (beforeZero address, stop)

/-- A word between exclamation marks. The second one, or the word too, may be missing. -/
def tagHandle (cursor : Cursor) : Text × Cursor :=
  let (name, stop) := cursor.skip.takeWhile isNameCharacter
  if stop.isAt '!' then ('!' :: name ++ ['!'], stop.skip) else ('!' :: name, stop)

def isFullHandle (handle : Text) : Bool :=
  decide (1 < handle.length) && decide (handle.getLast? = some '!')

/-- A tag has its address in angle brackets, or starts with a handle. An exclamation mark
alone is an address without a handle. -/
def tagParts (cursor : Cursor) : Except Error (Text × Text × Cursor) := do
  let start := cursor.mark
  if cursor.startsWith "!<" then
    let (address, stop) ← someUri true .tagUri start cursor.skip.skip
    if stop.isAt '>' then return ([], address, stop.skip) else stop.fail .noTagEnd .tag start
  else
    let (handle, stop) := tagHandle cursor
    if isFullHandle handle then
      let (rest, stop) ← someUri false .tagUri start stop
      return (handle, rest, stop)
    else
      let (rest, stop) ← uri false .tagUri start stop
      let rest := handle.tail ++ rest
      return if rest.isEmpty then ([], ['!'], stop) else (['!'], rest, stop)

def tagToken (inFlow : Bool) (cursor : Cursor) : Except Error Lexeme := do
  let (handle, rest, stop) ← tagParts cursor
  if stop.endsWord || (inFlow && stop.isAt ',') then return (.tag handle rest, stop)
  else stop.fail .noBlankOrBreak .tag cursor.mark

def versionNumber (start : Mark) (cursor : Cursor) : Except Error (Nat × Cursor) :=
  let (digits, stop) := cursor.takeWhile isDigit
  if 9 < digits.length then
    Cursor.fail ⟨⟨cursor.mark.index + 9, cursor.mark.line, cursor.mark.column + 9⟩, []⟩
      .longVersionNumber .versionDirective start
  else match natural? 10 digits with
    | none => stop.fail .noVersionNumber .versionDirective start
    | some number => .ok (number, stop)

def versionDirective (start : Mark) (cursor : Cursor) : Except Error Lexeme := do
  let (major, stop) ← versionNumber start (cursor.skipWhile isBlank)
  if !stop.isAt '.' then stop.fail .noVersionDigit .versionDirective start
  else
    let (minor, stop) ← versionNumber start stop.skip
    return (.versionDirective major minor, stop)

def tagDirective (start : Mark) (cursor : Cursor) : Except Error Lexeme := do
  let cursor := cursor.skipWhile isBlank
  if !cursor.isAt '!' then cursor.fail .noTagMark .tagDirectiveStart start
  else
    let (handle, stop) := tagHandle cursor
    if !isFullHandle handle && decide (handle ≠ ['!']) then
      stop.fail .noTagMark .tagDirectiveHandle start
    else if !stop.next?.any isBlank then stop.fail .noBlank .tagDirective start
    else
      let (expansion, stop) ← someUri true .tagDirectiveUri start (stop.skipWhile isBlank)
      if stop.endsWord then return (.tagDirective handle expansion, stop)
      else stop.fail .noBlankOrBreak .tagDirective start

def directiveBody (name : Text) (start : Mark) (cursor : Cursor) : Except Error Lexeme :=
  if name = "YAML".toList then versionDirective start cursor
  else if name = "TAG".toList then tagDirective start cursor
  else cursor.fail .unknownDirective .directive start

/-- Behind a directive its line may hold no more than a comment. The cursor before that is
where the token ends. -/
def directiveToken (cursor : Cursor) : Except Error (Lexeme × Cursor) := do
  let start := cursor.mark
  let (name, stop) := cursor.skip.takeWhile isNameCharacter
  if name.isEmpty then stop.fail .noDirectiveName .directive start
  else if !stop.endsWord then stop.fail .badDirectiveName .directive start
  else
    let (kind, stop) ← directiveBody name start stop
    let rest := (stop.skipWhile isBlank).skipComment
    if rest.endsLine then return ((kind, stop), rest.skipBreak)
    else rest.fail .noCommentOrBreak .directive start

end RiscAssembly.Yaml
