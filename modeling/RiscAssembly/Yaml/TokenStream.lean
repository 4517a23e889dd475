import RiscAssembly.Yaml.Token.Block
import RiscAssembly.Yaml.Token.Flow
import RiscAssembly.Yaml.Token.Name

/-!
The stream of tokens of a YAML text. A colon can make a key of what stands before it, so a
token is held back as long as it may turn out to start one. Such a key has to end on its
line and within 1024 characters, and a place where only a key can stand requires it.
-/

namespace RiscAssembly.Yaml

open Text

/-- A place where a key may have started, and the number of the token there. -/
structure PossibleKey where
  number : Nat
  required : Bool
  mark : Mark
  deriving DecidableEq

structure TokenStream where
  cursor : Cursor
  queue : List Token := []
  taken : Nat := 0
  /-- The columns of the open blocks, from the inside. -/
  blocks : List Nat := []
  key : Option PossibleKey := none
  /-- The possible keys outside of each open bracket or brace. -/
  outerKeys : List (Option PossibleKey) := []
  keyAllowed : Bool := true
  deriving DecidableEq

namespace TokenStream

def ofText (text : Text) : TokenStream := { cursor := ⟨{}, text⟩ }

def mark (stream : TokenStream) : Mark := stream.cursor.mark

def inFlow (stream : TokenStream) : Bool := !stream.outerKeys.isEmpty

def indent (stream : TokenStream) : Int :=
  match stream.blocks with
  | [] => -1
  | column :: _ => column

def nextNumber (stream : TokenStream) : Nat := stream.taken + stream.queue.length

def add (stream : TokenStream) (kind : TokenKind) (start stop : Mark) : TokenStream :=
  { stream with queue := stream.queue ++ [⟨kind, start, stop⟩] }

def insert (stream : TokenStream) (number : Nat) (token : Token) : TokenStream :=
  let place := number - stream.taken
  { stream with queue := stream.queue.take place ++ token :: stream.queue.drop place }

def addTo (stream : TokenStream) (kind : TokenKind) (stop : Cursor) : TokenStream :=
  { stream.add kind stream.mark stop.mark with cursor := stop }

def allowKey (stream : TokenStream) (allowed : Bool) : TokenStream :=
  { stream with keyAllowed := allowed }

def noColon {α : Type} (stream : TokenStream) (key : PossibleKey) : Except Error α :=
  stream.cursor.fail .noColon .simpleKey key.mark

def dropKey (stream : TokenStream) : Except Error TokenStream :=
  match stream.key with
  | some key => if key.required then stream.noColon key else .ok { stream with key := none }
  | none => .ok stream

def saveKey (stream : TokenStream) : Except Error TokenStream :=
  if !stream.keyAllowed then .ok stream
  else do
    let stream ← stream.dropKey
    let required := !stream.inFlow && decide (stream.indent = stream.mark.column)
    return { stream with key := some ⟨stream.nextNumber, required, stream.mark⟩ }

def isStale (stream : TokenStream) (key : PossibleKey) : Bool :=
  decide (key.mark.line < stream.mark.line) || decide (key.mark.index + 1024 < stream.mark.index)

/-- Only the outermost key can be required. -/
def dropStaleKeys (stream : TokenStream) : Except Error TokenStream :=
  let fresh := fun key => !stream.isStale key
  match (stream.key :: stream.outerKeys).findSome? fun key =>
      key.filter fun key => key.required && stream.isStale key with
  | some key => stream.noColon key
  | none => .ok { stream with
      key := stream.key.filter fresh
      outerKeys := stream.outerKeys.map fun key => key.filter fresh }

def openBlock (stream : TokenStream) (column number : Nat) (kind : TokenKind) (mark : Mark) :
    TokenStream :=
  if !stream.inFlow && decide (stream.indent < column) then
    { stream.insert number ⟨kind, mark, mark⟩ with blocks := column :: stream.blocks }
  else stream

def openBlockHere (stream : TokenStream) (kind : TokenKind) : TokenStream :=
  stream.openBlock stream.mark.column stream.nextNumber kind stream.mark

def closeBlocks (stream : TokenStream) (column : Int) : TokenStream :=
  if stream.inFlow then stream
  else
    let isClosed := fun (block : Nat) => decide (column < block)
    let ends := (stream.blocks.takeWhile isClosed).map fun _ =>
      Token.mk .blockEnd stream.mark stream.mark
    { stream with queue := stream.queue ++ ends, blocks := stream.blocks.dropWhile isClosed }

/-- Blanks, comments and line breaks before the next token. Behind a line break outside of
brackets and braces a key is allowed; where one is, tabs are not skipped. A byte order mark
at the start of a line is skipped like a space, and takes a column as one does. -/
def spaceFrom (inFlow : Bool) : (keyAllowed inComment : Bool) → Mark → Text → Bool × Cursor
  | allowed, _, mark, [] => (allowed, ⟨mark, []⟩)
  | allowed, _, mark, '\r' :: '\n' :: rest =>
      spaceFrom inFlow (allowed || !inFlow) false (mark.below 2) rest
  | allowed, inComment, mark, c :: rest =>
      if isLineBreak c then spaceFrom inFlow (allowed || !inFlow) false (mark.below 1) rest
      else if inComment || c = '#' then spaceFrom inFlow allowed true mark.right rest
      else if c = ' ' || (c = '\t' && (inFlow || !allowed))
          || (c.toNat = 0xFEFF && mark.column = 0) then
        spaceFrom inFlow allowed false mark.right rest
      else (allowed, ⟨mark, c :: rest⟩)

def skipSpace (stream : TokenStream) : TokenStream :=
  let (keyAllowed, cursor) :=
    spaceFrom stream.inFlow stream.keyAllowed false stream.mark stream.cursor.rest
  { stream with keyAllowed, cursor }

def endBlocks (stream : TokenStream) : Except Error TokenStream := do
  let stream ← (stream.closeBlocks (-1)).dropKey
  return stream.allowKey false

/-- The stream ends at the start of a line. -/
def addStreamEnd (stream : TokenStream) : Except Error TokenStream := do
  let mark := stream.mark
  let stop : Mark := if mark.column = 0 then mark else ⟨mark.index, mark.line + 1, 0⟩
  let stream ← endBlocks { stream with cursor := ⟨stop, []⟩ }
  return stream.addTo .streamEnd stream.cursor

def addDirective (stream : TokenStream) : Except Error TokenStream := do
  let stream ← stream.endBlocks
  let ((kind, stop), rest) ← directiveToken stream.cursor
  return { stream.addTo kind stop with cursor := rest }

def addDocumentMark (stream : TokenStream) : Except Error TokenStream := do
  let stream ← stream.endBlocks
  let kind := if stream.cursor.isAt '-' then TokenKind.documentStart else .documentEnd
  return stream.addTo kind stream.cursor.skip.skip.skip

def addFlowStart (stream : TokenStream) (kind : TokenKind) : Except Error TokenStream := do
  let stream ← stream.saveKey
  let inside := { stream with key := none, outerKeys := stream.key :: stream.outerKeys }
  return (inside.allowKey true).addTo kind stream.cursor.skip

def addFlowEnd (stream : TokenStream) (kind : TokenKind) : Except Error TokenStream := do
  let stream ← stream.dropKey
  let outside := match stream.outerKeys with
    | [] => stream
    | key :: rest => { stream with key := key, outerKeys := rest }
  return (outside.allowKey false).addTo kind stream.cursor.skip

def addFlowEntry (stream : TokenStream) : Except Error TokenStream := do
  let stream ← stream.dropKey
  return (stream.allowKey true).addTo .flowEntry stream.cursor.skip

def startBlock (stream : TokenStream) (kind : TokenKind) (problem : Problem) :
    Except Error TokenStream :=
  if stream.inFlow then .ok stream
  else if stream.keyAllowed then .ok (stream.openBlockHere kind)
  else .error (.malformed problem stream.mark none)

/-- Dashes within brackets and braces are left to the grammar. -/
def addBlockEntry (stream : TokenStream) : Except Error TokenStream := do
  let stream ← stream.startBlock .blockSequenceStart .entryNotAllowed
  let stream ← stream.dropKey
  return (stream.allowKey true).addTo .blockEntry stream.cursor.skip

def addKey (stream : TokenStream) : Except Error TokenStream := do
  let stream ← stream.startBlock .blockMappingStart .keyNotAllowed
  let stream ← stream.dropKey
  return (stream.allowKey (!stream.inFlow)).addTo .key stream.cursor.skip

/-- A colon. If a key is possible the mark of the key goes before its first token. -/
def addValue (stream : TokenStream) : Except Error TokenStream :=
  match stream.key with
  | some key =>
      let stream := stream.insert key.number ⟨.key, key.mark, key.mark⟩
      let stream := stream.openBlock key.mark.column key.number .blockMappingStart key.mark
      .ok (({ stream with key := none }.allowKey false).addTo .value stream.cursor.skip)
  | none => do
      let stream ← stream.startBlock .blockMappingStart .valueNotAllowed
      return (stream.allowKey (!stream.inFlow)).addTo .value stream.cursor.skip

def addLexeme (stream : TokenStream) (lexeme : Cursor → Except Error Lexeme) :
    Except Error TokenStream := do
  let stream ← stream.saveKey
  let (kind, stop) ← lexeme stream.cursor
  return (stream.allowKey false).addTo kind stop

def addBlockScalar (stream : TokenStream) (folded : Bool) : Except Error TokenStream := do
  let stream ← stream.dropKey
  let (kind, stop) ← blockToken folded stream.indent stream.cursor
  return (stream.allowKey true).addTo kind stop

/-- If a plain scalar ends behind a line break a key is allowed there. -/
def addPlain (stream : TokenStream) : Except Error TokenStream := do
  let stream ← stream.saveKey
  let plain ← plainScalar stream.inFlow (stream.indent + 1) stream.cursor
  let stream := stream.add (.scalar plain.text .plain) stream.mark plain.stop
  return { stream.allowKey plain.gap.isBroken with cursor := plain.cursor }

def indicators : Text := "-?:,[]\x7b\x7d#&*!|>'\"%@`".toList

def startsPlain (stream : TokenStream) : Bool :=
  match stream.cursor.rest with
  | [] => false
  | c :: rest =>
      (!isSeparator c && !indicators.contains c)
        || (c = '-' && !rest.head?.any isBlank)
        || (!stream.inFlow && (c = '?' || c = ':') && !endsWord rest)

def addToken (stream : TokenStream) : Except Error TokenStream :=
  let cursor := stream.cursor
  let standsAlone := endsWord cursor.rest.tail
  match cursor.rest.head? with
  | none => stream.addStreamEnd
  | some c =>
      if c = '%' && cursor.mark.column = 0 then stream.addDirective
      else if cursor.isAtDocumentMark then stream.addDocumentMark
      else if c = '[' then stream.addFlowStart .flowSequenceStart
      else if c = '\x7b' then stream.addFlowStart .flowMappingStart
      else if c = ']' then stream.addFlowEnd .flowSequenceEnd
      else if c = '\x7d' then stream.addFlowEnd .flowMappingEnd
      else if c = ',' then stream.addFlowEntry
      else if c = '-' && standsAlone then stream.addBlockEntry
      else if c = '?' && (stream.inFlow || standsAlone) then stream.addKey
      else if c = ':' && (stream.inFlow || standsAlone) then stream.addValue
      else if c = '*' then stream.addLexeme aliasToken
      else if c = '&' then stream.addLexeme anchorToken
      else if c = '!' then stream.addLexeme (tagToken stream.inFlow)
      else if c = '|' && !stream.inFlow then stream.addBlockScalar false
      else if c = '>' && !stream.inFlow then stream.addBlockScalar true
      else if c = '\'' then stream.addLexeme Quote.single.token
      else if c = '\"' then stream.addLexeme Quote.double.token
      else if stream.startsPlain then stream.addPlain
      else cursor.fail .noToken .token cursor.mark

def readToken (stream : TokenStream) : Except Error TokenStream := do
  let stream ← stream.skipSpace.dropStaleKeys
  (stream.closeBlocks stream.mark.column).addToken

def holdsBack (stream : TokenStream) : Bool :=
  stream.queue.isEmpty || (stream.key :: stream.outerKeys).any fun key =>
    key.any fun key => key.number = stream.taken

/-- Reads on until the first token is certain. The fuel bounds the number of tokens. -/
def settleFrom : Nat → TokenStream → Except Error TokenStream
  | 0, stream => .ok stream
  | fuel + 1, stream => do
      let stream ← if stream.queue.isEmpty then .ok stream else stream.dropStaleKeys
      if stream.holdsBack then
        let stream ← stream.readToken
        settleFrom fuel stream
      else return stream

/-- The first token, which stays in the stream. Every token but the last has a character of
its own. -/
def peek (stream : TokenStream) : Except Error (Token × TokenStream) := do
  let stream ← stream.settleFrom (stream.cursor.rest.length + 2)
  match stream.queue with
  | [] => return (⟨.streamEnd, stream.mark, stream.mark⟩, stream)
  | token :: _ => return (token, stream)

def skip (stream : TokenStream) : TokenStream :=
  { stream with queue := stream.queue.tail, taken := stream.taken + 1 }

end TokenStream

end RiscAssembly.Yaml
