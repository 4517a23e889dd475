import RiscAssembly.Yaml.TokenStream

/-!
The events of a YAML text: the starts, ends and leaves of its trees, in the order of the
text. They are drawn from the tokens one by one, so that what stands before a mistake is
still known.
-/

namespace RiscAssembly.Yaml

open Text

/-- A leaf with its anchor and its tag, in which the handle is already replaced. -/
structure ScalarLeaf where
  anchor : Option Text := none
  tag : Option Text := none
  text : Text := []
  style : ScalarStyle := .plain
  deriving DecidableEq

inductive EventKind where
  | streamEnd
  | documentStart
  | documentEnd
  | alias (name : Text)
  | scalar (leaf : ScalarLeaf)
  | sequenceStart (anchor : Option Text)
  | sequenceEnd
  | mappingStart (anchor : Option Text)
  | mappingEnd
  deriving DecidableEq

structure Event where
  kind : EventKind
  mark : Mark
  deriving DecidableEq

inductive Expectation where
  | firstDocument
  | document
  | documentContent
  | documentEnd
  | blockNode
  | blockEntry
  | bareEntry
  | blockKey
  | blockValue
  | flowFirstEntry
  | flowEntry
  | flowPairKey
  | flowPairValue
  | flowPairEnd
  | flowFirstKey
  | flowKey
  | flowValue
  | flowNoValue
  | nothing
  deriving DecidableEq

structure EventStream where
  tokens : TokenStream
  expected : Expectation := .firstDocument
  /-- What is expected behind the open nodes, from the inside. -/
  pending : List Expectation := []
  starts : List Mark := []
  /-- The meaning of the tag handles in this document. -/
  handles : List (Text × Text) := []
  deriving DecidableEq

abbrev Reading := StateT EventStream (Except Error)

namespace Reading

def peek : Reading Token := fun stream => do
  let (token, tokens) ← stream.tokens.peek
  return (token, { stream with tokens })

def skip : Reading Unit := modify fun stream => { stream with tokens := stream.tokens.skip }

def skipAndPeek : Reading Token := do
  skip
  peek

def expect (next : Expectation) : Reading Unit :=
  modify fun stream => { stream with expected := next }

/-- What is expected behind the node that is read next. -/
def await (next : Expectation) : Reading Unit :=
  modify fun stream => { stream with pending := next :: stream.pending }

def resume : Reading Unit := modify fun stream => match stream.pending with
  | [] => { stream with expected := .nothing }
  | next :: rest => { stream with expected := next, pending := rest }

def enter : Reading Unit := do
  let token ← peek
  skip
  modify fun stream => { stream with starts := token.start :: stream.starts }

def leave (kind : EventKind) (token : Token) : Reading Event := do
  skip
  resume
  modify fun stream => { stream with starts := stream.starts.tail }
  return ⟨kind, token.start⟩

def fail {α : Type} (problem : Problem) (mark : Mark) (within : Option (Context × Mark)) :
    Reading α :=
  throw (.malformed problem mark within)

def failWithin {α : Type} (problem : Problem) (context : Context) (token : Token) :
    Reading α := do
  let stream ← get
  fail problem token.start (stream.starts.head?.map fun start => (context, start))

/-- A scalar without text, where one is left out. -/
def absent (next : Expectation) (mark : Mark) : Reading Event := do
  expect next
  return ⟨.scalar {}, mark⟩

/-! Nodes. -/

structure Properties where
  anchor : Option Text := none
  tag : Option (Text × Text × Mark) := none
  start : Option Mark := none
  deriving DecidableEq

/-- Anchor and tag stand in either order; each is taken once. The fuel is two. -/
def propertiesFrom : Nat → Properties → Reading Properties
  | 0, properties => return properties
  | fuel + 1, properties => do
      let token ← peek
      let start := properties.start.or (some token.start)
      match token.kind, properties.anchor, properties.tag with
      | .anchor name, none, _ =>
          skip
          propertiesFrom fuel { properties with anchor := some name, start := start }
      | .tag handle rest, _, none =>
          skip
          propertiesFrom fuel
            { properties with tag := some (handle, rest, token.start), start := start }
      | _, _, _ => return properties

def resolveTag (start : Mark) : Option (Text × Text × Mark) → Reading (Option Text)
  | none => return none
  | some ([], rest, _) => return some rest
  | some (handle, rest, mark) => do
      let stream ← get
      match stream.handles.lookup handle with
      | some expansion => return some (expansion ++ rest)
      | none => fail .undefinedTagHandle mark (some (.node, start))

/-- The tag of a scalar. An exclamation mark alone is none. -/
def scalarTag (tag : Option Text) : Option Text := tag.filter fun tag => tag ≠ ['!']

/-- A node that is no alias. Blocks are known only where `block` holds; a sequence in a
mapping may stand at the column of its key, which `bare` allows. -/
def node (block bare : Bool) : Reading Event := do
  let first ← peek
  let properties ← propertiesFrom 2 {}
  let start := properties.start.getD first.start
  let token ← peek
  let tag ← resolveTag start properties.tag
  let anchor := properties.anchor
  match token.kind, block with
  | .scalar text style, _ =>
      skip
      resume
      return ⟨.scalar ⟨anchor, scalarTag tag, text, style⟩, start⟩
  | .flowSequenceStart, _ =>
      enter
      expect .flowFirstEntry
      return ⟨.sequenceStart anchor, start⟩
  | .flowMappingStart, _ =>
      enter
      expect .flowFirstKey
      return ⟨.mappingStart anchor, start⟩
  | .blockSequenceStart, true =>
      enter
      expect .blockEntry
      return ⟨.sequenceStart anchor, start⟩
  | .blockMappingStart, true =>
      enter
      expect .blockKey
      return ⟨.mappingStart anchor, start⟩
  | kind, _ =>
      if bare && kind = .blockEntry then
        expect .bareEntry
        return ⟨.sequenceStart anchor, start⟩
      else if anchor.isSome || tag.isSome then
        resume
        return ⟨.scalar ⟨anchor, tag, [], .plain⟩, start⟩
      else
        fail .noContent token.start (some (if block then .blockNode else .flowNode, start))

def aliasOrNode (block bare : Bool) : Reading Event := do
  let token ← peek
  match token.kind with
  | .alias name =>
      skip
      resume
      return ⟨.alias name, token.start⟩
  | _ => node block bare

def nodeThen (next : Expectation) (block bare : Bool) : Reading Event := do
  await next
  aliasOrNode block bare

/-! Documents. -/

def defaultHandles : List (Text × Text) :=
  [("!".toList, "!".toList), ("!!".toList, "tag:yaml.org,2002:".toList)]

/-- The directives before a document. A handle gets one meaning. The fuel bounds their
number. -/
def directivesFrom : Nat → (versioned : Bool) → List (Text × Text) → Reading (List (Text × Text))
  | 0, _, handles => return handles
  | fuel + 1, versioned, handles => do
      let token ← peek
      match token.kind with
      | .versionDirective major minor =>
          if versioned then fail .repeatedVersion token.start none
          else if major = 1 && (minor = 1 || minor = 2) then
            skip
            directivesFrom fuel true handles
          else fail .otherVersion token.start none
      | .tagDirective handle expansion =>
          if (handles.lookup handle).isSome then fail .repeatedTagHandle token.start none
          else
            skip
            directivesFrom fuel versioned (handles ++ [(handle, expansion)])
      | _ => return handles

def explicitDocument : Reading Event := do
  let first ← peek
  let stream ← get
  let handles ← directivesFrom (stream.tokens.cursor.rest.length + 2) false []
  modify fun stream => { stream with handles := handles ++ defaultHandles }
  let token ← peek
  if token.kind ≠ .documentStart then fail .noDocumentStart token.start none
  else
    skip
    await .documentEnd
    expect .documentContent
    return ⟨.documentStart, first.start⟩

def implicitDocument (token : Token) : Reading Event := do
  modify fun stream => { stream with handles := defaultHandles }
  await .documentEnd
  expect .blockNode
  return ⟨.documentStart, token.start⟩

def streamEnd (token : Token) : Reading Event := do
  skip
  expect .nothing
  return ⟨.streamEnd, token.start⟩

def startsDocument : TokenKind → Bool
  | .versionDirective .. => true
  | .tagDirective .. => true
  | .documentStart => true
  | _ => false

/-- Only the first document can do without its mark. -/
def firstDocument : Reading Event := do
  let token ← peek
  if token.kind = .streamEnd then streamEnd token
  else if startsDocument token.kind then explicitDocument
  else implicitDocument token

/-- Skips marks that end the document before. The fuel bounds their number. -/
def skipDocumentEnds : Nat → Reading Unit
  | 0 => return
  | fuel + 1 => do
      let token ← peek
      if token.kind = .documentEnd then
        skip
        skipDocumentEnds fuel

def document : Reading Event := do
  let stream ← get
  skipDocumentEnds (stream.tokens.cursor.rest.length + 2)
  let token ← peek
  if token.kind = .streamEnd then streamEnd token else explicitDocument

def documentContent : Reading Event := do
  let token ← peek
  if startsDocument token.kind || token.kind = .documentEnd || token.kind = .streamEnd then
    resume
    return ⟨.scalar {}, token.start⟩
  else aliasOrNode true false

def documentEnd : Reading Event := do
  let token ← peek
  if token.kind = .documentEnd then skip
  modify fun stream => { stream with handles := [] }
  expect .document
  return ⟨.documentEnd, token.start⟩

/-! Blocks. -/

def blockEntry : Reading Event := do
  let token ← peek
  match token.kind with
  | .blockEntry =>
      let next ← skipAndPeek
      if next.kind = .blockEntry || next.kind = .blockEnd then absent .blockEntry token.stop
      else nodeThen .blockEntry true false
  | .blockEnd => leave .sequenceEnd token
  | _ => failWithin .noBlockEntry .blockSequence token

def endsValue (kind : TokenKind) : Bool :=
  decide (kind = .key) || decide (kind = .value) || decide (kind = .blockEnd)

/-- An entry of a sequence at the column of its key, which ends without a token. -/
def bareEntry : Reading Event := do
  let token ← peek
  if token.kind = .blockEntry then
    let next ← skipAndPeek
    if next.kind = .blockEntry || endsValue next.kind then absent .bareEntry token.stop
    else nodeThen .bareEntry true false
  else
    resume
    return ⟨.sequenceEnd, token.start⟩

def blockKey : Reading Event := do
  let token ← peek
  match token.kind with
  | .key =>
      let next ← skipAndPeek
      if endsValue next.kind then absent .blockValue token.stop
      else nodeThen .blockValue true true
  | .blockEnd => leave .mappingEnd token
  | _ => failWithin .noBlockKey .blockMapping token

def blockValue : Reading Event := do
  let token ← peek
  if token.kind = .value then
    let next ← skipAndPeek
    if endsValue next.kind then absent .blockKey token.stop
    else nodeThen .blockKey true true
  else absent .blockKey token.start

/-! Brackets and braces. -/

/-- The token behind a comma, which only the first entry does without. -/
def behindComma (first : Bool) (close : TokenKind) (problem : Problem) (context : Context) :
    Reading Token := do
  let token ← peek
  if first || token.kind = close then return token
  else if token.kind = .flowEntry then skipAndPeek
  else failWithin problem context token

/-- A key in brackets starts a mapping of one pair. -/
def flowEntry (first : Bool) : Reading Event := do
  let token ← behindComma first .flowSequenceEnd .noFlowEntry .flowSequence
  match token.kind with
  | .flowSequenceEnd => leave .sequenceEnd token
  | .key =>
      skip
      expect .flowPairKey
      return ⟨.mappingStart none, token.start⟩
  | _ => nodeThen .flowEntry false false

def endsEntry (kind : TokenKind) : Bool :=
  decide (kind = .flowEntry) || decide (kind = .flowSequenceEnd)

/-- If the key is left out the token in its place is lost. -/
def flowPairKey : Reading Event := do
  let token ← peek
  if token.kind = .value || endsEntry token.kind then
    skip
    absent .flowPairValue token.stop
  else nodeThen .flowPairValue false false

def flowPairValue : Reading Event := do
  let token ← peek
  if token.kind = .value then
    let next ← skipAndPeek
    if endsEntry next.kind then absent .flowPairEnd next.start
    else nodeThen .flowPairEnd false false
  else absent .flowPairEnd token.start

def flowPairEnd : Reading Event := do
  let token ← peek
  expect .flowEntry
  return ⟨.mappingEnd, token.start⟩

def endsPair (kind : TokenKind) : Bool :=
  decide (kind = .flowEntry) || decide (kind = .flowMappingEnd)

/-- A node without the mark of a key is a key without a value. -/
def flowKey (first : Bool) : Reading Event := do
  let token ← behindComma first .flowMappingEnd .noFlowKey .flowMapping
  match token.kind with
  | .flowMappingEnd => leave .mappingEnd token
  | .key =>
      let next ← skipAndPeek
      if next.kind = .value || endsPair next.kind then absent .flowValue next.start
      else nodeThen .flowValue false false
  | _ => nodeThen .flowNoValue false false

def flowValue : Reading Event := do
  let token ← peek
  if token.kind = .value then
    let next ← skipAndPeek
    if endsPair next.kind then absent .flowKey next.start
    else nodeThen .flowKey false false
  else absent .flowKey token.start

def flowNoValue : Reading Event := do
  let token ← peek
  absent .flowKey token.start

def event : Reading Event := do
  match (← get).expected with
  | .firstDocument => firstDocument
  | .document => document
  | .documentContent => documentContent
  | .documentEnd => documentEnd
  | .blockNode => aliasOrNode true false
  | .blockEntry => blockEntry
  | .bareEntry => bareEntry
  | .blockKey => blockKey
  | .blockValue => blockValue
  | .flowFirstEntry => flowEntry true
  | .flowEntry => flowEntry false
  | .flowPairKey => flowPairKey
  | .flowPairValue => flowPairValue
  | .flowPairEnd => flowPairEnd
  | .flowFirstKey => flowKey true
  | .flowKey => flowKey false
  | .flowValue => flowValue
  | .flowNoValue => flowNoValue
  | .nothing => do
      let token ← peek
      return ⟨.streamEnd, token.start⟩

end Reading

namespace EventStream

def ofText (text : Text) : EventStream := { tokens := .ofText text }

def next (stream : EventStream) : Except Error (Event × EventStream) := Reading.event.run stream

end EventStream

end RiscAssembly.Yaml
