import RiscAssembly.Yaml.Event

/-!
Documents: the first tree of a YAML text as a list of its parts. A mistake in the text ends
the list and is kept, since what stands before it may be wrong for another reason, which
then counts first.
-/

namespace RiscAssembly.Yaml

open Text

inductive PartKind where
  | nothing
  | alias (number : Nat)
  | scalar (leaf : ScalarLeaf)
  | sequenceStart
  | sequenceEnd
  | mappingStart
  | mappingEnd
  deriving DecidableEq

structure Part where
  kind : PartKind
  mark : Mark
  deriving DecidableEq

structure Document where
  parts : List Part := []
  mistake : Option Error := none
  /-- The places of the parts with anchors, by number, the latest first. -/
  anchored : List (Nat × Nat) := []
  isLast : Bool := true
  deriving DecidableEq

/-- A document as far as it has been read, and the names of its anchors with their numbers,
the latest first. -/
structure DocumentDraft where
  document : Document := {}
  names : List (Text × Nat) := []
  deriving DecidableEq

namespace DocumentDraft

def add (draft : DocumentDraft) (kind : PartKind) (mark : Mark) : DocumentDraft :=
  { draft with document :=
    { draft.document with parts := draft.document.parts ++ [⟨kind, mark⟩] } }

def nameCount (draft : DocumentDraft) : Nat := (draft.names.map Prod.fst).eraseDups.length

/-- Gives the next part an anchor. A name that is used again keeps its count, so its number
may be in use: the later part then has it. -/
def name (draft : DocumentDraft) : Option Text → DocumentDraft
  | none => draft
  | some anchor =>
      let number := draft.nameCount
      let place := draft.document.parts.length
      { document := { draft.document with anchored := (number, place) :: draft.document.anchored }
        names := (anchor, number) :: draft.names }

def stopAt (draft : DocumentDraft) (mistake : Error) : Document :=
  { draft.document with mistake := some mistake, isLast := false }

end DocumentDraft

namespace Document

def endsAt (stream : EventStream) : Bool :=
  match stream.next with
  | .ok (event, _) => decide (event.kind = .streamEnd)
  | .error _ => false

def ofEventsFrom : Nat → DocumentDraft → EventStream → Document
  | 0, draft, _ => draft.document
  | fuel + 1, draft, stream => match stream.next with
    | .error mistake => draft.stopAt mistake
    | .ok (event, stream) =>
        let goOn := fun draft => ofEventsFrom fuel draft stream
        match event.kind with
        | .streamEnd => (draft.add .nothing event.mark).document
        | .documentStart => goOn draft
        | .documentEnd => { draft.document with isLast := endsAt stream }
        | .alias name => match draft.names.lookup name with
          | some number => goOn (draft.add (.alias number) event.mark)
          | none => draft.stopAt (.unknownAnchor event.mark)
        | .scalar leaf => goOn ((draft.name leaf.anchor).add (.scalar leaf) event.mark)
        | .sequenceStart anchor => goOn ((draft.name anchor).add .sequenceStart event.mark)
        | .sequenceEnd => goOn (draft.add .sequenceEnd event.mark)
        | .mappingStart anchor => goOn ((draft.name anchor).add .mappingStart event.mark)
        | .mappingEnd => goOn (draft.add .mappingEnd event.mark)

def unreadableFrom : Nat → Text → Option Nat
  | _, [] => none
  | bytes, c :: rest =>
      if isReadable c then unreadableFrom (bytes + c.utf8Size) rest else some bytes

/-- The first document of a text. Every character makes up to five events. -/
def ofText (text : Text) : Document :=
  match unreadableFrom 0 text with
  | some bytes => { mistake := some (.unreadable bytes), isLast := false }
  | none => ofEventsFrom (5 * text.length + 5) {} (.ofText text)

def target? (document : Document) (number : Nat) : Option Part :=
  (document.anchored.lookup number).bind fun place => document.parts[place]?

end Document

end RiscAssembly.Yaml
