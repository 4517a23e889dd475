import RiscAssembly.Source.Error
import RiscAssembly.Source.Line

/-!
Sections: the lines of code under the text headers and those under the data headers, each
in source order. A `.bss` header opens data as well and leaves a marker line there. The
text has to begin with the declaration of the entry point and its label; the declaration
is dropped. Errors are those of the first line, from the top, that has one; the shape of
the text is checked after all lines have been seen.
-/

namespace RiscAssembly

inductive Section where
  | text
  | data
  | bss
  deriving DecidableEq

def Section.name : Section → Text
  | .text => ".text".toList
  | .data => ".data".toList
  | .bss => ".bss".toList

def Section.ofName? (name : Text) : Option Section :=
  [Section.text, .data, .bss].find? fun kind => kind.name = name

inductive LineRole where
  | header (kind : Section)
  | unsupportedHeader
  | content
  deriving DecidableEq

def sectionWord : Text := ".section".toList

/-- A header is the section word with one name, or the bare name of a known section. -/
def lineRole (code : Text) : LineRole :=
  match Text.words code with
  | [] => .content
  | [word] =>
      if word = sectionWord then .unsupportedHeader
      else match Section.ofName? word with
        | some kind => .header kind
        | none => .content
  | [word, name] =>
      if word = sectionWord then
        match Section.ofName? name with
        | some kind => .header kind
        | none => .unsupportedHeader
      else .content
  | word :: _ => if word = sectionWord then .unsupportedHeader else .content

structure Sections where
  text : List Line
  data : List Line
  deriving DecidableEq

def bssMarker : Text := ".section .bss".toList

/-- The lines by section, and the line of the first text header. -/
structure Partition where
  sections : Sections
  textHeader : Option Nat
  deriving DecidableEq

def Partition.addText (line : Line) (rest : Partition) : Partition :=
  { rest with sections := { rest.sections with text := line :: rest.sections.text } }

def Partition.addData (line : Line) (rest : Partition) : Partition :=
  { rest with sections := { rest.sections with data := line :: rest.sections.data } }

def partitionFrom : Option Section → List Line → Except LocatedError Partition
  | _, [] => .ok ⟨⟨[], []⟩, none⟩
  | current, line :: rest =>
      match lineRole line.code with
      | .header .text => do
          let tail ← partitionFrom (some .text) rest
          return { tail with textHeader := some line.number }
      | .header .data => partitionFrom (some .data) rest
      | .header .bss => do
          let tail ← partitionFrom (some .bss) rest
          return tail.addData ⟨line.number, bssMarker⟩
      | .unsupportedHeader => .error ⟨line.number, .unsupportedDirective line.code⟩
      | .content =>
          match current with
          | none => .error ⟨line.number, .structural (.outsideSection line.code)⟩
          | some .text => do
              let tail ← partitionFrom current rest
              return tail.addText line
          | some _ => do
              let tail ← partitionFrom current rest
              return tail.addData line

def entryDeclaration : List Text := [".globl".toList, "main".toList]

def entryLabel : Text := "main:".toList

/-- The text without the declaration of the entry point. -/
def dropEntryDeclaration (header : Nat) : List Line → Except LocatedError (List Line)
  | [] => .error ⟨header, .structural .missingEntryDeclaration⟩
  | first :: rest =>
      if Text.words first.code = entryDeclaration then
        if (rest.head?.map Line.code) = some entryLabel then .ok rest
        else .error ⟨first.number, .structural .missingEntryLabel⟩
      else .error ⟨first.number, .structural .missingEntryDeclaration⟩

def Sections.ofSource (source : Text) : Except LocatedError Sections := do
  let parts ← partitionFrom none (codeLines source)
  match parts.textHeader with
  | none => .error ⟨1, .structural .missingTextSection⟩
  | some header =>
      let text ← dropEntryDeclaration header parts.sections.text
      return { parts.sections with text }

end RiscAssembly
