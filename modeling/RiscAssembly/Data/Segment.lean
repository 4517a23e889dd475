import RiscAssembly.Data.Directive
import RiscAssembly.Program.Symbols
import RiscAssembly.Source.Section

/-!
The data segment: directives laid out one after the other from offset zero. A label has
the offset of what follows it. Offsets are 64-bit; a segment whose size is not, even if
only its end is out of reach, is refused at the directive that runs over.
-/

namespace RiscAssembly

open Text

/-- A line of data: a label, a directive, both or neither. -/
structure DataEntry where
  label : Option Text
  directive : Option Directive
  deriving DecidableEq

namespace DataEntry

def parse (code : Text) : Except SourceError DataEntry :=
  if code = bssMarker then .ok ⟨none, none⟩
  else if code.head? = some '.' then do
    let directive ← Directive.parse code
    return ⟨none, some directive⟩
  else match cut (· = ':') code with
    | none => .error (.unsupportedDirective code)
    | some (name, rest) => do
        let label ← parseLabel (name ++ [':'])
        if (trim rest).isEmpty then return ⟨label, none⟩
        else
          let directive ← Directive.parse (trim rest)
          return ⟨label, some directive⟩

def values (entry : DataEntry) : List Text :=
  match entry.directive with
  | some directive => directive.values
  | none => []

/-- The offset behind the entry. -/
def advance (entry : DataEntry) (offset : UInt64) : Except SourceError UInt64 :=
  match entry.directive with
  | none => .ok offset
  | some directive =>
      if offset.toNat + directive.size < UInt64.size then .ok (offset + UInt64.ofNat directive.size)
      else .error (.dataOverflow directive.name)

def definitions (entry : DataEntry) (line : Nat) (offset : UInt64) : List (Symbol UInt64) :=
  entry.label.toList.map fun name => ⟨name, line, offset⟩

end DataEntry

structure DataLayout where
  definitions : List (Symbol UInt64)
  values : List Text
  size : UInt64
  deriving DecidableEq

def dataLayoutFrom : UInt64 → List Line → Except LocatedError DataLayout
  | offset, [] => .ok ⟨[], [], offset⟩
  | offset, line :: rest => do
      let entry ← onLine line.number (DataEntry.parse line.code)
      let next ← onLine line.number (entry.advance offset)
      let tail ← dataLayoutFrom next rest
      return ⟨entry.definitions line.number offset ++ tail.definitions,
        entry.values ++ tail.values, tail.size⟩

structure DataSegment where
  values : List Text
  symbols : SymbolTable UInt64
  warnings : List Warning
  size : UInt64
  deriving DecidableEq

def DataLayout.segment (layout : DataLayout) : DataSegment :=
  let defined := SymbolTable.empty.define layout.definitions
  ⟨layout.values, defined.1, defined.2, layout.size⟩

def DataSegment.ofLines (lines : List Line) : Except LocatedError DataSegment := do
  let layout ← dataLayoutFrom 0 lines
  return layout.segment

end RiscAssembly
