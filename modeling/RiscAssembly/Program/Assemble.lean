import RiscAssembly.Data.Segment
import RiscAssembly.Isa.Word
import RiscAssembly.Program.Placement

/-!
Programs, and the two passes that make one from a source text. The first pass places
instructions and data; the second replaces references, those to data first, and encodes.
The error of the earliest step is reported: sections, statements, data, and then the
instructions one by one.
-/

namespace RiscAssembly

structure Program where
  instructions : List Instruction
  machineWords : List Word
  dataValues : List Text
  codeSymbols : SymbolTable UInt32
  dataSymbols : SymbolTable UInt64
  warnings : List Warning
  deriving DecidableEq

def encodeAll : List (List Text) → Except InstructionError (List Word)
  | [] => .ok []
  | tokens :: rest => do
      let word ← encode tokens
      let tail ← encodeAll rest
      return word :: tail

/-- The words that the expansion of a source instruction encodes to. -/
def Instruction.emit (instruction : Instruction) : Except LocatedError (List Word) :=
  onLine instruction.line (asSource (do
    let machine ← expand instruction.tokens
    encodeAll machine))

def emitAll : List Instruction → Except LocatedError (List Word)
  | [] => .ok []
  | instruction :: rest => do
      let words ← instruction.emit
      let tail ← emitAll rest
      return words ++ tail

def assembleSections (sections : Sections) (base : UInt64) : Except LocatedError Program := do
  let placement ← placeFrom 0 sections.text
  let defined := SymbolTable.empty.define placement.definitions
  let data ← DataSegment.ofLines sections.data
  let instructions ←
    referToCode defined.1 (referToData data.symbols base placement.instructions)
  let machineWords ← emitAll instructions
  return {
    instructions
    machineWords
    dataValues := data.values
    codeSymbols := defined.1
    dataSymbols := data.symbols
    warnings := defined.2 ++ data.warnings }

/-- The program of a source text, with the data segment at the address `base`. -/
def assemble (path source : Text) (base : UInt64) : Except Diagnostic Program :=
  match Sections.ofSource source with
  | .error found => .error (found.inFile path)
  | .ok sections => match assembleSections sections base with
    | .error found => .error (found.inFile path)
    | .ok program => .ok program

def shareWords : List Instruction → List Word → List (Instruction × List Word)
  | [], _ => []
  | instruction :: rest, words =>
      (instruction, words.take (instruction.size / 4))
        :: shareWords rest (words.drop (instruction.size / 4))

/-- The machine words by instruction, as many for each as its size tells. -/
def Program.wordsByInstruction (program : Program) : List (Instruction × List Word) :=
  shareWords program.instructions program.machineWords

end RiscAssembly
