import RiscAssembly.Isa.Pseudo
import RiscAssembly.Program.Symbols
import RiscAssembly.Source.Statement

/-!
Placement gives every instruction an address and every label the address of what follows
it. Addresses count bytes modulo 2^32 from zero. References are then replaced: an operand
that is a data label becomes the label's address, one that is a code label becomes its
distance from the instruction. Mnemonics are never references.
-/

namespace RiscAssembly

structure Instruction where
  tokens : List Text
  line : Nat
  address : UInt32
  size : Nat
  deriving DecidableEq

def Instruction.mnemonic (instruction : Instruction) : Text := instruction.tokens.head?.getD []

def Instruction.mapOperands (replace : Text → Text) (instruction : Instruction) : Instruction :=
  match instruction.tokens with
  | [] => instruction
  | mnemonic :: operands => { instruction with tokens := mnemonic :: operands.map replace }

structure Placement where
  instructions : List Instruction
  definitions : List (Symbol UInt32)
  deriving DecidableEq

def placeFrom : UInt32 → List Line → Except LocatedError Placement
  | _, [] => .ok ⟨[], []⟩
  | address, line :: rest => do
      match ← onLine line.number (Statement.parse line.code) with
      | .label name =>
          let tail ← placeFrom address rest
          return { tail with definitions := ⟨name, line.number, address⟩ :: tail.definitions }
      | .instruction [] => .error ⟨line.number, .instruction (.fault .emptyStatement)⟩
      | .instruction (mnemonic :: operands) =>
          let size := byteSize mnemonic
          let placed : Instruction := ⟨mnemonic :: operands, line.number, address, size⟩
          let tail ← placeFrom (address + UInt32.ofNat size) rest
          return { tail with instructions := placed :: tail.instructions }

def dataReference (symbols : SymbolTable UInt64) (base : UInt64) (operand : Text) : Text :=
  match symbols.address? operand with
  | some offset => Text.decimal (base + offset).toNat
  | none => operand

def referToData (symbols : SymbolTable UInt64) (base : UInt64) (instructions : List Instruction) :
    List Instruction :=
  instructions.map (Instruction.mapOperands (dataReference symbols base))

def codeReference (symbols : SymbolTable UInt32) (address : UInt32) (operand : Text) : Text :=
  match symbols.address? operand with
  | some target => Text.signedDecimal ((target.toNat : Int) - address.toNat)
  | none => operand

/-- Distances are taken from a running address, at which the instruction has to be. -/
def referToCodeFrom (symbols : SymbolTable UInt32) :
    UInt32 → List Instruction → Except LocatedError (List Instruction)
  | _, [] => .ok []
  | address, instruction :: rest =>
      if instruction.address = address then do
        let next := address + UInt32.ofNat (byteSize instruction.mnemonic)
        let tail ← referToCodeFrom symbols next rest
        return instruction.mapOperands (codeReference symbols address) :: tail
      else .error ⟨instruction.line, .instruction (.fault .misplaced)⟩

def referToCode (symbols : SymbolTable UInt32) (instructions : List Instruction) :
    Except LocatedError (List Instruction) :=
  referToCodeFrom symbols 0 instructions

end RiscAssembly
