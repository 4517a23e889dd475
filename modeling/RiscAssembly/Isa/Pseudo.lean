import RiscAssembly.Isa.Catalogue
import RiscAssembly.Isa.Literal

/-!
Pseudo-instructions: names that stand for one or more machine instructions. Most are a
template that copies operands into the slots of one instruction. Two build a value in a
register: `la` from an upper and a lower part, where the lower part is added with its
sign and the upper part makes up for it, and `li` from four chunks shifted in one after
the other. Every pseudo-instruction declares its size in bytes, which addresses rely on
before anything is expanded.
-/

namespace RiscAssembly

open BitString

inductive Slot where
  | operand (index : Nat)
  | token (text : Text)
  deriving DecidableEq

inductive Expansion where
  | template (slots : List Slot)
  | loadAddress
  | loadImmediate
  deriving DecidableEq

structure Pseudo where
  mnemonic : Text
  arity : Nat
  size : Nat
  expansion : Expansion
  deriving DecidableEq

def Slot.fill (operands : List Text) : Slot → Except InstructionError Text
  | .token text => .ok text
  | .operand index => match operands[index]? with
    | some text => .ok text
    | none => .error (.fault .operandSlot)

/-- The upper twenty bits of an address, one more if the lower twelve count as negative. -/
def upperPart (upper lower : Text) : Nat :=
  if lower.head? = some '1' then (unsigned upper + 1) % 0x100000 else unsigned upper

def loadAddress (rd literal : Text) : Except InstructionError (List (List Text)) := do
  let value ← Literal.twosComplement literal
  let lower ← slice value 11 0
  let upper ← slice value 31 12
  return [["lui".toList, rd, Text.decimal (upperPart upper lower)],
    ["addi".toList, rd, rd, Text.signedDecimal (signed lower)]]

def addChunk (rd chunk : Text) : List Text := ["addi20u".toList, rd, Text.decimal (unsigned chunk)]

def makeRoom (rd : Text) : List Text := ["slli".toList, rd, rd, "20".toList]

/-- The top chunk holds the four bits that the three lower ones leave over. -/
def loadImmediate (rd literal : Text) : Except InstructionError (List (List Text)) := do
  let value ← Literal.twosComplement literal
  let chunk3 ← slice value 63 60
  let chunk2 ← slice value 59 40
  let chunk1 ← slice value 39 20
  let chunk0 ← slice value 19 0
  return [["addi".toList, rd, "zero".toList, "0".toList],
    addChunk rd chunk3, makeRoom rd,
    addChunk rd chunk2, makeRoom rd,
    addChunk rd chunk1, makeRoom rd,
    addChunk rd chunk0]

def Expansion.apply : Expansion → List Text → Except InstructionError (List (List Text))
  | .template slots, operands => do
      let tokens ← slots.mapM (Slot.fill operands)
      return [tokens]
  | .loadAddress, [rd, literal] => RiscAssembly.loadAddress rd literal
  | .loadImmediate, [rd, literal] => RiscAssembly.loadImmediate rd literal
  | _, _ => .error (.fault .operandSlot)

namespace Pseudo

def fixed (text : String) : Slot := .token text.toList

def single (mnemonic : String) (arity : Nat) (slots : List Slot) : Pseudo :=
  ⟨mnemonic.toList, arity, 4, .template slots⟩

def all : List Pseudo :=
  [⟨"la".toList, 2, 8, .loadAddress⟩,
    ⟨"li".toList, 2, 32, .loadImmediate⟩,
    single "nop" 0 [fixed "addi", fixed "zero", fixed "zero", fixed "0"],
    single "mv" 2 [fixed "addi", .operand 0, .operand 1, fixed "0"],
    single "not" 2 [fixed "xori", .operand 0, .operand 1, fixed "-1"],
    single "neg" 2 [fixed "sub", .operand 0, fixed "zero", .operand 1],
    single "snez" 2 [fixed "sne", .operand 0, .operand 1, fixed "zero"],
    single "seqz" 2 [fixed "seq", .operand 0, .operand 1, fixed "zero"],
    single "sgt" 3 [fixed "slt", .operand 0, .operand 2, .operand 1],
    single "call" 1 [fixed "jal", fixed "ra", .operand 0],
    single "j" 1 [fixed "jal", fixed "zero", .operand 0],
    single "ret" 0 [fixed "jalr", fixed "zero", fixed "ra", fixed "0"],
    single "jr" 1 [fixed "jalr", fixed "zero", .operand 0, fixed "0"],
    single "beqz" 2 [fixed "beq", .operand 0, fixed "zero", .operand 1],
    single "bltz" 2 [fixed "blt", .operand 0, fixed "zero", .operand 1],
    single "bgez" 2 [fixed "bge", .operand 0, fixed "zero", .operand 1]]

def find? (mnemonic : Text) : Option Pseudo := all.find? fun p => p.mnemonic = mnemonic

def expand (pseudo : Pseudo) (operands : List Text) :
    Except InstructionError (List (List Text)) :=
  if operands.length = pseudo.arity then do
    let instructions ← pseudo.expansion.apply operands
    if instructions.length * 4 = pseudo.size then .ok instructions
    else .error (.fault .expansionSize)
  else .error (.operandArity pseudo.mnemonic pseudo.arity operands.length)

end Pseudo

/-- Bytes that an instruction takes up, known from its mnemonic alone. -/
def byteSize (mnemonic : Text) : Nat :=
  match Pseudo.find? mnemonic with
  | some pseudo => pseudo.size
  | none => 4

/-- The machine instructions that a source instruction stands for. -/
def expand : List Text → Except InstructionError (List (List Text))
  | [] => .error (.unsupportedMnemonic [])
  | mnemonic :: operands =>
      match Pseudo.find? mnemonic with
      | some pseudo => pseudo.expand operands
      | none =>
          match Catalogue.find? mnemonic with
          | some _ => .ok [mnemonic :: operands]
          | none => .error (.unsupportedMnemonic mnemonic)

end RiscAssembly
