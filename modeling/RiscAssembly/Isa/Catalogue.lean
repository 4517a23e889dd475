import RiscAssembly.Isa.Error

/-!
The catalogue of machine instructions, in the order in which it is listed. A descriptor
gives an instruction's word format, the pattern of its operands and the fixed bits of its
word. Two descriptors may share all fixed bits only if their operands tell them apart:
`ecall` and `ebreak` differ in the immediate alone.
-/

namespace RiscAssembly

inductive Format where
  | r
  | i
  | s
  | u
  deriving DecidableEq

def Format.name : Format → Text
  | .r => "R".toList
  | .i => "I".toList
  | .s => "S".toList
  | .u => "U".toList

def Format.ofName? (text : Text) : Option Format :=
  [Format.r, .i, .s, .u].find? fun format => format.name = text

/-- How operand tokens are matched with the fields of a word. -/
inductive OperandPattern where
  /-- `rd, rs1, rs2` -/
  | registers
  /-- `rd, rs1, imm` -/
  | immediate
  /-- `rd, rs1, amount` -/
  | shift
  /-- `rd, offset, rs1` -/
  | load
  /-- `rd, rs1, imm`, or `rd, offset, rs1` -/
  | jumpRegister
  /-- `rs2, offset, rs1` -/
  | store
  /-- `rs1, rs2, offset` -/
  | branch
  /-- `rd, imm` -/
  | upper
  /-- no operands -/
  | bare
  deriving DecidableEq

def OperandPattern.name : OperandPattern → Text
  | .registers => "Rrr".toList
  | .immediate => "Rri".toList
  | .shift => "Shift".toList
  | .load => "Load".toList
  | .jumpRegister => "Jalr".toList
  | .store => "Store".toList
  | .branch => "Branch".toList
  | .upper => "Upper".toList
  | .bare => "Bare".toList

def OperandPattern.arity : OperandPattern → Nat
  | .upper => 2
  | .bare => 0
  | _ => 3

structure Descriptor where
  mnemonic : Text
  format : Format
  pattern : OperandPattern
  opcode : Text
  funct3 : Text
  funct7 : Text
  deriving DecidableEq

namespace Catalogue

def entry (mnemonic : String) (format : Format) (pattern : OperandPattern)
    (opcode funct3 funct7 : String) : Descriptor :=
  ⟨mnemonic.toList, format, pattern, opcode.toList, funct3.toList, funct7.toList⟩

def registerEntry (mnemonic opcode funct3 funct7 : String) : Descriptor :=
  entry mnemonic .r .registers opcode funct3 funct7

/-- Instructions without a function code of seven bits carry zeros there. -/
def plainEntry (mnemonic : String) (format : Format) (pattern : OperandPattern)
    (opcode funct3 : String) : Descriptor :=
  entry mnemonic format pattern opcode funct3 "0000000"

def all : List Descriptor :=
  [registerEntry "add" "0110011" "000" "0000000",
    registerEntry "sub" "0110011" "000" "0100000",
    registerEntry "sll" "0110011" "001" "0000000",
    registerEntry "slt" "0110011" "010" "0000000",
    registerEntry "sltu" "0110011" "011" "0000000",
    registerEntry "xor" "0110011" "100" "0000000",
    registerEntry "srl" "0110011" "101" "0000000",
    registerEntry "sra" "0110011" "101" "0100000",
    registerEntry "or" "0110011" "110" "0000000",
    registerEntry "and" "0110011" "111" "0000000",
    registerEntry "addw" "0111011" "000" "0000000",
    registerEntry "subw" "0111011" "000" "0100000",
    registerEntry "sllw" "0111011" "001" "0000000",
    registerEntry "srlw" "0111011" "101" "0000000",
    registerEntry "sraw" "0111011" "101" "0100000",
    registerEntry "seq" "0101011" "000" "0000000",
    registerEntry "sne" "0101011" "001" "0000000",
    plainEntry "addi" .i .immediate "0010011" "000",
    plainEntry "slti" .i .immediate "0010011" "010",
    plainEntry "sltiu" .i .immediate "0010011" "011",
    plainEntry "xori" .i .immediate "0010011" "100",
    plainEntry "ori" .i .immediate "0010011" "110",
    plainEntry "andi" .i .immediate "0010011" "111",
    entry "slli" .i .shift "0010011" "001" "0000000",
    entry "srli" .i .shift "0010011" "101" "0000000",
    entry "srai" .i .shift "0010011" "101" "0100000",
    plainEntry "addiw" .i .immediate "0011011" "000",
    plainEntry "lb" .i .load "0000011" "000",
    plainEntry "lh" .i .load "0000011" "001",
    plainEntry "lw" .i .load "0000011" "010",
    plainEntry "ld" .i .load "0000011" "011",
    plainEntry "lbu" .i .load "0000011" "100",
    plainEntry "lhu" .i .load "0000011" "101",
    plainEntry "lwu" .i .load "0000011" "110",
    plainEntry "jalr" .i .jumpRegister "1100111" "000",
    plainEntry "ecall" .i .bare "1110011" "000",
    plainEntry "ebreak" .i .bare "1110011" "000",
    plainEntry "sb" .s .store "0100011" "000",
    plainEntry "sh" .s .store "0100011" "001",
    plainEntry "sw" .s .store "0100011" "010",
    plainEntry "sd" .s .store "0100011" "011",
    plainEntry "beq" .s .branch "1100011" "000",
    plainEntry "bne" .s .branch "1100011" "001",
    plainEntry "blt" .s .branch "1100011" "100",
    plainEntry "bge" .s .branch "1100011" "101",
    plainEntry "bltu" .s .branch "1100011" "110",
    plainEntry "bgeu" .s .branch "1100011" "111",
    plainEntry "lui" .u .upper "0110111" "000",
    plainEntry "auipc" .u .upper "0010111" "000",
    plainEntry "jal" .u .upper "1101111" "000",
    plainEntry "addi20u" .u .upper "0001011" "000"]

def find? (mnemonic : Text) : Option Descriptor := all.find? fun d => d.mnemonic = mnemonic

def lookup (mnemonic : Text) : Except InstructionError Descriptor :=
  match find? mnemonic with
  | some descriptor => .ok descriptor
  | none => .error (.unsupportedMnemonic mnemonic)

end Catalogue

end RiscAssembly
