import RiscAssembly.Isa.Catalogue
import RiscAssembly.Isa.Literal
import RiscAssembly.Isa.Register

/-!
Instruction words. Operands are first read into the fields of a word, then laid out in
the order of the format. The operand that is read first is the one whose error is
reported: a shift reads its amount before its registers, and `jalr` finds its base
register before it reads the destination. Register fields that an instruction does not
have are register zero.
-/

namespace RiscAssembly

/-- A machine word of 32 bits, most significant first. -/
abbrev Word := Text

structure WordFields where
  rd : Text := Register.zero.bits
  rs1 : Text := Register.zero.bits
  rs2 : Text := Register.zero.bits
  imm : Text := []
  deriving DecidableEq

namespace Descriptor

open BitString

def checkWidth (descriptor : Descriptor) (field : WordField) (bits : Text) (expected : Nat) :
    Except InstructionError Unit :=
  if Text.byteLength bits = expected then .ok ()
  else .error (.fieldWidth descriptor.mnemonic field (Text.byteLength bits) expected)

/-- The word of the given format with the descriptor's fixed bits. Only the widths of the
fields are checked. -/
def layout (descriptor : Descriptor) (format : Format) (fields : WordFields) :
    Except InstructionError Word := do
  match format with
  | .r =>
      descriptor.checkWidth .rs2 fields.rs2 5
      descriptor.checkWidth .rs1 fields.rs1 5
      descriptor.checkWidth .rd fields.rd 5
      return descriptor.funct7 ++ fields.rs2 ++ fields.rs1 ++ descriptor.funct3 ++ fields.rd
        ++ descriptor.opcode
  | .i =>
      descriptor.checkWidth .imm12 fields.imm 12
      descriptor.checkWidth .rs1 fields.rs1 5
      descriptor.checkWidth .rd fields.rd 5
      return fields.imm ++ fields.rs1 ++ descriptor.funct3 ++ fields.rd ++ descriptor.opcode
  | .s =>
      descriptor.checkWidth .imm12 fields.imm 12
      descriptor.checkWidth .rs2 fields.rs2 5
      descriptor.checkWidth .rs1 fields.rs1 5
      let high ← slice fields.imm 11 5
      let low ← slice fields.imm 4 0
      return high ++ fields.rs2 ++ fields.rs1 ++ descriptor.funct3 ++ low ++ descriptor.opcode
  | .u =>
      descriptor.checkWidth .imm20 fields.imm 20
      descriptor.checkWidth .rd fields.rd 5
      return fields.imm ++ fields.rd ++ descriptor.opcode

def registerField (token : Text) : Except InstructionError Text := do
  let register ← Register.parse token
  return register.bits

/-- The base register and the offset of a register jump, in either order: the first token
that names a register is the base. -/
def jumpBase (first second : Text) : Except InstructionError (Text × Text) :=
  match Register.ofName? first with
  | some register => .ok (register.bits, second)
  | none => do
      let base ← registerField second
      return (base, first)

/-- The fields that operand tokens give, once their number is known to be right. -/
def matchOperands (descriptor : Descriptor) :
    OperandPattern → List Text → Except InstructionError WordFields
  | .registers, [first, second, third] => do
      let rd ← registerField first
      let rs1 ← registerField second
      let rs2 ← registerField third
      return { rd, rs1, rs2 }
  | .immediate, [first, second, third] => do
      let rd ← registerField first
      let rs1 ← registerField second
      let imm ← Literal.field third 12
      return { rd, rs1, imm }
  | .shift, [first, second, third] => do
      let amount ← Literal.field third 6
      let rd ← registerField first
      let rs1 ← registerField second
      let code ← slice descriptor.funct7 6 1
      return { rd, rs1, imm := code ++ amount }
  | .load, [first, second, third] => do
      let rd ← registerField first
      let imm ← Literal.field second 12
      let rs1 ← registerField third
      return { rd, rs1, imm }
  | .jumpRegister, [first, second, third] => do
      let base ← jumpBase second third
      let rd ← registerField first
      let imm ← Literal.field base.2 12
      return { rd, rs1 := base.1, imm }
  | .store, [first, second, third] => do
      let rs2 ← registerField first
      let imm ← Literal.field second 12
      let rs1 ← registerField third
      return { rs1, rs2, imm }
  | .branch, [first, second, third] => do
      let rs1 ← registerField first
      let rs2 ← registerField second
      let imm ← Literal.field third 12
      return { rs1, rs2, imm }
  | .upper, [first, second] => do
      let rd ← registerField first
      let imm ← Literal.field second (if descriptor.format = .u then 20 else 12)
      return { rd, imm }
  | .bare, [] => do
      let code := if descriptor.mnemonic = "ebreak".toList then "1" else "0"
      let imm ← Literal.field code.toList 12
      return { imm }
  | _, _ => .error (.fault .operandSlot)

def readOperands (descriptor : Descriptor) (operands : List Text) :
    Except InstructionError WordFields :=
  if operands.length = descriptor.pattern.arity then
    descriptor.matchOperands descriptor.pattern operands
  else
    .error (.operandArity descriptor.mnemonic descriptor.pattern.arity operands.length)

end Descriptor

/-- The word of one machine instruction: a mnemonic and its operands. -/
def encode : List Text → Except InstructionError Word
  | [] => .error (.unsupportedMnemonic [])
  | mnemonic :: operands => do
      let descriptor ← Catalogue.lookup mnemonic
      let fields ← descriptor.readOperands operands
      descriptor.layout descriptor.format fields

end RiscAssembly
