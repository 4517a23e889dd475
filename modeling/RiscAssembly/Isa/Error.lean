import RiscAssembly.Text.Numeral

/-!
Why an instruction cannot be expanded or encoded. A `Fault` is no statement about the
source: it records that one of the assembler's own consistency checks did not hold.
-/

namespace RiscAssembly

inductive Fault where
  /-- A slice reached outside a bit string, or into the middle of a character. -/
  | bitRange
  /-- An instruction lacked an operand after its operands had been counted. -/
  | operandSlot
  /-- An expansion did not have the size its pseudo-instruction declares. -/
  | expansionSize
  /-- An instruction was not at the address the layout gave it. -/
  | misplaced
  /-- A statement had no tokens. -/
  | emptyStatement
  deriving DecidableEq

/-- The parts of an instruction word whose width is checked. -/
inductive WordField where
  | rs1
  | rs2
  | rd
  | imm12
  | imm20
  deriving DecidableEq

inductive InstructionError where
  | literalFormat (literal : Text)
  | tooWide (bits : Text) (width : Nat)
  | unsupportedMnemonic (mnemonic : Text)
  | operandArity (mnemonic : Text) (expected found : Nat)
  | invalidRegister (name : Text)
  | fieldWidth (mnemonic : Text) (field : WordField) (actual expected : Nat)
  | fault (broken : Fault)
  deriving DecidableEq

def Fault.message : Fault → Text
  | .bitRange => "bit range".toList
  | .operandSlot => "operand slot".toList
  | .expansionSize => "expansion size".toList
  | .misplaced => "misplaced instruction".toList
  | .emptyStatement => "empty statement".toList

def WordField.name : WordField → Text
  | .rs1 => "rs1".toList
  | .rs2 => "rs2".toList
  | .rd => "rd".toList
  | .imm12 => "imm12".toList
  | .imm20 => "imm20".toList

def quoted (text : Text) : Text := "`".toList ++ text ++ "`".toList

def InstructionError.message : InstructionError → Text
  | .literalFormat literal =>
      "Cannot parse ".toList ++ quoted literal ++ " as integer literal".toList
  | .tooWide bits width =>
      "Bit string ".toList ++ quoted bits ++ " is wider than ".toList ++ Text.decimal width
        ++ " bits".toList
  | .unsupportedMnemonic mnemonic => "Unsupported mnemonic: ".toList ++ quoted mnemonic
  | .operandArity mnemonic expected found =>
      quoted mnemonic ++ " takes ".toList ++ Text.decimal expected ++ " operand(s), found ".toList
        ++ Text.decimal found
  | .invalidRegister name => "Invalid register: ".toList ++ quoted name
  | .fieldWidth mnemonic field actual expected =>
      quoted mnemonic ++ ": field ".toList ++ field.name ++ " is ".toList ++ Text.decimal actual
        ++ " bits wide, expected ".toList ++ Text.decimal expected
  | .fault broken => "Internal check failed: ".toList ++ broken.message

end RiscAssembly
