import RiscAssembly.Program.Assemble

/-!
The artifacts of the assembler as trees of data: an assembled program, without its warnings,
and the catalogue of machine instructions. How a tree is written as YAML is not settled here.
-/

namespace RiscAssembly

inductive Yaml.Value where
  | text (content : Text)
  | number (value : Nat)
  | sequence (items : List Yaml.Value)
  /-- Keys and values in order. -/
  | mapping (entries : List (Text × Yaml.Value))

open Yaml

def Yaml.Value.ofTexts (texts : List Text) : Value := .sequence (texts.map .text)

def Instruction.artifact (instruction : Instruction) : Value :=
  .mapping
    [("tokens".toList, .ofTexts instruction.tokens),
      ("line".toList, .number instruction.line),
      ("addr".toList, .number instruction.address.toNat),
      ("size".toList, .number instruction.size)]

/-- Names and addresses. The lines of the definitions are left out. -/
def SymbolTable.artifact {Address : Type} (value : Address → Nat) (table : SymbolTable Address) :
    Value :=
  .mapping (table.symbols.map fun symbol => (symbol.name, .number (value symbol.address)))

def Program.artifact (program : Program) : Value :=
  .mapping
    [("instructions".toList, .sequence (program.instructions.map Instruction.artifact)),
      ("machine_codes".toList, .ofTexts program.machineWords),
      ("data_memory_values".toList, .ofTexts program.dataValues),
      ("code_symbols".toList, program.codeSymbols.artifact UInt32.toNat),
      ("data_symbols".toList, program.dataSymbols.artifact UInt64.toNat)]

def Descriptor.artifact (descriptor : Descriptor) : Value :=
  .mapping
    [("opcode".toList, .text descriptor.opcode),
      ("funct3".toList, .text descriptor.funct3),
      ("funct7".toList, .text descriptor.funct7),
      ("format".toList, .text descriptor.format.name),
      ("operands".toList, .text descriptor.pattern.name)]

def Catalogue.artifact : Value :=
  .mapping (Catalogue.all.map fun descriptor => (descriptor.mnemonic, descriptor.artifact))

end RiscAssembly
