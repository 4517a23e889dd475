import RiscAssembly.Program.Assemble
import RiscAssembly.Report.Style

/-!
Listings. Between two rules stand the instructions in order: the labels at the
instruction's address, then one row for each of its words. The first row shows the
instruction with its references replaced, the others only its line. The data symbols and
the data stream follow.
-/

namespace RiscAssembly

inductive ListingRow where
  | label (name : Text)
  /-- The first word of an instruction has its tokens beside it. -/
  | word (address : Nat) (bits : Word) (line : Nat) (tokens : Option (List Text))
  deriving DecidableEq

def labelRows (symbols : SymbolTable UInt32) (address : UInt32) : List ListingRow :=
  (symbols.symbols.filter fun symbol => symbol.address = address).map fun symbol =>
    .label symbol.name

def laterWordRows (line : Nat) : Nat → List Word → List ListingRow
  | _, [] => []
  | address, word :: rest => .word address word line none :: laterWordRows line (address + 4) rest

/-- Addresses within an instruction are not reduced modulo 2^32. -/
def wordRows (instruction : Instruction) : List Word → List ListingRow
  | [] => []
  | word :: rest =>
      .word instruction.address.toNat word instruction.line (some instruction.tokens)
        :: laterWordRows instruction.line (instruction.address.toNat + 4) rest

def Program.listingRows (program : Program) : List ListingRow :=
  program.wordsByInstruction.flatMap fun (instruction, words) =>
    labelRows program.codeSymbols instruction.address ++ wordRows instruction words

section Render

variable (styling : Styling)

def tokensColumn : List Text → Text
  | [] => []
  | mnemonic :: operands =>
      styling.styled [.bold] (Text.padEnd 8 ' ' mnemonic) ++ " ".toList
        ++ Text.join ", ".toList operands

def lineColumn (line : Nat) : Text := Text.padStart 4 ' ' (Text.decimal line) ++ ":   ".toList

def ListingRow.render : ListingRow → Text
  | .label name =>
      List.replicate 12 ' ' ++ "| ".toList ++ List.replicate 32 ' ' ++ " | ".toList
        ++ styling.styled [.green] (name ++ ":".toList)
  | .word address bits line tokens =>
      "[".toList ++ Text.hexadecimal 8 address ++ "]  | ".toList ++ bits ++ " | ".toList
        ++ match tokens with
          | some tokens => lineColumn line ++ tokensColumn styling tokens
          | none => styling.styled [.dim] (lineColumn line ++ "..".toList)

def listingRule : Text :=
  "------------+----------------------------------+--------------------------".toList

def dataSymbolRow (symbol : Symbol UInt64) : Text :=
  styling.styled [.cyan]
    ("@+0x".toList ++ Text.hexadecimal 4 symbol.address.toNat ++ " ".toList ++ symbol.name)

/-- A character of the data stream as the listing shows it: printable ASCII as it is, all
else escaped. -/
def visibleCharacter (c : Char) : Text :=
  if c = '\t' then "\\t".toList
  else if c = '\r' then "\\r".toList
  else if c = '\n' then "\\n".toList
  else if c = '\'' then "\\'".toList
  else if c = '\"' then "\\\"".toList
  else if c = '\\' then "\\\\".toList
  else if 0x20 ≤ c.toNat ∧ c.toNat ≤ 0x7E then [c]
  else "\\u\x7b".toList ++ Nat.toDigits 16 c.toNat ++ "\x7d".toList

def visible (text : Text) : Text := text.flatMap visibleCharacter

def dataRow (values : List Text) : List Text :=
  if values.isEmpty then []
  else [styling.styled [.yellow] (Text.join " ".toList (values.map visible))]

def Program.listing (program : Program) : Text :=
  Text.unlines ([listingRule] ++ program.listingRows.map (ListingRow.render styling)
    ++ [listingRule] ++ program.dataSymbols.symbols.map (dataSymbolRow styling)
    ++ dataRow styling program.dataValues)

end Render

end RiscAssembly
