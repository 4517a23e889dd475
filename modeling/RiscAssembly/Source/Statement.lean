import RiscAssembly.Source.Error
import RiscAssembly.Source.Line

/-!
Statements: a line of text is a label or an instruction. The tokens of an instruction are
its mnemonic, which ends at the first white space, and the operands between commas. A
last operand of the form `offset(register)` is two tokens, where an empty offset is zero.
-/

namespace RiscAssembly

open Text

/-- The label that a line defines, if it ends in a colon. -/
def parseLabel (code : Text) : Except SourceError (Option Text) :=
  match dropLast? ':' code with
  | none => .ok none
  | some body =>
      let name := trim body
      if name.isEmpty || decide (name.getLast? = some ':') || name.any isSpace then
        .error (.labelSyntax code)
      else .ok (some name)

/-- An offset and a register in parentheses. -/
def addressParts? (token : Text) : Option (Text × Text) :=
  match (dropLast? ')' token).bind (cut (· = '(')) with
  | none => none
  | some (offset, register) =>
      some (if (trim offset).isEmpty then "0".toList else trim offset, trim register)

def splitAddress : List Text → List Text
  | [] => []
  | [last] => match addressParts? last with
    | some (offset, register) => [offset, register]
    | none => [last]
  | operand :: next :: rest => operand :: splitAddress (next :: rest)

/-- The mnemonic, and the first operand if white space separates one from it. -/
def splitMnemonic (head : Text) : Text × List Text :=
  match cut isSpace head with
  | some (mnemonic, operand) => (mnemonic, [trim operand])
  | none => (head, [])

def tokenize (code : Text) : List Text :=
  match code.splitOnP (· = ',') with
  | [] => []
  | head :: rest =>
      let start := splitMnemonic (trim head)
      start.1 :: splitAddress (start.2 ++ rest.map trim)

inductive Statement where
  | label (name : Text)
  | instruction (tokens : List Text)
  deriving DecidableEq

def Statement.parse (code : Text) : Except SourceError Statement := do
  match ← parseLabel code with
  | some name => return .label name
  | none =>
      if code.head? = some '.' then .error (.unsupportedDirective code)
      else return .instruction (tokenize code)

end RiscAssembly
