import RiscAssembly.Isa.Literal
import RiscAssembly.Source.Statement

/-!
Data directives. Each stands for a number of bytes and for a run of values in the data
stream: its name, a count, and then what it stores. A string stores its characters and a
closing zero byte; the only escape it knows is the newline, and its characters are ASCII,
so that each is one byte.
-/

namespace RiscAssembly

open Text

/-- The characters that the body of a string literal stands for. -/
def unescape : Text → Except SourceError Text
  | [] => .ok []
  | ['\\'] => .error (.unsupportedEscape none)
  | '\\' :: 'n' :: rest => do
      let tail ← unescape rest
      return '\n' :: tail
  | '\\' :: c :: _ => .error (.unsupportedEscape (some c))
  | c :: rest => do
      let tail ← unescape rest
      return c :: tail

inductive Directive where
  | word (values : List Text)
  | string (characters : Text)
  | space (size : Nat)
  deriving DecidableEq

namespace Directive

def name : Directive → DirectiveName
  | .word _ => .word
  | .string _ => .string
  | .space _ => .space

/-- Bytes of the data segment. -/
def size : Directive → Nat
  | .word values => 4 * values.length
  | .string characters => characters.length + 1
  | .space size => size

/-- What the directive adds to the data stream. -/
def values : Directive → List Text
  | .word values => DirectiveName.word.text :: decimal values.length :: values
  | .string characters =>
      DirectiveName.string.text :: decimal (characters.length + 1)
        :: (characters ++ [Char.ofNat 0]).map fun c => [c]
  | .space size => [DirectiveName.space.text, decimal size]

def parseWords (arguments : Text) : Except SourceError Directive := do
  let values := (arguments.splitOnP (· = ',')).map trim
  let _ ← values.mapM fun value => asSource (Literal.twosComplement value)
  return .word values

def isAscii (c : Char) : Bool := c.toNat < 128

/-- The text between a quote at the start and another one at the end. -/
def stringBody? (arguments : Text) : Option Text :=
  (dropFirst? '\"' arguments).bind (dropLast? '\"')

def parseString (arguments : Text) : Except SourceError Directive :=
  match stringBody? arguments with
  | none => .error (.instruction (.literalFormat arguments))
  | some body => do
      let characters ← unescape body
      if characters.all isAscii then .ok (.string characters)
      else .error (.instruction (.literalFormat arguments))

def parseSpace (arguments : Text) : Except SourceError Directive :=
  match (natural? 10 arguments).filter (· < UInt64.size) with
  | some size => .ok (.space size)
  | none => .error (.instruction (.literalFormat arguments))

/-- The name of a directive and its arguments, which begin after the first white space. -/
def splitArguments (code : Text) : Text × Text :=
  match cut isSpace code with
  | some (name, arguments) => (name, trim arguments)
  | none => (code, [])

def parse (code : Text) : Except SourceError Directive :=
  let parts := splitArguments code
  if parts.1 = DirectiveName.word.text then parseWords parts.2
  else if parts.1 = DirectiveName.string.text then parseString parts.2
  else if parts.1 = DirectiveName.space.text then parseSpace parts.2
  else .error (.unsupportedDirective code)

end Directive

end RiscAssembly
