import RiscAssembly.Isa.Error

/-!
Why a source text is not a program. An error is a cause; where it was found is added
around it: first the line, and for a report the file as well.
-/

namespace RiscAssembly

inductive StructureError where
  | outsideSection (code : Text)
  | missingTextSection
  | missingEntryDeclaration
  | missingEntryLabel
  deriving DecidableEq

inductive DirectiveName where
  | word
  | string
  | space
  deriving DecidableEq

inductive SourceError where
  | structural (cause : StructureError)
  | labelSyntax (code : Text)
  | unsupportedDirective (code : Text)
  /-- The character after the backslash, if there is one. -/
  | unsupportedEscape (character : Option Char)
  | dataOverflow (directive : DirectiveName)
  | instruction (cause : InstructionError)
  deriving DecidableEq

structure LocatedError where
  line : Nat
  error : SourceError
  deriving DecidableEq

structure Diagnostic where
  path : Text
  line : Nat
  error : SourceError
  deriving DecidableEq

def StructureError.message : StructureError → Text
  | .outsideSection code => quoted code ++ " appears outside of any section".toList
  | .missingTextSection => "missing `.section .text`".toList
  | .missingEntryDeclaration => "`.section .text` must start with `.globl main`".toList
  | .missingEntryLabel => "`.globl main` must be followed by `main:`".toList

def DirectiveName.text : DirectiveName → Text
  | .word => ".word".toList
  | .string => ".string".toList
  | .space => ".space".toList

def SourceError.message : SourceError → Text
  | .structural cause => "Structural error: ".toList ++ cause.message
  | .labelSyntax code => "Malformed label definition: ".toList ++ quoted code
  | .unsupportedDirective code => "Unsupported directive: ".toList ++ quoted code
  | .unsupportedEscape character =>
      "Unsupported escape sequence: ".toList ++ quoted ('\\' :: character.toList)
  | .dataOverflow directive =>
      "Data segment overflows the 64-bit address space at ".toList ++ quoted directive.text
  | .instruction cause => cause.message

def LocatedError.inFile (path : Text) (found : LocatedError) : Diagnostic :=
  ⟨path, found.line, found.error⟩

/-- A position as reports write it: the column is always the first. -/
def position (path : Text) (line : Nat) : Text :=
  path ++ ":".toList ++ Text.decimal line ++ ":1: ".toList

def Diagnostic.headline (diagnostic : Diagnostic) : Text :=
  position diagnostic.path diagnostic.line ++ diagnostic.error.message

def onLine {α : Type} (line : Nat) : Except SourceError α → Except LocatedError α
  | .ok value => .ok value
  | .error error => .error ⟨line, error⟩

def asSource {α : Type} : Except InstructionError α → Except SourceError α
  | .ok value => .ok value
  | .error cause => .error (.instruction cause)

end RiscAssembly
