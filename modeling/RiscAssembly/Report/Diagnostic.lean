import RiscAssembly.Program.Assemble
import RiscAssembly.Report.Style

/-!
Reports on a source text: an error or a warning with its position, and the source line it
is about. A line that the text does not have is shown empty.
-/

namespace RiscAssembly

def sourceLine (source : Text) (line : Nat) : Text := ((Text.lines source)[line - 1]?).getD []

section Report

variable (styling : Styling)

/-- The lines that show a source line below its position. -/
def excerpt (path source : Text) (line : Nat) : List Text :=
  let number := Text.decimal line
  let bar := styling.styled [.blue] "|".toList
  ["     ".toList ++ styling.styled [.blue] "-->".toList ++ " ".toList
      ++ styling.styled [.underline] (path ++ ":".toList ++ number),
    "      ".toList ++ bar,
    " ".toList ++ styling.styled [.blue] (Text.padStart 4 ' ' number ++ " |".toList) ++ " ".toList
      ++ sourceLine source line,
    "      ".toList ++ bar]

def Diagnostic.report (source : Text) (diagnostic : Diagnostic) : Text :=
  Text.unlines (diagnostic.headline :: excerpt styling diagnostic.path source diagnostic.line)

def Warning.report (path source : Text) (warning : Warning) : Text :=
  Text.unlines
    ([position path warning.line ++ styling.styled [.yellow, .bold] "warn".toList
        ++ ": Re-defined label: ".toList ++ quoted warning.label]
      ++ excerpt styling path source warning.line
      ++ [styling.styled [.green, .bold] "note".toList
        ++ ": Already defined here. The later definition wins.".toList]
      ++ excerpt styling path source warning.previous)

/-- What there is to say about an attempt to assemble: its error, or all its warnings. -/
def assemblyReport (path source : Text) : Except Diagnostic Program → Text
  | .error diagnostic => diagnostic.report styling source
  | .ok program => program.warnings.flatMap (Warning.report styling path source)

end Report

end RiscAssembly
