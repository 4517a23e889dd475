import RiscAssembly.Command.Arguments
import RiscAssembly.Command.Config
import RiscAssembly.Command.Session
import RiscAssembly.Yaml.Writer

/-!
The libraries that the command runs with: their formats as far as the command meets them,
so that it can be run. What is proved about a session holds for all libraries and does not
rest on these.
-/

namespace RiscAssembly

/-- The numbers by which terminals know that a style is switched on and off. -/
def Style.codes : Style → Nat × Nat
  | .bold => (1, 22)
  | .dim => (2, 22)
  | .underline => (4, 24)
  | .red => (31, 39)
  | .green => (32, 39)
  | .yellow => (33, 39)
  | .blue => (34, 39)
  | .cyan => (36, 39)

def escapeSequence (code : Nat) : Text :=
  Char.ofNat 0x1B :: "[".toList ++ Text.decimal code ++ "m".toList

theorem unbroken_codes (styles : List Style) (code : Style → Nat)
    (unbroken : ∀ style, Unbroken (escapeSequence (code style))) :
    Unbroken (styles.flatMap fun style => escapeSequence (code style)) := by
  intro c member
  obtain ⟨style, -, inside⟩ := List.mem_flatMap.mp member
  exact unbroken style c inside

/-- Styles that apply together are switched on in order and off in the same order. -/
def ansi : Styling where
  opening styles := styles.flatMap fun style => escapeSequence style.codes.1
  closing styles := styles.flatMap fun style => escapeSequence style.codes.2
  opening_unbroken styles := unbroken_codes styles (·.codes.1) fun style => by
    cases style <;> decide
  closing_unbroken styles := unbroken_codes styles (·.codes.2) fun style => by
    cases style <;> decide

def standard : Libraries where
  readArguments := readArguments
  readConfig text := (Config.parse text).mapError Config.Error.message
  writeYaml value := .ok (Yaml.write value)
  styling := ansi

/-- A run of the command in a directory, which it may change. -/
def Directory.run (directory : Directory) (arguments : List Text) : Outcome × Directory :=
  (runCommand standard arguments : StateM Directory Outcome).run directory

end RiscAssembly
