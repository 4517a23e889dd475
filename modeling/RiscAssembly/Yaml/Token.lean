import RiscAssembly.Yaml.Error

/-!
The tokens of a YAML text. Most of them are marks of one or three characters; blocks, which
are told by indentation alone, start and end with tokens that have no text.
-/

namespace RiscAssembly.Yaml

open Text

inductive ScalarStyle where
  | plain
  | singleQuoted
  | doubleQuoted
  | literal
  | folded
  deriving DecidableEq

inductive TokenKind where
  | streamStart
  | streamEnd
  | versionDirective (major minor : Nat)
  | tagDirective (handle expansion : Text)
  | documentStart
  | documentEnd
  | blockSequenceStart
  | blockMappingStart
  | blockEnd
  | flowSequenceStart
  | flowSequenceEnd
  | flowMappingStart
  | flowMappingEnd
  | blockEntry
  | flowEntry
  | key
  | value
  | alias (name : Text)
  | anchor (name : Text)
  | tag (handle rest : Text)
  | scalar (text : Text) (style : ScalarStyle)
  deriving DecidableEq

structure Token where
  kind : TokenKind
  start : Mark
  stop : Mark
  deriving DecidableEq

/-- A token with the cursor behind it. -/
abbrev Lexeme := TokenKind × Cursor

end RiscAssembly.Yaml
