import RiscAssembly.Command.Options

/-!
The command's arguments, read as a command-line library does. They are read from left to
right and the first one that is wrong decides the error. The value of an option may follow
as an argument of its own; it is taken in only when the next argument turns out to be known,
or at the end, so an unknown argument is reported before a value that is missing or cannot
be used. How an address is read is up to the command.
-/

namespace RiscAssembly

open Text

inductive ValueOption where
  | output
  | dataBase
  | config
  deriving DecidableEq

inductive FlagOption where
  | dump
  | quiet
  | help
  | version
  deriving DecidableEq

inductive UsageError where
  | unexpected (argument : Text)
  | missingValue (option : ValueOption)
  | repeatedValue (option : ValueOption)
  | repeatedFlag (flag : FlagOption)
  | surplusValue (flag : FlagOption) (value : Text)
  | invalidAddress (value : Text) (cause : AddressError)
  deriving DecidableEq

def ValueOption.longName : ValueOption → Text
  | .output => "output".toList
  | .dataBase => "data-base".toList
  | .config => "config".toList

def ValueOption.valueName : ValueOption → Text
  | .output => "OUTPUT".toList
  | .dataBase => "DATA_BASE".toList
  | .config => "CONFIG".toList

def ValueOption.letter : ValueOption → Option Char
  | .output => some 'o'
  | .dataBase => none
  | .config => some 'c'

def FlagOption.longName : FlagOption → Text
  | .dump => "dump".toList
  | .quiet => "quiet".toList
  | .help => "help".toList
  | .version => "version".toList

def FlagOption.letter : FlagOption → Char
  | .dump => 'd'
  | .quiet => 'q'
  | .help => 'h'
  | .version => 'V'

def valueOptions : List ValueOption := [.output, .dataBase, .config]

def flagOptions : List FlagOption := [.dump, .quiet, .help, .version]

/-- How an option is written in messages. -/
def ValueOption.display (option : ValueOption) : Text :=
  "--".toList ++ option.longName ++ " <".toList ++ option.valueName ++ ">".toList

def FlagOption.display (flag : FlagOption) : Text := "--".toList ++ flag.longName

def apostrophized (text : Text) : Text := "'".toList ++ text ++ "'".toList

def UsageError.message : UsageError → Text
  | .unexpected argument =>
      "error: unexpected argument ".toList ++ apostrophized argument ++ " found".toList
  | .missingValue option =>
      "error: a value is required for ".toList ++ apostrophized option.display
        ++ " but none was supplied".toList
  | .repeatedValue option =>
      "error: the argument ".toList ++ apostrophized option.display
        ++ " cannot be used multiple times".toList
  | .repeatedFlag flag =>
      "error: the argument ".toList ++ apostrophized flag.display
        ++ " cannot be used multiple times".toList
  | .surplusValue flag value =>
      "error: unexpected value ".toList ++ apostrophized value ++ " for ".toList
        ++ apostrophized flag.display ++ " found; no more were expected".toList
  | .invalidAddress value cause =>
      "error: invalid value ".toList ++ apostrophized value ++ " for ".toList
        ++ apostrophized ValueOption.dataBase.display ++ ": ".toList ++ cause.message

/-- What the arguments have given so far. -/
structure Given where
  input : Option Text := none
  output : Option Text := none
  dataBase : Option UInt64 := none
  config : Option Text := none
  dump : Bool := false
  quiet : Bool := false
  deriving DecidableEq

def Given.options (given : Given) : Options where
  input := given.input.getD "main.s".toList
  output := given.output.getD "main.s.yaml".toList
  dataBase := given.dataBase
  config := given.config
  dump := given.dump
  quiet := given.quiet

/-- An option that was named, and its value once it has been seen. -/
structure Pending where
  option : ValueOption
  value : Option Text
  deriving DecidableEq

structure Reading where
  given : Given := {}
  pending : Option Pending := none
  deriving DecidableEq

/-- What the command is asked to do. -/
inductive Request where
  | assemble (options : Options)
  | help
  | version
  deriving DecidableEq

inductive Step where
  | go (reading : Reading)
  | stop (request : Request)
  deriving DecidableEq

section Arguments

variable (readAddress : Text → Except AddressError UInt64)

def Given.setValue (given : Given) (option : ValueOption) (value : Text) :
    Except UsageError Given :=
  match option with
  | .output =>
      if given.output.isSome then .error (.repeatedValue option)
      else .ok { given with output := some value }
  | .config =>
      if given.config.isSome then .error (.repeatedValue option)
      else .ok { given with config := some value }
  | .dataBase =>
      if given.dataBase.isSome then .error (.repeatedValue option)
      else match readAddress value with
        | .ok address => .ok { given with dataBase := some address }
        | .error cause => .error (.invalidAddress value cause)

namespace Reading

def settle (reading : Reading) : Except UsageError Given :=
  match reading.pending with
  | none => .ok reading.given
  | some ⟨option, none⟩ => .error (.missingValue option)
  | some ⟨option, some value⟩ => reading.given.setValue readAddress option value

def useFlag (reading : Reading) (flag : FlagOption) : Except UsageError Step := do
  let given ← reading.settle readAddress
  match flag with
  | .help => .ok (.stop .help)
  | .version => .ok (.stop .version)
  | .dump =>
      if given.dump then .error (.repeatedFlag flag)
      else .ok (.go { given := { given with dump := true } })
  | .quiet =>
      if given.quiet then .error (.repeatedFlag flag)
      else .ok (.go { given := { given with quiet := true } })

def useValue (reading : Reading) (option : ValueOption) (value : Option Text) :
    Except UsageError Step := do
  let given ← reading.settle readAddress
  match value with
  | none => .ok (.go { given, pending := some ⟨option, none⟩ })
  | some value =>
      let given ← given.setValue readAddress option value
      .ok (.go { given })

def useLong (reading : Reading) (name : Text) (value : Option Text) : Except UsageError Step :=
  match valueOptions.find? fun option => option.longName = name with
  | some option => reading.useValue readAddress option value
  | none => match flagOptions.find? fun flag => flag.longName = name with
    | none => .error (.unexpected ("--".toList ++ name))
    | some flag => match value with
      | some surplus => .error (.surplusValue flag surplus)
      | none => reading.useFlag readAddress flag

/-- The value attached to a letter: the rest of the argument, less an equals sign. -/
def attached : Text → Option Text
  | [] => none
  | '=' :: value => some value
  | value => some value

def useLetters : Reading → Text → Except UsageError Step
  | reading, [] => .ok (.go reading)
  | reading, c :: rest =>
      match valueOptions.find? fun option => option.letter = some c with
      | some option => reading.useValue readAddress option (attached rest)
      | none => match flagOptions.find? fun flag => flag.letter = c with
        | none => .error (.unexpected ['-', c])
        | some flag => do
            match ← reading.useFlag readAddress flag with
            | .go next => next.useLetters rest
            | .stop request => .ok (.stop request)

def usePositional (reading : Reading) (argument : Text) : Except UsageError Reading :=
  if reading.given.input.isSome then .error (.unexpected argument)
  else do
    let given ← reading.settle readAddress
    return { given := { given with input := some argument } }

/-- An argument that is no option: the value that is waited for, or the input. -/
def usePlain (reading : Reading) (argument : Text) : Except UsageError Reading :=
  match reading.pending with
  | some ⟨option, none⟩ => .ok { reading with pending := some ⟨option, some argument⟩ }
  | _ => reading.usePositional readAddress argument

def finish (reading : Reading) : Except UsageError Request := do
  let given ← reading.settle readAddress
  return .assemble given.options

/-- After a lone `--` every argument is positional. -/
def readPositionals : Reading → List Text → Except UsageError Request
  | reading, [] => reading.finish readAddress
  | reading, argument :: rest => do
      let next ← reading.usePositional readAddress argument
      next.readPositionals rest

inductive ArgumentForm where
  | endOfOptions
  | long (name : Text) (value : Option Text)
  | letters (letters : Text)
  | plain
  deriving DecidableEq

def argumentForm : Text → ArgumentForm
  | ['-', '-'] => .endOfOptions
  | '-' :: '-' :: body => match cut (· = '=') body with
    | some (name, value) => .long name (some value)
    | none => .long body none
  | '-' :: letter :: rest => .letters (letter :: rest)
  | _ => .plain

def read : Reading → List Text → Except UsageError Request
  | reading, [] => reading.finish readAddress
  | reading, argument :: rest =>
      match argumentForm argument with
      | .endOfOptions => reading.readPositionals readAddress rest
      | .plain => do
          let next ← reading.usePlain readAddress argument
          next.read rest
      | .long name value => do
          match ← reading.useLong readAddress name value with
          | .go next => next.read rest
          | .stop request => return request
      | .letters letters => do
          match ← reading.useLetters readAddress letters with
          | .go next => next.read rest
          | .stop request => return request

end Reading

def versionLine : Text := "rvasm 0.1.0".toList

def helpLines : List Text :=
  [versionLine,
    "  Assembler for a RISC-V-like 64-bit architecture".toList,
    [],
    "Usage:".toList,
    "  rvasm [OPTIONS] [INPUT]".toList,
    [],
    "Arguments:".toList,
    "  [INPUT]  Input file [default: main.s]".toList,
    [],
    "Options:".toList,
    "  -o, --output <OUTPUT>        Output file [default: main.s.yaml]".toList,
    "      --data-base <DATA_BASE>  Base address of the data segment [default: 0]".toList,
    "  -c, --config <CONFIG>        YAML config file".toList,
    "  -d, --dump                   Dump assembled listing".toList,
    "  -q, --quiet                  Suppress progress output".toList,
    "  -h, --help                   Print help".toList,
    "  -V, --version                Print version".toList]

/-- The options, or what is said instead of running the command. -/
def readArguments (arguments : List Text) : Except Outcome Options :=
  match Reading.read readAddress {} arguments with
  | .error error => .error { exit := 2, stderr := unlines [error.message] }
  | .ok .help => .error { stdout := unlines helpLines }
  | .ok .version => .error { stdout := unlines [versionLine] }
  | .ok (.assemble options) => .ok options

end Arguments

end RiscAssembly
