import RiscAssembly.Command.Directory
import RiscAssembly.Command.Options
import RiscAssembly.Report.Diagnostic
import RiscAssembly.Report.Listing
import RiscAssembly.Yaml.Artifact

/-!
One run of the command: read the config and the input, assemble, write the artifact and
show the listing. The same session runs on a real file system and on a `Directory`.
Nothing is written unless the program assembles. Arguments, configs and artifacts have
formats that belong to libraries; the session takes the libraries as they come.
-/

namespace RiscAssembly

/-- What the command leaves to libraries. Whatever fails there does so with a text. -/
structure Libraries where
  /-- The options, or else how the run ends before it starts. It is told how to read an
  address. -/
  readArguments : (Text → Except AddressError UInt64) → List Text → Except Outcome Options
  readConfig : Text → Except Text Config
  writeYaml : Yaml.Value → Except Text Text
  styling : Styling

inductive SessionError where
  | read (path : Text) (cause : FileFailure)
  | write (path : Text) (cause : FileFailure)
  | config (path reason : Text)
  | serialize (reason : Text)
  deriving DecidableEq

def SessionError.message : SessionError → Text
  | .read path _ => "Failed to read file: ".toList ++ path
  | .write path _ => "Failed to write file: ".toList ++ path
  | .config path reason => "Invalid config: ".toList ++ path ++ ": ".toList ++ reason
  | .serialize reason => "Failed to serialize output: ".toList ++ reason

def SessionError.cause? : SessionError → Option FileFailure
  | .read _ cause => some cause
  | .write _ cause => some cause
  | .config .. => none
  | .serialize _ => none

def SessionError.report (styling : Styling) (error : SessionError) : Text :=
  Text.unlines
    ((styling.styled [.red, .bold] "error".toList ++ ": ".toList ++ error.message)
      :: error.cause?.toList.map fun cause =>
        "  ".toList ++ styling.styled [.blue] "caused by".toList ++ ": ".toList ++ cause.message)

namespace Options

def progress (options : Options) (lines : List Text) : Text :=
  if options.quiet then [] else Text.unlines lines

def readSteps (options : Options) : List Text :=
  ["1. Read File".toList, "  < ".toList ++ options.input]

def assembleSteps (options : Options) : List Text := options.readSteps ++ ["2. Assemble".toList]

def writeSteps (options : Options) (program : Program) : List Text :=
  options.assembleSteps
    ++ ["  ".toList ++ Text.decimal program.machineWords.length ++ " words, ".toList
        ++ Text.decimal program.dataValues.length ++ " data values".toList,
      "3. Write Output".toList, "  > ".toList ++ options.output]

end Options

section Session

variable {m : Type → Type} [Monad m] [FileStore m] (libraries : Libraries)

def loadConfig : Option Text → m (Except SessionError Config)
  | none => return .ok {}
  | some path => do
      match ← FileStore.read path with
      | .error cause => return .error (.read path cause)
      | .ok text => match libraries.readConfig text with
        | .error reason => return .error (.config path reason)
        | .ok config => return .ok config

def writeArtifact (path : Text) (program : Program) : m (Except SessionError Unit) :=
  match libraries.writeYaml program.artifact with
  | .error reason => return .error (.serialize reason)
  | .ok text => do
      match ← FileStore.write path text with
      | .error cause => return .error (.write path cause)
      | .ok () => return .ok ()

/-- What follows once the source has been read. -/
def assembleAndWrite (options : Options) (source : Text) (base : UInt64) : m Outcome :=
  let result := assemble options.input source base
  let report := assemblyReport libraries.styling options.input source result
  match result with
  | .error _ => return {
      exit := 1
      stdout := options.progress options.assembleSteps
      stderr := report }
  | .ok program => do
      let progress := options.progress (options.writeSteps program)
      match ← writeArtifact libraries options.output program with
      | .error error => return {
          exit := 1
          stdout := progress
          stderr := report ++ error.report libraries.styling }
      | .ok () => return {
          stdout := progress ++ if options.dump then program.listing libraries.styling else []
          stderr := report }

/-- A base address among the options goes before the one in the config. -/
def runOptions (options : Options) : m Outcome := do
  match ← loadConfig libraries options.config with
  | .error error => return { exit := 1, stderr := error.report libraries.styling }
  | .ok config =>
      match ← FileStore.read options.input with
      | .error cause => return {
          exit := 1
          stdout := options.progress options.readSteps
          stderr := (SessionError.read options.input cause).report libraries.styling }
      | .ok source =>
          assembleAndWrite libraries options source (options.dataBase.getD config.dataBase)

def runCommand (arguments : List Text) : m Outcome :=
  match libraries.readArguments parseAddress arguments with
  | .error outcome => return outcome
  | .ok options => runOptions libraries options

end Session

end RiscAssembly
