import RiscAssembly.Command.Standard
import RiscAssembly.Proofs.Agreement
import RiscAssembly.Proofs.Text

/-!
What a run of the command does to files. All there is to know of a file system is which
bytes its files hold and which file a path leads to; a store is lawful if reading decodes
these bytes and changes nothing, and if a write replaces the bytes of one file or, when it
fails, changes nothing. Of the libraries nothing is known but what they return, and that they
have a text for every program. On every lawful store a run writes the artifact once everything
has gone well, and otherwise leaves all files as they were.
-/

namespace RiscAssembly

open Text

/-! Lawful file stores. -/

/-- The files of a file system. -/
class FileView (State : Type) where
  File : Type
  content : State → File → Option ByteArray
  /-- The file that a path leads to, be it there or only to be created. -/
  target : State → Directory.Access → Text → Option File

def utf8 (text : Text) : ByteArray := (String.ofList text).toUTF8

theorem utf8_inj {left right : Text} (same : utf8 left = utf8 right) : left = right :=
  String.ofList_injective (String.toByteArray_inj.mp same)

section View

variable {State : Type} [FileView State]

open FileView

/-- A path leads to a file that holds this text. -/
def Holds (files : State) (path text : Text) : Prop :=
  ∃ file, target files .reading path = some file ∧ content files file = some (utf8 text)

/-- The file that a path leads to has this text as its new content, and no other file has
changed. -/
def Replaced (files after : State) (path text : Text) : Prop :=
  ∃ file, target files .writing path = some file ∧ content after file = some (utf8 text) ∧
    ∀ other, other ≠ file → content after other = content files other

theorem Holds.unique {files : State} {path left right : Text} (first : Holds files path left)
    (second : Holds files path right) : left = right := by
  obtain ⟨file, leads, held⟩ := first
  obtain ⟨other, leads', held'⟩ := second
  rw [leads] at leads'
  cases leads'
  rw [held] at held'
  exact utf8_inj (Option.some.inj held')

end View

section Store

variable {State : Type}

theorem run_bind_of_run {Value Result : Type} {first : StateM State Value} {files after : State}
    {value : Value} (ran : first.run files = (value, after)) (next : Value → StateM State Result) :
    (first >>= next).run files = (next value).run after := by
  show (next (first.run files).1).run (first.run files).2 = _
  rw [ran]

variable [FileStore (StateM State)]

def readIn (files : State) (path : Text) : Except FileFailure Text × State :=
  (FileStore.read path : StateM State (Except FileFailure Text)).run files

def writeIn (files : State) (path text : Text) : Except FileFailure Unit × State :=
  (FileStore.write path text : StateM State (Except FileFailure Unit)).run files

theorem writeArtifact_run (libraries : Libraries) (files after : State) (path text : Text)
    (program : Program) (result : Except FileFailure Unit)
    (serialized : libraries.writeYaml program.artifact = .ok text)
    (written : writeIn files path text = (result, after)) :
    (writeArtifact libraries path program : StateM State _).run files =
      (result.mapError (.write path), after) := by
  rw [writeArtifact, serialized]
  cases result with
  | error cause => exact run_bind_of_run written _
  | ok done => exact run_bind_of_run written _

end Store

/-- Reading and writing do to the files what their names say, and nothing if they fail. -/
class LawfulFileStore (State : Type) [FileView State] [FileStore (StateM State)] : Prop where
  read_keeps (files : State) (path : Text) : (readIn files path).2 = files
  read_ok_iff (files : State) (path text : Text) :
    (readIn files path).1 = .ok text ↔ Holds files path text
  write_failed (files after : State) (path text : Text) (cause : FileFailure)
    (failed : writeIn files path text = (.error cause, after)) : after = files
  write_done (files after : State) (path text : Text)
    (done : writeIn files path text = (.ok (), after)) : Replaced files after path text

/-! Directories are lawful. -/

namespace Directory

instance : FileView Directory where
  File := Text
  content := find?
  target directory access path := (directory.resolve access path).toOption

theorem fromUTF8_iff (bytes : ByteArray) (text : Text) :
    String.fromUTF8? bytes = some (String.ofList text) ↔ bytes = utf8 text := by
  unfold String.fromUTF8?
  constructor
  · intro decoded
    split at decoded
    · rw [utf8, ← Option.some.inj decoded]
      rfl
    · cases decoded
  · rintro rfl
    exact dif_pos (String.ofList text).isValidUTF8

theorem read_ok_iff (directory : Directory) (path text : Text) :
    directory.read path = .ok text ↔ Holds directory path text := by
  have leads (name : Text) : FileView.target directory .reading path = some name ↔
      directory.resolve .reading path = .ok name := toOption_some_iff _ name
  simp only [read, bind_ok_iff, Holds, leads]
  refine exists_congr fun name => and_congr_right fun _ => ?_
  show _ ↔ directory.find? name = some (utf8 text)
  cases directory.find? name with
  | none => simp
  | some bytes =>
      rw [Option.some.injEq, ← fromUTF8_iff]
      cases decoded : String.fromUTF8? bytes with
      | none => simp [decoded]
      | some string =>
          simp only [decoded, Except.ok.injEq, Option.some.injEq]
          rw [← String.toList_inj, String.toList_ofList]

theorem write_ok_iff (directory after : Directory) (path text : Text) :
    directory.write path text = .ok after ↔ ∃ name, directory.resolve .writing path = .ok name ∧
      ⟨put Prod.fst (name, utf8 text) directory.files⟩ = after := by
  simp only [write, bind_ok_iff, pure_ok_iff]
  rfl

theorem writeIn_cases (directory : Directory) (path text : Text) :
    (∃ next, directory.write path text = .ok next ∧
      writeIn directory path text = (.ok (), next)) ∨
    ∃ cause, writeIn directory path text = (.error cause, directory) := by
  cases written : directory.write path text with
  | ok next => exact .inl ⟨next, rfl, by simp [writeIn, StateT.run, FileStore.write, written]⟩
  | error cause => exact .inr ⟨cause, by simp [writeIn, StateT.run, FileStore.write, written]⟩

instance : LawfulFileStore Directory where
  read_keeps _ _ := rfl
  read_ok_iff := read_ok_iff
  write_failed directory after path text cause failed := by
    rcases writeIn_cases directory path text with ⟨next, -, same⟩ | ⟨cause', same⟩
    · cases failed.symm.trans same
    · cases failed.symm.trans same
      rfl
  write_done directory after path text done := by
    rcases writeIn_cases directory path text with ⟨next, written, same⟩ | ⟨cause, same⟩
    · cases done.symm.trans same
      obtain ⟨name, leads, rfl⟩ := (write_ok_iff directory after path text).mp written
      refine ⟨name, (toOption_some_iff _ name).mpr leads, ?_, fun other different => ?_⟩
      · show find? _ name = _
        rw [find?, find_put, if_pos rfl]
        rfl
      · show find? _ other = find? _ other
        rw [find?, find_put, if_neg different.symm]
        rfl
    · cases done.symm.trans same

end Directory

/-! Artifacts. -/

/-- All of a program that its artifact shows: everything but the warnings and the lines of the
labels. -/
structure Program.Matches (left right : Program) : Prop where
  instructions : left.instructions = right.instructions
  words : left.machineWords = right.machineWords
  values : left.dataValues = right.dataValues
  code : left.codeSymbols.symbols.map (fun symbol => (symbol.name, symbol.address)) =
    right.codeSymbols.symbols.map fun symbol => (symbol.name, symbol.address)
  data : left.dataSymbols.symbols.map (fun symbol => (symbol.name, symbol.address)) =
    right.dataSymbols.symbols.map fun symbol => (symbol.name, symbol.address)

theorem ofTexts_inj (left right : List Text)
    (same : Yaml.Value.ofTexts left = Yaml.Value.ofTexts right) : left = right := by
  have each : ∀ first second, Yaml.Value.text first = .text second → first = second :=
    fun _ _ equal => Yaml.Value.text.inj equal
  exact List.map_injective_iff.mpr each (Yaml.Value.sequence.inj same)

theorem Instruction.artifact_inj (left right : Instruction)
    (same : left.artifact = right.artifact) : left = right := by
  simp only [Instruction.artifact, Yaml.Value.mapping.injEq, List.cons.injEq, Prod.mk.injEq,
    Yaml.Value.number.injEq, UInt32.toNat_inj] at same
  obtain ⟨⟨-, tokens⟩, ⟨-, line⟩, ⟨-, address⟩, ⟨-, size⟩, -⟩ := same
  cases left
  cases right
  cases ofTexts_inj _ _ tokens
  cases line
  cases address
  cases size
  rfl

theorem SymbolTable.artifact_inj {Address : Type} (value : Address → Nat)
    (apart : ∀ left right, value left = value right → left = right)
    (left right : SymbolTable Address) (same : left.artifact value = right.artifact value) :
    left.symbols.map (fun symbol => (symbol.name, symbol.address)) =
      right.symbols.map fun symbol => (symbol.name, symbol.address) := by
  have shown (table : SymbolTable Address) : table.artifact value =
      .mapping ((table.symbols.map fun symbol => (symbol.name, symbol.address)).map fun entry =>
        (entry.1, .number (value entry.2))) := by
    rw [SymbolTable.artifact, List.map_map]
    rfl
  rw [shown, shown, Yaml.Value.mapping.injEq] at same
  refine List.map_injective_iff.mpr ?_ same
  intro first second equal
  rw [Prod.mk.injEq, Yaml.Value.number.injEq] at equal
  exact Prod.ext equal.1 (apart _ _ equal.2)

/-- No two programs that differ in what an artifact shows have the same one. -/
theorem Program.artifact_matches (left right : Program) (same : left.artifact = right.artifact) :
    left.Matches right := by
  simp only [Program.artifact, Yaml.Value.mapping.injEq, List.cons.injEq, Prod.mk.injEq,
    Yaml.Value.sequence.injEq] at same
  obtain ⟨⟨-, instructions⟩, ⟨-, words⟩, ⟨-, values⟩, ⟨-, code⟩, ⟨-, data⟩, -⟩ := same
  exact {
    instructions := List.map_injective_iff.mpr Instruction.artifact_inj instructions
    words := ofTexts_inj _ _ words
    values := ofTexts_inj _ _ values
    code := SymbolTable.artifact_inj _ (fun _ _ => UInt32.toNat_inj.mp) _ _ code
    data := SymbolTable.artifact_inj _ (fun _ _ => UInt64.toNat_inj.mp) _ _ data }

/-! The stages of a run. -/

section Run

variable {State : Type} [FileView State] (libraries : Libraries)

/-- The config that an option asks for, if it does. -/
inductive ConfigHeld (files : State) : Option Text → Option Config → Prop
  | absent : ConfigHeld files none none
  | given (path text : Text) (config : Config) (held : Holds files path text)
      (parsed : libraries.readConfig text = .ok config) : ConfigHeld files (some path) (some config)

/-- The base address among the options, or else that of the config, or else zero. -/
def Options.effectiveBase (options : Options) (config : Option Config) : UInt64 :=
  (options.dataBase.or (config.map Config.dataBase)).getD 0

/-- What comes of assembling the input, if it and the config can be read. -/
inductive AssemblesTo (options : Options) (files : State) (result : Except Diagnostic Program) :
    Prop
  | intro (config : Option Config) (source : Text)
      (configured : ConfigHeld libraries files options.config config)
      (held : Holds files options.input source)
      (assembled : assemble options.input source (options.effectiveBase config) = result) :
      AssemblesTo options files result

variable {libraries}

theorem ConfigHeld.unique {files : State} {given : Option Text} {left right : Option Config}
    (first : ConfigHeld libraries files given left)
    (second : ConfigHeld libraries files given right) : left = right := by
  cases first with
  | absent =>
      cases second with
      | absent => rfl
  | given path text config held parsed =>
      cases second with
      | given _ _ _ held' parsed' =>
          rw [← held.unique held', parsed] at parsed'
          cases parsed'
          rfl

theorem AssemblesTo.unique {options : Options} {files : State}
    {left right : Except Diagnostic Program} (first : AssemblesTo libraries options files left)
    (second : AssemblesTo libraries options files right) : left = right := by
  obtain ⟨config, source, configured, held, rfl⟩ := first
  obtain ⟨config', source', configured', held', rfl⟩ := second
  rw [configured.unique configured', held.unique held']

theorem AssemblesTo.path_eq {options : Options} {files : State} {diagnostic : Diagnostic}
    (fails : AssemblesTo libraries options files (.error diagnostic)) :
    diagnostic.path = options.input := by
  obtain ⟨config, source, _, _, failed⟩ := fails
  rw [assemble_eq_stages, mapError_error_iff] at failed
  obtain ⟨found, -, rfl⟩ := failed
  rfl

variable [FileStore (StateM State)]

variable (libraries) (yaml : Program → Text)

/-- All goes well: the input assembles and the artifact can be written. -/
structure Completes (options : Options) (files : State) (program : Program) (after : State) :
    Prop where
  assembles : AssemblesTo libraries options files (.ok program)
  done : writeIn files options.output (yaml program) = (.ok (), after)

/-- The ways in which a run ends. Only the last one leaves other files behind. -/
inductive Ends (options : Options) (files : State) (outcome : Outcome) : State → Prop
  | unread (status : outcome.exit = 1)
      (missing : ∀ result, ¬ AssemblesTo libraries options files result) :
      Ends options files outcome files
  | unassembled (diagnostic : Diagnostic) (status : outcome.exit = 1)
      (fails : AssemblesTo libraries options files (.error diagnostic))
      (reported : diagnostic.headline ++ "\n".toList <+: outcome.stderr) :
      Ends options files outcome files
  | unwritten (program : Program) (cause : FileFailure) (status : outcome.exit = 1)
      (assembles : AssemblesTo libraries options files (.ok program))
      (failed : writeIn files options.output (yaml program) = (.error cause, files)) :
      Ends options files outcome files
  | written (program : Program) (after : State) (status : outcome.exit = 0)
      (completes : Completes libraries yaml options files program after) :
      Ends options files outcome after

variable {libraries yaml}

theorem Ends.exit_cases {options : Options} {files after : State} {outcome : Outcome}
    (ends : Ends libraries yaml options files outcome after) :
    (outcome.exit = 0 ∧ ∃ program, Completes libraries yaml options files program after) ∨
      outcome.exit = 1 ∧ after = files ∧
        ¬ ∃ program next, Completes libraries yaml options files program next := by
  cases ends with
  | unread status missing =>
      refine .inr ⟨status, rfl, ?_⟩
      rintro ⟨program, _, completes⟩
      exact missing (.ok program) completes.assembles
  | unassembled diagnostic status fails _ =>
      refine .inr ⟨status, rfl, ?_⟩
      rintro ⟨_, _, completes⟩
      cases fails.unique completes.assembles
  | unwritten program cause status assembles failed =>
      refine .inr ⟨status, rfl, ?_⟩
      rintro ⟨_, _, completes⟩
      cases assembles.unique completes.assembles
      cases failed.symm.trans completes.done
  | written program _ status completes => exact .inl ⟨status, program, completes⟩

theorem Completes.unique {options : Options} {files after next : State} {left right : Program}
    (first : Completes libraries yaml options files left after)
    (second : Completes libraries yaml options files right next) : after = next := by
  cases first.assembles.unique second.assembles
  exact (Prod.mk.inj (first.done.symm.trans second.done)).2

/-- How much is shown has no part in it. -/
theorem completes_shown_iff (options : Options) (dump quiet : Bool) (files after : State)
    (program : Program) :
    Completes libraries yaml { options with dump, quiet } files program after ↔
      Completes libraries yaml options files program after := by
  constructor
  · rintro ⟨⟨config, source, configured, held, assembled⟩, done⟩
    exact ⟨⟨config, source, configured, held, assembled⟩, done⟩
  · rintro ⟨⟨config, source, configured, held, assembled⟩, done⟩
    exact ⟨⟨config, source, configured, held, assembled⟩, done⟩

theorem Ends.shown {options : Options} {dump quiet : Bool} {files after next : State}
    {outcome shown : Outcome} (ends : Ends libraries yaml options files outcome after)
    (ends' : Ends libraries yaml { options with dump, quiet } files shown next) :
    next = after ∧ shown.exit = outcome.exit := by
  have others := ends'.exit_cases
  simp only [completes_shown_iff] at others
  rcases ends.exit_cases with ⟨status, program, completes⟩ | ⟨status, kept, fails⟩
  · rcases others with ⟨status', program', completes'⟩ | ⟨_, _, fails⟩
    · exact ⟨completes'.unique completes, status'.trans status.symm⟩
    · exact absurd ⟨program, after, completes⟩ fails
  · rcases others with ⟨_, program, completes⟩ | ⟨status', kept', _⟩
    · exact absurd ⟨program, next, completes⟩ fails
    · exact ⟨kept'.trans kept.symm, status'.trans status.symm⟩

theorem Ends.headline {options : Options} {files after : State} {outcome : Outcome}
    (ends : Ends libraries yaml options files outcome after) (diagnostic : Diagnostic)
    (fails : AssemblesTo libraries options files (.error diagnostic)) :
    diagnostic.headline ++ "\n".toList <+: outcome.stderr := by
  cases ends with
  | unread _ missing => exact absurd fails (missing _)
  | unassembled other _ fails' reported =>
      cases fails.unique fails'
      exact reported
  | unwritten _ _ _ assembles _ => cases fails.unique assembles
  | written _ _ _ completes => cases fails.unique completes.assembles

variable [LawfulFileStore State]

theorem read_cases (files : State) (path : Text) :
    (∃ text, Holds files path text ∧ readIn files path = (.ok text, files)) ∨
      ∃ cause, (∀ text, ¬ Holds files path text) ∧ readIn files path = (.error cause, files) := by
  have keeps := LawfulFileStore.read_keeps files path
  have held := LawfulFileStore.read_ok_iff files path
  cases result : (readIn files path).1 with
  | ok text => exact .inl ⟨text, (held text).mp result, Prod.ext result keeps⟩
  | error cause =>
      refine .inr ⟨cause, fun text holds => ?_, Prod.ext result keeps⟩
      rw [(held text).mpr holds] at result
      cases result

theorem loadConfig_cases (files : State) (given : Option Text) :
    (∃ config, ConfigHeld libraries files given config ∧
      (loadConfig libraries given : StateM State _).run files = (.ok (config.getD {}), files)) ∨
    ∃ error, (∀ config, ¬ ConfigHeld libraries files given config) ∧
      (loadConfig libraries given : StateM State _).run files = (.error error, files) := by
  cases given with
  | none => exact .inl ⟨none, .absent, rfl⟩
  | some path =>
      rw [loadConfig]
      rcases read_cases files path with ⟨text, held, read⟩ | ⟨cause, missing, read⟩
      · rw [run_bind_of_run read]
        cases parsed : libraries.readConfig text with
        | ok config =>
            simp only [parsed]
            exact .inl ⟨some config, .given path text config held parsed, rfl⟩
        | error cause =>
            simp only [parsed]
            refine .inr ⟨.config path cause, fun config configured => ?_, rfl⟩
            -- A config that is held would be this text, which does not parse.
            cases configured with
            | given _ other config held' parsed' =>
                rw [held.unique held', parsed'] at parsed
                cases parsed
      · rw [run_bind_of_run read]
        refine .inr ⟨.read path cause, fun config configured => ?_, rfl⟩
        cases configured with
        | given _ text _ held _ => exact missing text held

theorem effectiveBase_eq (options : Options) (config : Option Config) :
    options.dataBase.getD (config.getD {}).dataBase = options.effectiveBase config := by
  unfold Options.effectiveBase
  cases options.dataBase <;> cases config <;> rfl

variable (serializes : ∀ program : Program,
  libraries.writeYaml program.artifact = .ok (yaml program))

include serializes

theorem assembleAndWrite_ends (options : Options) (files : State) (source : Text) (base : UInt64)
    (assembles : AssemblesTo libraries options files (assemble options.input source base)) :
    ∃ outcome after,
      (assembleAndWrite libraries options source base : StateM State Outcome).run files =
        (outcome, after) ∧ Ends libraries yaml options files outcome after := by
  unfold assembleAndWrite
  cases assembled : assemble options.input source base with
  | error diagnostic =>
      rw [assembled] at assembles
      refine ⟨_, files, rfl, .unassembled diagnostic rfl assembles ?_⟩
      exact List.prefix_append _ _
  | ok program =>
      rw [assembled] at assembles
      -- The only write of a run, and the files are still those that it started with.
      rcases written : writeIn files options.output (yaml program) with ⟨result, after⟩
      have run := writeArtifact_run libraries files after options.output _ program result
        (serializes program) written
      cases result with
      | error cause =>
          have kept := LawfulFileStore.write_failed files after _ _ cause written
          rw [kept] at written run
          exact ⟨_, files, run_bind_of_run run _, .unwritten program cause rfl assembles written⟩
      | ok done =>
          exact ⟨_, after, run_bind_of_run run _,
            .written program after rfl ⟨assembles, written⟩⟩

theorem runOptions_ends (options : Options) (files : State) :
    ∃ outcome after,
      (runOptions libraries options : StateM State Outcome).run files = (outcome, after) ∧
        Ends libraries yaml options files outcome after := by
  rw [runOptions]
  rcases loadConfig_cases files options.config with
    ⟨config, configured, loaded⟩ | ⟨error, missing, loaded⟩
  · rw [run_bind_of_run loaded]
    rcases read_cases files options.input with ⟨source, held, read⟩ | ⟨cause, missing, read⟩
    · have base := effectiveBase_eq options config
      simpa only [run_bind_of_run read] using assembleAndWrite_ends serializes options files
        source _ (.intro config source configured held (by rw [base]))
    · refine ⟨_, files, run_bind_of_run read _, .unread rfl fun result assembles => ?_⟩
      obtain ⟨_, source, _, held, _⟩ := assembles
      exact missing source held
  · refine ⟨_, files, run_bind_of_run loaded _, .unread rfl fun result assembles => ?_⟩
    obtain ⟨config, _, configured, _, _⟩ := assembles
    exact missing config configured

theorem runCommand_ends (arguments : List Text) (options : Options)
    (asked : libraries.readArguments parseAddress arguments = .ok options) (files : State) :
    ∃ outcome after,
      (runCommand libraries arguments : StateM State Outcome).run files = (outcome, after) ∧
        Ends libraries yaml options files outcome after := by
  rw [runCommand, asked]
  exact runOptions_ends serializes options files

end Run

/-- A program that loads the address of its only word of data. -/
def loadedProgram : Program where
  instructions := [⟨["la".toList, "a0".toList, "4096".toList], 6, 0, 8⟩]
  machineWords := ["00000000000000000001010100110111".toList,
    "00000000000001010000010100010011".toList]
  dataValues := [".word".toList, "1".toList, "7".toList]
  codeSymbols := ⟨[⟨"main".toList, 5, 0⟩], List.pairwise_singleton _ _⟩
  dataSymbols := ⟨[⟨"s".toList, 2, 0⟩], List.pairwise_singleton _ _⟩
  warnings := []

theorem loadedProgram_yaml : Yaml.write loadedProgram.artifact =
    unlines (["instructions:", "- tokens:", "  - la", "  - a0", "  - '4096'", "  line: 6",
      "  addr: 0", "  size: 8", "machine_codes:", "- '00000000000000000001010100110111'",
      "- '00000000000001010000010100010011'", "data_memory_values:", "- .word", "- '1'",
      "- '7'", "code_symbols:", "  main: 0", "data_symbols:", "  s: 0"].map String.toList) := by
  decide +kernel

end RiscAssembly
