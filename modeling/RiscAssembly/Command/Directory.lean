import RiscAssembly.Text.Basic

/-!
Where files are read from and written to, by path, and a directory without subdirectories
as a value that holds file contents. Its paths are walked name by name; of what lies outside
of the directory nothing is known but that the way up leads to other directories.
-/

namespace RiscAssembly

inductive FileFailure where
  | notFound
  | notDirectory
  | isDirectory
  | nameTooLong
  | notUtf8
  | other (reason : Text)
  deriving DecidableEq

def FileFailure.message : FileFailure → Text
  | .notFound => "No such file or directory (os error 2)".toList
  | .notDirectory => "Not a directory (os error 20)".toList
  | .isDirectory => "Is a directory (os error 21)".toList
  | .nameTooLong => "File name too long (os error 36)".toList
  | .notUtf8 => "stream did not contain valid UTF-8".toList
  | .other reason => reason

class FileStore (m : Type → Type) where
  read : Text → m (Except FileFailure Text)
  write : Text → Text → m (Except FileFailure Unit)

/-- Names and contents. -/
structure Directory where
  files : List (Text × ByteArray)

namespace Directory

/-- Where a walk along a path has come to. -/
inductive Place where
  | inside
  | outside
  deriving DecidableEq

inductive Access where
  | reading
  | writing
  deriving DecidableEq

/-- The most bytes in a name. -/
def nameLimit : Nat := 255

/-- The fewest bytes that are too many in a path. -/
def pathLimit : Nat := 4096

def find? (directory : Directory) (name : Text) : Option ByteArray :=
  (directory.files.find? fun file => file.1 = name).map Prod.snd

def isDots (name : Text) : Bool := decide (name = ['.']) || decide (name = "..".toList)

/-- A name on the way has to be a directory. A dot stands for the same one and two dots for
the one around it. -/
def enter (directory : Directory) (place : Place) (name : Text) : Except FileFailure Place :=
  if name = ['.'] then .ok place
  else if name = "..".toList then .ok .outside
  else if nameLimit < Text.byteLength name then .error .nameTooLong
  else if place = .inside ∧ (directory.find? name).isSome then .error .notDirectory
  else .error .notFound

/-- The last name on a path. With a slash behind it a file is no file: to write it is
refused as for a directory, whether it is there or not. -/
def arrive (directory : Directory) (access : Access) (slash : Bool) (place : Place)
    (name : Text) : Except FileFailure Text :=
  if isDots name || (slash && decide (access = .writing)) then .error .isDirectory
  else if nameLimit < Text.byteLength name then .error .nameTooLong
  else if place = .outside then .error .notFound
  else if !slash then .ok name
  else if (directory.find? name).isSome then .error .notDirectory
  else .error .notFound

def walk (directory : Directory) (access : Access) (slash : Bool) :
    Place → List Text → Except FileFailure Text
  | _, [] => .error .isDirectory
  | place, [name] => directory.arrive access slash place name
  | place, name :: rest => do
      let next ← directory.enter place name
      directory.walk access slash next rest

/-- The names on a path. -/
def steps (path : Text) : List Text :=
  (path.splitOnP (· = '/')).filter fun part => !part.isEmpty

/-- The name of the file that a path leads to. -/
def resolve (directory : Directory) (access : Access) (path : Text) : Except FileFailure Text :=
  if path.isEmpty then .error .notFound
  else if pathLimit ≤ Text.byteLength path then .error .nameTooLong
  else
    let start := if path.head? = some '/' then Place.outside else .inside
    directory.walk access (decide (path.getLast? = some '/')) start (steps path)

def read (directory : Directory) (path : Text) : Except FileFailure Text := do
  let name ← directory.resolve .reading path
  match directory.find? name with
  | none => .error .notFound
  | some content => match String.fromUTF8? content with
    | some text => .ok text.toList
    | none => .error .notUtf8

def write (directory : Directory) (path content : Text) : Except FileFailure Directory := do
  let name ← directory.resolve .writing path
  return ⟨Text.put Prod.fst (name, (String.ofList content).toUTF8) directory.files⟩

instance : FileStore (StateM Directory) where
  read path := fun directory => (directory.read path, directory)
  write path content := fun directory => match directory.write path content with
    | .ok next => (.ok (), next)
    | .error cause => (.error cause, directory)

end Directory

end RiscAssembly
