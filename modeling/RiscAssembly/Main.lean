import RiscAssembly.Command.Standard

/-!
The command itself: a session on the real file system.
-/

namespace RiscAssembly

/-- The code that the operating system gives for an error, and its words. -/
def systemCode? : IO.Error → Option (UInt32 × String)
  | .noFileOrDirectory _ code details => some (code, details)
  | .inappropriateType _ code details => some (code, details)
  | .permissionDenied _ code details => some (code, details)
  | .invalidArgument _ code details => some (code, details)
  | .resourceExhausted _ code details => some (code, details)
  | .noSuchThing _ code details => some (code, details)
  | .alreadyExists _ code details => some (code, details)
  | .illegalOperation code details => some (code, details)
  | .resourceBusy code details => some (code, details)
  | .unsupportedOperation code details => some (code, details)
  | .otherError code details => some (code, details)
  | _ => none

def fileFailure (error : IO.Error) : FileFailure :=
  match systemCode? error with
  | some (2, _) => .notFound
  | some (20, _) => .notDirectory
  | some (21, _) => .isDirectory
  | some (36, _) => .nameTooLong
  | some (code, details) => .other s!"{details} (os error {code})".toList
  | none => .other (toString error).toList

instance : FileStore IO where
  read path := do
    try
      let content ← IO.FS.readBinFile (String.ofList path)
      match String.fromUTF8? content with
      | some text => return .ok text.toList
      | none => return .error .notUtf8
    catch error => return .error (fileFailure error)
  write path content := do
    try
      IO.FS.writeFile (String.ofList path) (String.ofList content)
      return .ok ()
    catch error => return .error (fileFailure error)

end RiscAssembly

def main (arguments : List String) : IO UInt32 := do
  let outcome : RiscAssembly.Outcome ←
    RiscAssembly.runCommand RiscAssembly.standard (arguments.map String.toList)
  IO.print (String.ofList outcome.stdout)
  IO.eprint (String.ofList outcome.stderr)
  return UInt32.ofNat outcome.exit
