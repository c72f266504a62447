import Scoresheet.Command

/-!
# The program

Reads the files that a command line names, runs the command on them, and prints and writes what it leaves behind.
-/
namespace Scoresheet

namespace Main

/-- The number of an error; the system may give its negative in 32 bits. -/
def errorNumber (code : UInt32) : Nat := min code.toNat (0 - code).toNat

/-- Why the operating system refused. -/
def faultOf (e : IO.Error) : FileFault :=
  match e with
  | .noFileOrDirectory .. => .missing
  | .inappropriateType _ code _ => if errorNumber code = 20 then .notADirectory else .isADirectory
  | .invalidArgument _ code _ => if errorNumber code = 36 then .nameTooLong else .other (toString e)
  | .permissionDenied .. => .other "Permission denied (os error 13)"
  | e => .other (toString e)

/-- What reading a path gives. -/
def readPath (path : String) : IO (Except FileFault String) := do
  match ← (IO.FS.readBinFile path).toBaseIO with
  | .error e => return .error (faultOf e)
  | .ok bytes =>
    match String.fromUTF8? bytes with
    | some text => return .ok text
    | none => return .error .notText

/-- Tries to write a text beside its place and to put it there as a whole. -/
def writePath (path text : String) : IO Writing := do
  match Files.split? path with
  | none => return .cannotOpen .isADirectory
  | some (folder, name) =>
    let beside (name : String) : String :=
      (if Files.isAbsolute path then "/" else "") ++ "/".intercalate (folder.map String.ofList ++ [name])
    let draft := beside ("." ++ String.ofList name ++ ".draft_")
    match ← (IO.FS.writeFile draft text).toBaseIO with
    | .error e => return .cannotOpen (faultOf e)
    | .ok _ =>
      match ← (IO.FS.rename draft (beside (String.ofList name))).toBaseIO with
      | .ok _ => return .written
      | .error e =>
        let _ ← (IO.FS.removeFile draft).toBaseIO
        return .cannotSave (faultOf e)

/-- The files that a command line reads. -/
def paths (i : Invocation) (settings : Option String) : List String :=
  let named := match i.task with
    | .compute schema inputs _ _ => [schema, inputs]
    | .validate schema => [schema]
    | .order schema => [schema]
    | .template .. => []
  named ++ i.settings.toList ++ settings.toList

end Main

end Scoresheet

open Scoresheet in
def main (args : List String) : IO UInt32 := do
  let settings := (← IO.getEnv "HOME").map (· ++ "/.config/gym-score/config.yaml")
  let wanted := match Toolkit.plain.arguments args with
    | .ok i => Main.paths i settings
    | .error _ => []
  let readings ← wanted.mapM fun path => return (path, ← Main.readPath path)
  let host : Host := {
    toToolkit := .plain
    read := fun path => ((readings.find? fun r => r.1 == path).map (·.2)).getD (.error .missing)
    write := fun _ => .written
    settings
    terminal := ← (← IO.getStdout).isTty
    logChosen := (← IO.getEnv "RUST_LOG").isSome
    logFault := none }
  let effects := Command.run host args
  IO.print effects.output
  IO.eprint effects.errors
  match effects.written with
  | none => return effects.status.toUInt32
  | some (path, text) =>
    match ← Main.writePath path text with
    | .written => return effects.status.toUInt32
    | failed =>
      let e := Command.writing { host with write := fun _ => failed } (some path) (.ok "") effects
      IO.eprint e.errors
      return e.status.toUInt32
