import Scoresheet.Command.Invocation
import Scoresheet.Command.Settings
import Scoresheet.Document

/-!
# Hosts

What a command has around it.  A toolkit is what it does not do itself: reading a command line, reading and writing the
two formats of documents, and choosing log lines.  A host is a toolkit and the files: what reading a path gives, whether
a path can be written to, where the settings are by default, whether output goes to a terminal, and whether log lines
are chosen elsewhere.  Nothing is assumed of either; what is proved of commands holds on every host.
-/
namespace Scoresheet

/-- Why a path cannot be used. -/
inductive FileFault where
  | missing
  | notADirectory
  | isADirectory
  | nameTooLong
  | notText
  | other (reason : String)
deriving DecidableEq

def FileFault.message : FileFault → String
  | .missing => "No such file or directory (os error 2)"
  | .notADirectory => "Not a directory (os error 20)"
  | .isADirectory => "Is a directory (os error 21)"
  | .nameTooLong => "File name too long (os error 36)"
  | .notText => "stream did not contain valid UTF-8"
  | .other reason => reason

/-- Whether a file can be written: not opened at all, not filled, not ended, not put in place, or written. -/
inductive Writing where
  | cannotOpen (fault : FileFault)
  | cannotFill (fault : FileFault)
  | cannotEnd (fault : FileFault)
  | cannotSave (fault : FileFault)
  | written
deriving DecidableEq

/-- What a command leaves behind, log lines apart. -/
structure Effects where
  status : Nat
  output : String
  errors : String
  /-- The file written, if any. -/
  written : Option (String × String)
deriving DecidableEq

namespace Effects

def scoringFailed : Nat := 1
def filesFailed : Nat := 2
def schemaUnfit : Nat := 4
def settingsUnusable : Nat := 101

/-- Success with a text to print. -/
def print (text : String) : Effects := ⟨0, text ++ "\n", "", none⟩

/-- Failure with a line to report. -/
def fail (status : Nat) (line : String) : Effects := ⟨status, "", line ++ "\n", none⟩

/-- A line reported before everything else. -/
def after (line : String) (e : Effects) : Effects := { e with errors := line ++ "\n" ++ e.errors }

end Effects

/-- Why a text chooses no log lines: it has no meaning, or the run breaks off over it. -/
inductive FilterFault where
  | malformed
  | breaksOff (line : String)

/-- What a command leaves to others.  A complaint is a text that says what is wrong. -/
structure Toolkit where
  /-- The invocation that words are, or how the run ends without one: with help, the version or a complaint. -/
  arguments : List String → Except Effects Invocation
  readJson : String → Except String Value
  readYaml : String → Except String Value
  readSettings : String → Except String Settings
  printJson : Document → Except String String
  printYaml : Document → Except String String
  /-- Whether a text chooses log lines. -/
  filter : String → Except FilterFault Unit

structure Host extends Toolkit where
  read : String → Except FileFault String
  write : String → Writing
  /-- The settings file where none is named. -/
  settings : Option String
  terminal : Bool
  /-- Whether something other than the settings chooses the log lines. -/
  logChosen : Bool
  /-- Why there is nowhere for log lines to go, if there is not. -/
  logFault : Option String

/-- Whether there is anything at a path. -/
def Host.has (h : Host) (path : String) : Bool :=
  match h.read path with
  | .error .missing => false
  | .error .notADirectory => false
  | .error .nameTooLong => false
  | _ => true

end Scoresheet
