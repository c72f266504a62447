import Scoresheet.Command.Host
import Scoresheet.Command.Line
import Scoresheet.Command.LogFilter
import Scoresheet.Json.Printer
import Scoresheet.Json.Reader
import Scoresheet.Yaml.Printer
import Scoresheet.Yaml.Reader

/-!
# The plain toolkit

A toolkit that needs nothing but this project.  It reads the plain forms of what it is given: JSON, the part of YAML
that `Yaml.read?` knows, command lines without abbreviations.  No command depends on it.
-/
namespace Scoresheet

namespace Settings

/-- Whether nothing is written in a place. -/
def isMissing (word : String) (quoted : Bool) : Bool := !quoted && Yaml.isNull word

/-- A whole number without a minus sign. -/
def places? : Yaml.Node → Option Nat
  | .scalar word _ =>
    match (Text.trim word).toList with
    | '-' :: _ => none
    | cs => (Yaml.natural? (splitSign cs).2).filter (· ≤ Yaml.maxWhole)
  | _ => none

/-- A truth value, or nothing. -/
def color? : Yaml.Node → Option (Option Bool)
  | .scalar word quoted => if isMissing word quoted then some none else (Yaml.truth? (Text.trim word)).map some
  | _ => none

/-- A word, whatever it looks like. -/
def logLevel? : Yaml.Node → Option String
  | .scalar word quoted => if isMissing word quoted then none else some word
  | _ => none

/-- The setting under a key, or its default. -/
def under {α : Type} (entries : List (String × Yaml.Node)) (key : String) (default : α) (f : Yaml.Node → Option α) :
    Option α :=
  match Table.find? key entries with
  | none => some default
  | some n => f n

/-- The settings in a file; an empty file has the defaults.  Keys that mean nothing are ignored.  What is wanted of a
word settles what it stands for, so quotes around it do not matter, save that nothing at all is never quoted. -/
def ofNode? : Yaml.Node → Option Settings
  | .scalar word quoted => if isMissing word quoted then some {} else none
  | .list _ => none
  | .map entries => do
    let logLevel ← under entries "log_level" "warn" logLevel?
    let color ← under entries "color" none color?
    let places ← under entries "precision" 3 places?
    return { logLevel, color, places }

end Settings

namespace Plain

/-- What is said of a text in none of the forms that are known. -/
def unknownForm : String := "not in a form that is known"

/-- The texts with which a run ends that is asked for help, and for the version. -/
def help : String := "Schema-driven gymnastics and trampoline scoring"
def version : String := "gym-score 0.4.1"

/-- The status of a run whose command line has no meaning. -/
def usageFailed : Nat := 2

def arguments (words : List String) : Except Effects Invocation :=
  match Line.request words with
  | .ok (.run i) => .ok i
  | .ok .help => .error (.print help)
  | .ok .version => .error (.print version)
  | .error fault => .error (.fail usageFailed ("error: " ++ fault.message))

def filter (text : String) : Except FilterFault Unit :=
  match LogFilter.check text with
  | .ok _ => .ok ()
  | .error .malformed => .error .malformed
  | .error .splitCharacter => .error (.breaksOff s!"log level/filter '{text}' splits a character")

end Plain

def Toolkit.plain : Toolkit where
  arguments := Plain.arguments
  readJson text := (Json.read text).mapError (·.message)
  readYaml text := ((Yaml.read? text).map (·.value)).elim (.error Plain.unknownForm) .ok
  readSettings text := ((Yaml.read? text).bind Settings.ofNode?).elim (.error Plain.unknownForm) .ok
  printJson d := .ok (Json.print d)
  printYaml d := .ok (Yaml.print d)
  filter := Plain.filter

end Scoresheet
