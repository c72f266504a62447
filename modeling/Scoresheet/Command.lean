import Scoresheet.Command.Files
import Scoresheet.Report
import Scoresheet.Schema.Reading
import Scoresheet.Schema.Writing

/-!
# Commands

What each task prints and writes, and the status it ends with: zero for success, one for a sheet that cannot be
scored, two for files that cannot be read or written, four for a schema that is not fit for use, 101 for settings that
cannot be put to use.  Reading a command line, documents and settings is left to the host, and so is writing documents.
-/
namespace Scoresheet

namespace Command

/-- Whether a path ends in an extension of YAML files, in any case. -/
def isYaml (path : String) : Bool :=
  match Files.split? path with
  | none => false
  | some (_, name) =>
    let fromEnd := name.reverse
    let extension := (fromEnd.takeWhile (· != '.')).reverse
    let stem := (fromEnd.dropWhile (· != '.')).drop 1
    !stem.isEmpty && ["yaml", "yml"].contains (String.ofList (extension.map Char.toLower))

/-- A document in a file, or the line that says why there is none. -/
def document (h : Host) (path : String) : Except String Value :=
  match h.read path with
  | .error fault => .error s!"Failed to read {path}: {fault.message}"
  | .ok text =>
    if isYaml path then (h.readYaml text).mapError (s!"Failed to parse YAML in {path}: " ++ ·)
    else (h.readJson text).mapError (s!"Failed to parse JSON in {path}: " ++ ·)

/-- The settings of a command, from the file named or the usual one. -/
def settings (h : Host) (named : Option String) : Except String Settings :=
  let load (path : String) : Except String Settings :=
    match h.read path with
    | .error fault => .error s!"Failed to read config file at {path}: {fault.message}"
    | .ok text => (h.readSettings text).mapError (s!"Failed to parse config: invalid YAML in {path}: " ++ ·)
  match named with
  | some path => if h.has path then load path else .error s!"Config file not found at {path}"
  | none =>
    match h.settings with
    | some path => if h.has path then load path else .ok {}
    | none => .ok {}

/-- A schema in a file, or how the command ends without one. -/
def schema (h : Host) (path : String) : Except Effects Schema :=
  match document h path with
  | .error line => .error (.fail Effects.filesFailed ("Error: " ++ line))
  | .ok v =>
    match Schema.ofValue v with
    | .error fault => .error (.fail Effects.schemaUnfit (path ++ ": " ++ (Error.schema fault).message))
    | .ok s => .ok s

/-- A scorer for a schema in a file. -/
def scorer (h : Host) (path : String) : Except Effects Scorer := do
  let s ← schema h path
  match Scorer.ofSchema s with
  | .error e => throw (.fail Effects.schemaUnfit (path ++ ": " ++ e.message))
  | .ok sc => return sc

/-- Raw inputs in a file. -/
def inputs (h : Host) (path : String) : Except Effects (Table Value) :=
  match document h path with
  | .error line => .error (.fail Effects.filesFailed ("Error: " ++ line))
  | .ok (.map entries) => .ok (.ofList entries)
  | .ok _ => .error (.fail Effects.filesFailed (s!"Error: Inputs in {path} must be a map of field codes"))

/-- A result that is printed, and also written to a file where one is named. -/
def writing (h : Host) (out : Option String) (json : Except String String) (e : Effects) : Effects :=
  let failed (line : String) : Effects := { e with status := Effects.filesFailed, errors := line ++ "\n" }
  match out with
  | none => e
  | some path =>
    match h.write path, json with
    | .cannotOpen fault, _ => failed s!"Error: Failed to open atomic write file at {path}: {fault.message}"
    | _, .error complaint => failed s!"Error: Failed to serialize result: {complaint}"
    | .cannotFill fault, .ok _ => failed s!"Error: Failed to serialize result: {fault.message}"
    | .cannotEnd fault, .ok _ => failed s!"Error: Failed to write result: {fault.message}"
    | .cannotSave fault, .ok _ => failed s!"Error: Failed to save result to {path}: {fault.message}"
    | .written, .ok text => { e with written := some (path, text ++ "\n") }

def compute (h : Host) (s : Settings) (colors : Bool) (schemaPath inputsPath : String) (json : Bool)
    (out : Option String) : Except Effects Effects := do
  let sc ← scorer h schemaPath
  let raw ← inputs h inputsPath
  match sc.score (sc.schema.retain raw).1 with
  | .error e => throw (.fail Effects.scoringFailed ("Scoring error: " ++ e.message))
  | .ok o =>
    let text := h.printJson (Report.document o)
    if json then
      match text with
      | .error complaint => throw (.fail Effects.filesFailed ("Error: Failed to serialize result: " ++ complaint))
      | .ok line => return writing h out text (.print line)
    else if Report.isWritable s.places sc.schema o then
      return writing h out text (.print (Report.table colors s.places sc.schema o))
    else throw (.fail Effects.settingsUnusable s!"Numbers have at most {Report.maxPlaces} decimal places")

def validate (h : Host) (colors : Bool) (path : String) : Except Effects Effects := do
  let s ← schema h path
  let problems := lint s
  if problems.isEmpty then
    return .print s!"Schema OK: {s.fields.length} fields, {s.computed.length} computed"
  else return .fail Effects.schemaUnfit (Report.problems colors problems)

def order (h : Host) (colors : Bool) (path : String) : Except Effects Effects := do
  let sc ← scorer h path
  return .print (Report.order colors sc.order)

def template (h : Host) (t : Trampoline) (json : Bool) : Except Effects Effects :=
  match if json then h.printJson t.schema.document else h.printYaml t.schema.document with
  | .ok text => .ok (.print (Text.trimEnd text))
  | .error complaint => .error (.fail Effects.filesFailed ("Failed to serialize template: " ++ complaint))

/-- A task done, in whichever way it ends. -/
def perform (h : Host) (s : Settings) (task : Task) : Effects :=
  let colors := s.color.getD h.terminal
  let done : Except Effects Effects := match task with
    | .compute schemaPath inputsPath json out => compute h s colors schemaPath inputsPath json out
    | .validate path => validate h colors path
    | .order path => order h colors path
    | .template judges valid criteria elements manual json =>
      let execution := if manual then ExecutionMode.manual else ExecutionMode.elements
      template h { judges, valid := valid.getD judges, criteria, elements, execution := some execution } json
  match done with
  | .ok e => e
  | .error e => e

/-- What chooses the log lines: a wish to see more of them before all else, then what is chosen outside of the settings,
of which nothing is to be checked. -/
def chosenFilter? (h : Host) (s : Settings) (verbose : Bool) : Option String :=
  if verbose then some "debug" else if h.logChosen then none else some s.logLevel

/-- A task done once log lines are chosen.  A text that chooses none is reported and otherwise of no effect, and so is
what stands in the way of log lines; with a text over which the run breaks off nothing is done. -/
def performLogged (h : Host) (s : Settings) (verbose : Bool) (task : Task) : Effects :=
  let fault := match chosenFilter? h s verbose with
    | none => Except.ok ()
    | some text => (h.filter text).mapError (text, ·)
  match fault, h.logFault with
  | .ok _, none => perform h s task
  | .ok _, some complaint => (perform h s task).after ("telemetry error: " ++ complaint)
  | .error (text, .malformed), _ =>
    (perform h s task).after s!"invalid log level/filter '{text}': unable to build EnvFilter"
  | .error (_, .breaksOff line), _ => .fail Effects.settingsUnusable line

/-- A command line run. -/
def run (h : Host) (args : List String) : Effects :=
  match h.arguments args with
  | .error e => e
  | .ok i =>
    match settings h i.settings with
    | .error line => .fail Effects.filesFailed ("Config error: " ++ line)
    | .ok s => performLogged h s i.verbose i.task

end Command

end Scoresheet
