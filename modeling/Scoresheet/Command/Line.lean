import Scoresheet.Command.Invocation
import Scoresheet.Schema.Trampoline
import Scoresheet.Score.Literal

/-!
# The command line

The words of a command line read as a request, as the plain toolkit does it.  An option's value follows it, either as
the next word or after an equals sign; short options may share a dash, and after two dashes alone no options follow.
The options that may stand anywhere may stand both before and after the task; those after it count.  Help and the
version are asked for by options, help also by a word; nothing counts that stands behind them.
-/
namespace Scoresheet

/-- Why a command line has no meaning. -/
inductive UsageFault where
  | noTask
  | unknownTask (word : String)
  | unknownOption (word : String)
  | missingValue (option : String)
  | unwantedValue (option : String)
  | repeated (option : String)
  | required (option : String)
  | notANumber (option value : String)
  | unexpected (word : String)
deriving DecidableEq

def UsageFault.message : UsageFault → String
  | .noTask => "a task is required: compute, validate, order or template"
  | .unknownTask word => s!"unrecognized task '{word}'"
  | .unknownOption word => s!"unexpected option '{word}'"
  | .missingValue option => s!"a value is required for '--{option}'"
  | .unwantedValue option => s!"'--{option}' takes no value"
  | .repeated option => s!"'--{option}' cannot be used more than once"
  | .required option => s!"'--{option}' is required"
  | .notANumber option value => s!"invalid value '{value}' for '--{option}'"
  | .unexpected word => s!"unexpected word '{word}'"

namespace Line

/-- An option: its long name, its letter, and whether a value goes with it. -/
structure Choice where
  name : String
  letter : Option Char
  hasValue : Bool

/-- The options that stand for a task of their own. -/
def helpChoice : Choice := ⟨"help", some 'h', false⟩
def versionChoice : Choice := ⟨"version", some 'V', false⟩

/-- Whether words behind an option do not count. -/
def Choice.isLast (c : Choice) : Bool := c.name == helpChoice.name || c.name == versionChoice.name

def anywhere : List Choice := [⟨"verbose", some 'v', false⟩, ⟨"config", some 'c', true⟩, helpChoice]

def schemaChoice : Choice := ⟨"schema", some 's', true⟩

/-- The options of a task besides those that may stand anywhere. -/
def choices? (task : String) : Option (List Choice) :=
  match task with
  | "compute" =>
    some [schemaChoice, ⟨"inputs", some 'i', true⟩, ⟨"json", none, false⟩, ⟨"out", some 'o', true⟩]
  | "validate" => some [schemaChoice]
  | "order" => some [schemaChoice]
  | "template" =>
    some [⟨"judges", none, true⟩, ⟨"valid", none, true⟩, ⟨"criteria", none, true⟩, ⟨"elements", none, true⟩,
      ⟨"manual", none, false⟩, ⟨"json", none, false⟩]
  | _ => none

/-- The options that were read, each with its value. -/
abbrev Chosen := List (String × String)

/-- The words read so far: the task, the options that may follow, those that were read before the task, and those that
were read since. -/
structure Progress where
  task : Option String
  allowed : List Choice
  before : Chosen
  chosen : Chosen

namespace Progress

def start : Progress := ⟨none, versionChoice :: anywhere, [], []⟩

/-- All options, of two with one name the one that counts first. -/
def options (p : Progress) : Chosen := p.chosen ++ p.before

end Progress

def Progress.add (p : Progress) (c : Choice) (value : String) : Except UsageFault Progress :=
  if p.chosen.any fun o => o.1 == c.name then .error (.repeated c.name)
  else .ok { p with chosen := (c.name, value) :: p.chosen }

/-- A word that may be a value: it does not look like an option. -/
def mayBeValue (word : String) : Bool :=
  match word.toList with
  | ['-'] => true
  | '-' :: _ => false
  | _ => true

/-- A value for an option: what stands with it, or else the next word. -/
def takeValue (p : Progress) (c : Choice) (own : Option (List Char)) (rest : List String) :
    Except UsageFault (Progress × List String) :=
  match own, rest with
  | some value, rest => (p.add c (String.ofList value)).map (·, rest)
  | none, word :: rest =>
    if mayBeValue word then (p.add c word).map (·, rest) else .error (.missingValue c.name)
  | none, [] => .error (.missingValue c.name)

/-- Letters behind one dash.  An option with a value takes what is left of them. -/
def letters (p : Progress) (rest : List String) : List Char → Except UsageFault (Progress × List String)
  | [] => .ok (p, rest)
  | l :: ls =>
    match p.allowed.find? fun c => c.letter == some l with
    | none => .error (.unknownOption ("-" ++ String.singleton l))
    | some c =>
      if c.hasValue then
        takeValue p c (match ls with
          | [] => none
          | '=' :: value => some value
          | value => some value) rest
      else
        match p.add c "" with
        | .error fault => .error fault
        | .ok p => if c.isLast then .ok (p, []) else letters p rest ls

/-- A word that starts with two dashes. -/
def longOption (p : Progress) (rest : List String) (cs : List Char) : Except UsageFault (Progress × List String) :=
  let name := String.ofList (cs.takeWhile (· != '='))
  let value := match cs.dropWhile (· != '=') with
    | '=' :: value => some value
    | _ => none
  match p.allowed.find? fun c => c.name == name with
  | none => .error (.unknownOption ("--" ++ name))
  | some c =>
    if c.hasValue then takeValue p c value rest
    else match value with
      | some _ => .error (.unwantedValue c.name)
      | none => (p.add c "").map (·, if c.isLast then [] else rest)

/-- The word that asks for help, with the words after it: at most one, the name of a task or that word again. -/
def helpWord (p : Progress) (rest : List String) : Except UsageFault (Progress × List String) :=
  match rest with
  | [] => (p.add helpChoice "").map (·, [])
  | w :: more =>
    if (choices? w).isNone && w != helpChoice.name then .error (.unknownTask w)
    else match more with
      | [] => (p.add helpChoice "").map (·, [])
      | w :: _ => .error (.unknownTask w)

/-- One word read, with the words left after it. -/
def word (p : Progress) (w : String) (rest : List String) : Except UsageFault (Progress × List String) :=
  match w.toList with
  | ['-', '-'] =>
    match rest with
    | [] => .ok (p, [])
    | w :: _ => .error (.unexpected w)
  | '-' :: '-' :: cs => longOption p rest cs
  | '-' :: c :: cs => letters p rest (c :: cs)
  | _ =>
    match p.task with
    | some _ => .error (.unexpected w)
    | none =>
      match choices? w with
      | none => if w == helpChoice.name then helpWord p rest else .error (.unknownTask w)
      | some more => .ok (⟨some w, anywhere ++ more, p.chosen, []⟩, rest)

/-- All words read.  Each step takes at least one word, so as many steps as words are enough. -/
def words : Nat → Progress → List String → Except UsageFault Progress
  | _, p, [] => .ok p
  | 0, p, _ => .ok p
  | n + 1, p, w :: rest =>
    match word p w rest with
    | .error fault => .error fault
    | .ok (p, rest) => words n p rest

def value? (chosen : Chosen) (name : String) : Option String := (chosen.find? fun o => o.1 == name).map (·.2)

def has (chosen : Chosen) (name : String) : Bool := (value? chosen name).isSome

/-- A path, where one is given; it is not empty. -/
def path? (chosen : Chosen) (name : String) : Except UsageFault (Option String) :=
  match value? chosen name with
  | some "" => .error (.missingValue name)
  | path => .ok path

def path (chosen : Chosen) (name : String) : Except UsageFault String :=
  match path? chosen name with
  | .ok (some path) => .ok path
  | .ok none => .error (.required name)
  | .error fault => .error fault

/-- The largest count a command line may give. -/
def maxCount : Nat := 18446744073709551615

/-- A count, where one is given. -/
def count? (chosen : Chosen) (name : String) : Except UsageFault (Option Nat) :=
  match value? chosen name with
  | none => .ok none
  | some v =>
    let digits := match v.toList with
      | '+' :: ds => ds
      | ds => ds
    if !digits.isEmpty && digits.all isDigit && decide (digitsValue digits ≤ maxCount) then
      .ok (some (digitsValue digits))
    else .error (.notANumber name v)

/-- A count, or the default where none is given. -/
def count (chosen : Chosen) (name : String) (default : Nat) : Except UsageFault Nat :=
  (count? chosen name).map (·.getD default)

def task (name : String) (chosen : Chosen) : Except UsageFault Task :=
  match name with
  | "compute" => do
    let schema ← path chosen "schema"
    let inputs ← path chosen "inputs"
    let out ← path? chosen "out"
    return .compute schema inputs (has chosen "json") out
  | "validate" => (path chosen "schema").map .validate
  | "order" => (path chosen "schema").map .order
  | _ => do
    let judges ← count chosen "judges" 3
    let valid ← count? chosen "valid"
    let elements ← count chosen "elements" defaultElements
    return .template judges valid ((value? chosen "criteria").getD "totes") elements (has chosen "manual")
      (has chosen "json")

/-- What a command line asks for. -/
inductive Request where
  | run (i : Invocation)
  | help
  | version

/-- The request that a command line is. -/
def request (args : List String) : Except UsageFault Request := do
  let p ← words args.length Progress.start args
  if has p.chosen helpChoice.name then return .help
  match p.task with
  | none => if has p.chosen versionChoice.name then return .version else throw .noTask
  | some name =>
    let task ← task name p.options
    return .run ⟨task, has p.options "verbose", value? p.options "config"⟩

end Line

end Scoresheet
