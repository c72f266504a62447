import Scoresheet.Schema

/-!
# The trampoline schema

The schema of a trampoline panel: execution, difficulty, time of flight, horizontal displacement and penalty, each of
which may be left out, and the total of those that are there.
-/
namespace Scoresheet

/-- How judges enter execution. -/
inductive ExecutionMode where
  /-- A deduction per element, with crash tracking. -/
  | elements
  /-- One finished mark per judge. -/
  | manual
deriving DecidableEq

/-- What a trampoline schema is made for. -/
structure Trampoline where
  judges : Nat := 3
  /-- How many execution marks count. -/
  valid : Nat := 3
  /-- The name of the criterion for execution marks. -/
  criteria : String := "totes"
  elements : Nat := defaultElements
  /-- Without a mode there is no execution. -/
  execution : Option ExecutionMode := some .elements
  difficulty : Bool := true
  timeOfFlight : Bool := true
  horizontalDisplacement : Bool := true
  penalty : Bool := true

namespace Trampoline

/-- There is always a judge. -/
def panel (t : Trampoline) : Nat := max t.judges 1

/-- A field with a code and a kind, and nothing else configured. -/
def plainField (code label kind : String) (decimals : Nat) : Field where
  code
  label := some label
  kind := some kind
  shape := none
  decimals := some decimals
  lower := none
  upper := none
  judges := none
  items := none
  crash := none
  var := none
  extra := .empty

def numberField (code label : String) : Field := plainField code label "number" 3

def entry (code label formula : String) : Computed := ⟨code, some label, some formula, none, .empty⟩

def count (n : Nat) : Option Count := some ⟨some (Score.ofNat n)⟩

/-- The field of a deduction per judge and element. -/
def deductionField (t : Trampoline) : Field :=
  { plainField "E" "Execution" "matrix" 0 with
    shape := some "judge_x_element"
    lower := some 0
    upper := some 10
    judges := count t.panel
    items := count t.elements
    crash := some true }

/-- The field of a finished mark per judge. -/
def manualField (t : Trampoline) : Field :=
  { plainField "E_manual" "Execution (manual)" "list" 3 with
    shape := some "judge"
    lower := some 0
    judges := count t.panel }

/-- The entry that selects among the marks of the judges. -/
def executionTotal (marks : String) : Computed :=
  entry "E_total" "Execution total" (s!"select_sum({marks}, params['n_valid'], params['criteria'])")

def executionFields (t : Trampoline) : List Field :=
  match t.execution with
  | some .elements => [t.deductionField]
  | some .manual => [t.manualField]
  | none => []

def executionEntries (t : Trampoline) : List Computed :=
  match t.execution with
  | some .elements =>
    [entry "E_j" "Execution by judge" "exec_by_judge(E, crash('E'), params)", executionTotal "E_j"]
  | some .manual => [executionTotal "E_manual"]
  | none => []

/-- The optional marks that are added to the total, with their labels. -/
def additions (t : Trampoline) : List (String × String) :=
  (if t.difficulty then [("DD", "Difficulty")] else []) ++
    (if t.timeOfFlight then [("TOF", "Time of flight")] else []) ++
    if t.horizontalDisplacement then [("HD", "Horizontal displacement")] else []

/-- What the total adds up. -/
def parts (t : Trampoline) : List String :=
  (if t.execution.isSome then ["E_total"] else []) ++ t.additions.map (·.1)

def totalFormula (t : Trampoline) : String :=
  let sum := if t.parts.isEmpty then "0" else " + ".intercalate t.parts
  if t.penalty then s!"({sum}) - P" else sum

/-- The columns of a table of results. -/
def columns (t : Trampoline) : List String :=
  t.executionFields.map (·.code) ++ t.parts ++ (if t.penalty then ["P"] else []) ++ ["TOTAL"]

def schema (t : Trampoline) : Schema where
  params := .ofList [
    ("n_judges", .number (Score.ofNat t.panel)),
    ("n_valid", .number (Score.ofNat (min t.valid t.panel))),
    ("criteria", .text t.criteria),
    ("n_elements", .number (Score.ofNat t.elements))]
  fields := t.executionFields ++ t.additions.map (fun a => numberField a.1 a.2) ++
    if t.penalty then [numberField "P" "Penalty"] else []
  computed := t.executionEntries ++ [entry "TOTAL" "Total" t.totalFormula]
  ui := some (.map [("columns", .list (t.columns.map .text))])

end Trampoline

end Scoresheet
