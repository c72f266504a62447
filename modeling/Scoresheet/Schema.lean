import Scoresheet.Table
import Scoresheet.Value

/-!
# Schemas

A schema declares what judges enter and how totals follow from it: parameters, input fields, and computed entries with
their formulas.  Counts are bounded whatever a schema says, so a sheet never has more than ten judges or fifty items.
-/
namespace Scoresheet

/-- How many elements a routine has unless the parameters say so. -/
def defaultElements : Nat := 11

/-- The most items or elements of a row. -/
def maxItems : Nat := 50

/-- The most judges of a field. -/
def maxJudges : Nat := 10

/-- How the raw input of a field is brought into shape. -/
inductive Layout where
  | scalar
  | judgeVector
  | matrix
  /-- The input stays as it is. -/
  | passthrough
deriving DecidableEq

/-- A configured count, perhaps without a number. -/
structure Count where
  number : Option Score
deriving DecidableEq

/-- What a judge enters. -/
structure Field where
  /-- Empty where the schema gives none. -/
  code : String
  label : Option String
  kind : Option String
  shape : Option String
  decimals : Option Nat
  lower : Option Score
  upper : Option Score
  judges : Option Count
  items : Option Count
  /-- Whether crash tracking is switched on, where it is configured. -/
  crash : Option Bool
  /-- A short name for formulas. -/
  var : Option String
  /-- The keys that mean nothing here. -/
  extra : Table Value

/-- What is computed by a formula. -/
structure Computed where
  code : String
  label : Option String
  formula : Option String
  var : Option String
  extra : Table Value

structure Schema where
  params : Table Value
  fields : List Field
  computed : List Computed
  /-- Hints for presentation, of no meaning here. -/
  ui : Option Value

namespace Count

/-- The whole number of a count, zero where there is none. -/
def whole (c : Option Count) : Int := ((c.bind Count.number).getD 0).toInt

end Count

namespace Field

def layout (f : Field) : Layout :=
  match f.kind, f.shape with
  | some "number", _ => .scalar
  | some "list", some "judge" => .judgeVector
  | some "matrix", some "judge_x_item" => .matrix
  | some "matrix", some "judge_x_element" => .matrix
  | _, _ => .passthrough

/-- How many judges enter the field: one unless configured, at most ten. -/
def judgeCount (f : Field) : Nat :=
  let n := Count.whole f.judges
  if n = 0 then 1 else max 1 (min n.toNat maxJudges)

/-- How many items a row has: none unless configured, at most fifty. -/
def itemCount (f : Field) : Nat := min (Count.whole f.items).toNat maxItems

/-- Whether crashes are tracked, which only matrices do. -/
def tracksCrash (f : Field) : Bool := decide (f.layout = .matrix) && f.crash.getD false

/-- A number moved within the declared bounds, the lower one first. -/
def clamp (f : Field) (x : Score) : Score :=
  let y := match f.lower with
    | some lo => Score.max x lo
    | none => x
  match f.upper with
  | some hi => Score.min y hi
  | none => y

theorem itemCount_le (f : Field) : f.itemCount ≤ maxItems := by
  unfold itemCount; omega

end Field

namespace Computed

/-- The formula, unless it is missing or blank. -/
def formulaText (c : Computed) : Option String := c.formula.filter fun f => !Text.allBlank f

end Computed

namespace Schema

/-- The elements of a routine: the first of the two parameters for it that is a whole number other than zero, at
least one and at most fifty. -/
def elements (params : Table Value) : Nat :=
  let configured := ["n_elements", "num_elements"].filterMap fun k => (params.get? k).map Value.toInt
  let n := (configured.find? fun n => n != 0).getD defaultElements
  max 1 (min n.toNat maxItems)

/-- The short names of the parameters, where they stand for a text. -/
def parameterAliases (params : Table Value) : Table String :=
  match (params.get? "aliases").bind Value.entries? with
  | none => .empty
  | some entries => .ofList (entries.filterMap fun e => e.2.text?.map (Prod.mk e.1))

/-- The first field of a code. -/
def field? (s : Schema) (code : String) : Option Field := s.fields.find? fun f => f.code == code

/-- The first computed entry of a code. -/
def computed? (s : Schema) (code : String) : Option Computed := s.computed.find? fun c => c.code == code

/-- The codes of all fields and computed entries. -/
def codes (s : Schema) : List String := s.fields.map (·.code) ++ s.computed.map (·.code)

/-- The short names of fields and computed entries, blanks around them taken off, each with its code. -/
def vars (s : Schema) : List (String × String) :=
  let named := s.fields.map (fun f => (f.var, f.code)) ++ s.computed.map fun c => (c.var, c.code)
  named.filterMap fun n =>
    match n.1.map Text.trim with
    | none => none
    | some short => if short.isEmpty || n.2.isEmpty then none else some (short, n.2)

/-- What each short name stands for.  A name declared on an entry counts before one in the parameters, and of two
entries the later. -/
def aliases (s : Schema) : Table String :=
  s.vars.foldl (fun t v => t.insert v.1 v.2) (parameterAliases s.params)

end Schema

end Scoresheet
