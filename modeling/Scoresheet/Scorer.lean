import Scoresheet.Call
import Scoresheet.Formula.Compile
import Scoresheet.Plan

/-!
# Scorers

A schema compiled once and used for any number of sheets.  A scorer holds the formulas in the order in which they are
evaluated; scoring a sheet brings the inputs into shape, evaluates the formulas one after the other, and finds the
total among the outputs.

Expressions inside calls are compiled while a sheet is scored.  The library that keeps them goes from one sheet to the
next and changes no result.
-/
namespace Scoresheet

namespace Schema

/-- The first code that is blank or was there before, if any. -/
def codeFault? : List String → List String → Option SchemaFault
  | _, [] => none
  | seen, code :: codes =>
    if Text.allBlank code then some .missingCode
    else if seen.contains code then some (.duplicateCode code)
    else codeFault? (code :: seen) codes

/-- The formulas of the computed entries that have one, compiled. -/
def formulas (entries : List Computed) : Result (List Node) :=
  (entries.filterMap fun c => c.formulaText.map (Prod.mk c.code)).mapM fun c =>
    match Dialect.formula.compile c.2 with
    | .ok e => .ok ⟨c.1, e⟩
    | .error err => .error (.computed c.1 err)

end Schema

structure Scorer where
  schema : Schema
  aliases : Table String
  /-- The compiled formulas in the order in which they are evaluated. -/
  plan : List Node

/-- What comes of a sheet. -/
structure Outcome where
  inputs : Table Value
  outputs : Table Value
  total : Score

namespace Scorer

/-- The scorer of a schema.  Every entry needs a code of its own, every formula must compile, and no two entries may
wait for each other. -/
def ofSchema (s : Schema) : Result Scorer :=
  match Schema.codeFault? [] s.codes with
  | some fault => .error (.schema fault)
  | none => do
    let nodes ← Schema.formulas s.computed
    let order ← Plan.order nodes s.aliases
    return ⟨s, s.aliases, order.filterMap fun i => nodes[i]?⟩

/-- The codes in the order in which they are evaluated. -/
def order (s : Scorer) : List String := s.plan.map (·.code)

def normalize (s : Scorer) (raw : Table Value) : Table Value := Scoresheet.normalize s.schema.fields raw

/-- The total among the outputs, zero if there is none. -/
def total (outputs : Table Value) : Score :=
  (((outputs.get? "TOTAL").or (outputs.get? "total")).map Value.toScore).getD 0

section

variable {m : Type → Type} [Monad m] [MonadExcept Error m]

/-- The context once a formula's value is stored. -/
def advance (compile : Dialect → String → m Expr) (cx : Context) (node : Node) : m Context := do
  let v ← tryCatch (evaluate (cx.scope compile) node.expr) fun e => throw (.computed node.code e)
  return cx.store node.code v

/-- The context once all formulas are evaluated. -/
def run (compile : Dialect → String → m Expr) (s : Scorer) (inputs : Table Value) : m Context :=
  s.plan.foldlM (advance compile) (Context.start s.schema inputs s.aliases)

/-- A raw sheet scored. -/
def scoreWith (compile : Dialect → String → m Expr) (s : Scorer) (raw : Table Value) : m Outcome := do
  let inputs := s.normalize raw
  let cx ← s.run compile inputs
  return ⟨inputs, cx.outputs, total cx.outputs⟩

end

/-- What comes of a raw sheet. -/
def score (s : Scorer) (raw : Table Value) : Result Outcome := s.scoreWith Dialect.compile raw

end Scorer

/-- Scoring with a library of compiled expressions at hand. -/
abbrev Session := ExceptT Error (StateM Library)

namespace Session

/-- The library's compiler. -/
def compile (d : Dialect) (source : String) : Session Expr := ExceptT.mk fun lib => lib.compile d source

/-- A raw sheet scored, with the library after it. -/
def score (lib : Library) (s : Scorer) (raw : Table Value) : Result Outcome × Library :=
  (s.scoreWith compile raw).run.run lib

end Session

end Scoresheet
