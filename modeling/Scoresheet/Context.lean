import Scoresheet.Inputs

/-!
# Contexts

What formulas see while a sheet is scored: the outputs stored so far, what short names stand for, and below them the
parameters and the inputs.  A name means the first of these that has it.
-/
namespace Scoresheet

structure Context where
  schema : Schema
  inputs : Table Value
  aliases : Table String
  /-- What the short names mean at this point. -/
  shortcuts : Table Value
  outputs : Table Value

namespace Context

/-- The parameters under their name, or an input. -/
def base? (schema : Schema) (inputs : Table Value) (name : String) : Option Value :=
  if name = "params" then some (.map schema.params.entries) else inputs.get? name

/-- The context before any output is stored. -/
def start (schema : Schema) (inputs : Table Value) (aliases : Table String) : Context where
  schema
  inputs
  aliases
  shortcuts := aliases.filterMap (base? schema inputs)
  outputs := .empty

/-- The context once an output is stored.  The short names of its code mean it from now on. -/
def store (cx : Context) (code : String) (v : Value) : Context :=
  { cx with
    shortcuts := cx.aliases.entries.foldl (fun t a => if a.2 = code then t.insert a.1 v else t) cx.shortcuts
    outputs := cx.outputs.insert code v }

/-- What a name means. -/
def lookup (cx : Context) (name : String) : Option Value :=
  ((cx.outputs.get? name).or (cx.shortcuts.get? name)).or (base? cx.schema cx.inputs name)

/-- The code that a name refers to: a stored output's own, else what a short name stands for. -/
def canonical (cx : Context) (name : String) : String :=
  if cx.outputs.contains name then name else (cx.aliases.get? name).getD name

/-- The crash positions of a field; none where it does not track them. -/
def crashes (cx : Context) (code : String) : List Int :=
  match cx.inputs.get? (crashKey code) with
  | some v => v.items.map Value.toInt
  | none => []

end Context

end Scoresheet
