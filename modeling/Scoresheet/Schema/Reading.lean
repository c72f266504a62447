import Scoresheet.Error
import Scoresheet.Schema

/-!
# Reading schemas

From a value to a schema.  The outline must be right: an object whose fields and computed entries are lists and whose
parameters are an object.  Everything inside is read leniently: what has the wrong type counts as not there, and an
entry that is no object is left out.
-/
namespace Scoresheet

namespace Value

/-- The number in a setting: a number, a truth value, or a text that denotes a number. -/
def numeral? : Value → Option Score
  | .number n => some n
  | .bool b => some (Score.ofBool b)
  | .text s => textScore? s
  | _ => none

end Value

/-- The largest number of decimals that is kept apart from the others. -/
def maxDecimals : Int := 4294967295

namespace Reading

/-- An object's value under a key, as read by `f`; a key that is missing reads as null. -/
def under {α : Type} (f : Value → α) (entries : List (String × Value)) (key : String) : α :=
  f ((Table.find? key entries).getD .null)

def decimals? (v : Value) : Option Nat :=
  v.numeral?.map fun n => (min n.toInt maxDecimals).toNat

/-- A count is an object; whatever else stands there means that none is configured. -/
def count? (v : Value) : Option Count :=
  v.entries?.map fun es => ⟨under Value.numeral? es "count"⟩

def crash? (v : Value) : Option Bool :=
  v.entries?.map fun es => under Value.isTruthy es "enabled"

/-- The entries under other keys than the ones given. -/
def others (known : List String) (entries : List (String × Value)) : Table Value :=
  .ofList (entries.filter fun e => !known.contains e.1)

def fieldKeys : List String :=
  ["code", "label", "type", "shape", "decimals", "min", "max", "judges", "items", "crash", "var"]

def computedKeys : List String := ["code", "label", "formula", "var"]

def field (es : List (String × Value)) : Field where
  code := (under Value.text? es "code").getD ""
  label := under Value.text? es "label"
  kind := under Value.text? es "type"
  shape := under Value.text? es "shape"
  decimals := under decimals? es "decimals"
  lower := under Value.numeral? es "min"
  upper := under Value.numeral? es "max"
  judges := under count? es "judges"
  items := under count? es "items"
  crash := under crash? es "crash"
  var := under Value.text? es "var"
  extra := others fieldKeys es

def computed (es : List (String × Value)) : Computed where
  code := (under Value.text? es "code").getD ""
  label := under Value.text? es "label"
  formula := under Value.text? es "formula"
  var := under Value.text? es "var"
  extra := others computedKeys es

/-- The list under a key; nothing and null are the empty list. -/
def listUnder (entries : List (String × Value)) (key : String) : Except SchemaFault (List Value) :=
  match Table.find? key entries with
  | none | some .null => .ok []
  | some (.list xs) => .ok xs
  | some _ => .error (.notAList key)

def params (entries : List (String × Value)) : Except SchemaFault (Table Value) :=
  match Table.find? "params" entries with
  | none => .ok .empty
  | some .null => .error .parametersNull
  | some (.map es) => .ok (.ofList es)
  | some _ => .error .parametersNotAnObject

end Reading

namespace Schema

/-- The schema that a value is. -/
def ofValue (v : Value) : Except SchemaFault Schema :=
  match v with
  | .map es => do
    let fields ← Reading.listUnder es "fields"
    let computed ← Reading.listUnder es "computed"
    let params ← Reading.params es
    return {
      params
      fields := (fields.filterMap Value.entries?).map Reading.field
      computed := (computed.filterMap Value.entries?).map Reading.computed
      ui := (Table.find? "ui" es).filter fun u => !u.isNull }
  | _ => .error .notAnObject

end Schema

end Scoresheet
