import Scoresheet.Schema

/-!
# Inputs

Raw inputs brought into the shapes that the fields declare.  Missing cells count as zero, surplus ones are cut off,
and every number is moved within its field's bounds.  Crash positions stand beside the matrix under a key of their
own and never change the matrix.
-/
namespace Scoresheet

/-- What the keys of crash positions start with. -/
def crashMark : String := "__crash__"

/-- The key of the crash positions of a field. -/
def crashKey (code : String) : String := crashMark ++ code

/-- The code that a crash key is for. -/
def crashCode? (key : String) : Option String :=
  if crashMark.toList.isPrefixOf key.toList then some (String.ofList (key.toList.drop crashMark.length)) else none

namespace Value

/-- The first `length` items of a list, filled up with nulls.  What is no list has no items. -/
def padded (v : Value) (length : Nat) : List Value :=
  (List.range length).map fun i => v.items[i]?.getD .null

end Value

namespace Field

/-- A raw cell of the field as a number. -/
def cell (f : Field) (v : Value) : Score := f.clamp v.toScore

/-- A raw input of the field in its declared shape. -/
def normal (f : Field) (v : Value) : Value :=
  match f.layout with
  | .scalar => .number (f.cell v)
  | .judgeVector => .ofScores ((v.padded f.judgeCount).map f.cell)
  | .matrix => .list ((v.padded f.judgeCount).map fun row => .ofScores ((row.padded f.itemCount).map f.cell))
  | .passthrough => v

/-- A crash position, kept between zero and the number of items. -/
def crashPosition (f : Field) (v : Value) : Int := max 0 (min v.toInt f.itemCount)

/-- The crash positions of the judges. -/
def crashPositions (f : Field) (v : Value) : List Int := (v.padded f.judgeCount).map f.crashPosition

/-- What the field contributes to the inputs: its own entry, and its crash positions where it tracks them. -/
def contribute (f : Field) (raw : Table Value) (inputs : Table Value) : Table Value :=
  if f.code.isEmpty then inputs
  else
    let withCrash :=
      if f.tracksCrash then
        let key := crashKey f.code
        inputs.insert key (.ofScores ((f.crashPositions ((raw.get? key).getD .null)).map Score.ofInt))
      else inputs
    withCrash.insert f.code (f.normal ((raw.get? f.code).getD .null))

end Field

/-- The inputs of the fields, in their declared shapes. -/
def normalize (fields : List Field) (raw : Table Value) : Table Value :=
  fields.foldl (fun inputs f => f.contribute raw inputs) .empty

namespace Schema

/-- Whether a raw key belongs to a declared field, as its code or as its crash key. -/
def declares (s : Schema) (key : String) : Bool :=
  match crashCode? key with
  | some code => (s.field? code).isSome
  | none => (s.field? key).isSome

/-- The raw inputs that belong to declared fields, and the names of all others. -/
def retain (s : Schema) (raw : Table Value) : Table Value × List String :=
  (raw.filter fun k _ => s.declares k, raw.keys.filter fun k => !s.declares k)

end Schema

end Scoresheet
