import Scoresheet.Table
import Scoresheet.Value

/-!
# Documents

Data in the order in which it is written.  Unlike a value, a document keeps the order of its keys and tells whole
numbers from others.  A number that is not finite has no written form and becomes null.
-/
namespace Scoresheet

inductive Document where
  | null
  | bool (b : Bool)
  | whole (n : Nat)
  | number (n : Score)
  | text (s : String)
  | list (items : List Document)
  | object (entries : List (String × Document))

namespace Document

instance : Inhabited Document := ⟨.null⟩

def ofScore (n : Score) : Document := if n.isFinite then .number n else .null

mutual

/-- The document of a value. -/
def ofValue : Value → Document
  | .null => .null
  | .bool b => .bool b
  | .number n => ofScore n
  | .text s => .text s
  | .list xs => .list (ofValues xs)
  | .map es => .object (ofEntries es)

def ofValues : List Value → List Document
  | [] => []
  | v :: vs => ofValue v :: ofValues vs

def ofEntries : List (String × Value) → List (String × Document)
  | [] => []
  | (k, v) :: es => (k, ofValue v) :: ofEntries es

end

mutual

/-- The value that a document holds. -/
def toValue : Document → Value
  | .null => .null
  | .bool b => .bool b
  | .whole n => .number (Score.ofNat n)
  | .number n => .number n
  | .text s => .text s
  | .list xs => .list (toValues xs)
  | .object es => .map (toEntries es)

def toValues : List Document → List Value
  | [] => []
  | d :: ds => toValue d :: toValues ds

/-- The entries in increasing order of their keys; of two with one key the later counts. -/
def toEntries : List (String × Document) → List (String × Value)
  | [] => []
  | (k, d) :: es =>
    let rest := toEntries es
    if (Table.find? k rest).isSome then rest else Table.put k (toValue d) rest

end

/-- The object of the entries that are there. -/
def ofOptional (entries : List (String × Option Document)) : List (String × Document) :=
  entries.filterMap fun e => e.2.map (Prod.mk e.1)

end Document

end Scoresheet
