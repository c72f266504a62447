import Scoresheet.Document
import Scoresheet.Lint
import Scoresheet.Scorer
import Scoresheet.Score.Text

/-!
# Reports

What is shown of a scored sheet, of an order of evaluation, and of problems.  A table has the inputs and then the
computed values, each on a line after its code; the total is set off by colour, or stands on a line of its own where
no entry has it.
-/
namespace Scoresheet

namespace Report

/-! ## Colours -/

/-- A text between the code that switches a display attribute on and the one that switches it off. -/
def styled (on off : String) (text : String) : String := "\x1b[" ++ on ++ "m" ++ text ++ "\x1b[" ++ off ++ "m"

def bold : String → String := styled "1" "0"
def dimmed : String → String := styled "2" "0"
def red : String → String := styled "31" "39"
def green : String → String := styled "32" "39"
def cyan : String → String := styled "36" "39"

/-! ## Values -/

mutual

/-- A value on one line, numbers with a fixed number of decimal places. -/
def value (places : Nat) : Value → String
  | .null => "-"
  | .bool b => if b then "true" else "false"
  | .number n => n.fixedText places
  | .text s => s
  | .list vs => "[" ++ ", ".intercalate (values places vs) ++ "]"
  | .map es => "\x7b" ++ ", ".intercalate (entries places es) ++ "\x7d"

def values (places : Nat) : List Value → List String
  | [] => []
  | v :: vs => value places v :: values places vs

def entries (places : Nat) : List (String × Value) → List String
  | [] => []
  | (k, v) :: es => (k ++ ": " ++ value places v) :: entries places es

end

/-! ## Tables -/

/-- A text filled up with blanks. -/
def padRight (width : Nat) (s : String) : String := s ++ String.ofList (List.replicate (width - s.length) ' ')

/-- The values under given codes, where there are any. -/
def rows (codes : List String) (t : Table Value) : List (String × Value) :=
  codes.filterMap fun code => (t.get? code).map (Prod.mk code)

/-- A line of a table; `paint` colours the code. -/
def line (colors : Bool) (places width : Nat) (paint : String → String) (row : String × Value) : String :=
  let code := padRight width row.1
  let text := value places row.2
  if !colors then code ++ "  " ++ text
  else if row.1 == "TOTAL" then bold code ++ "  " ++ green (bold text)
  else paint code ++ "  " ++ text

/-- The line of the total for tables without an entry of that code. -/
def totalLine (colors : Bool) (places : Nat) (total : Score) : String :=
  let text := total.fixedText places
  if colors then bold "total" ++ ": " ++ bold text else "total: " ++ text

/-- Inputs in the order of the fields, an empty line, and computed values in the order of their entries. -/
def table (colors : Bool) (places : Nat) (s : Schema) (o : Outcome) : String :=
  let inputs := rows (s.fields.map (·.code)) o.inputs
  let computed := rows (s.computed.map (·.code)) o.outputs
  let width := (inputs ++ computed).foldl (fun w row => max w row.1.length) 0
  let gap := if inputs.isEmpty || computed.isEmpty then [] else [""]
  let last := if computed.any fun row => row.1 == "TOTAL" then [] else [totalLine colors places o.total]
  "\n".intercalate (inputs.map (line colors places width dimmed) ++ gap ++
    computed.map (line colors places width cyan) ++ last)

/-- The most decimal places that a number can be written with. -/
def maxPlaces : Nat := 65535

mutual

/-- Whether a number is written in a value. -/
def hasNumber : Value → Bool
  | .number _ => true
  | .list vs => anyNumber vs
  | .map es => anyNumberIn es
  | _ => false

def anyNumber : List Value → Bool
  | [] => false
  | v :: vs => hasNumber v || anyNumber vs

def anyNumberIn : List (String × Value) → Bool
  | [] => false
  | (_, v) :: es => hasNumber v || anyNumberIn es

end

/-- Whether a table can be written: it has no number, or not too many decimal places. -/
def isWritable (places : Nat) (s : Schema) (o : Outcome) : Bool :=
  let computed := rows (s.computed.map (·.code)) o.outputs
  decide (places ≤ maxPlaces) ||
    ((computed.any fun row => row.1 == "TOTAL") &&
      !anyNumberIn (rows (s.fields.map (·.code)) o.inputs ++ computed))

/-! ## Orders and problems -/

/-- Codes numbered from one. -/
def order (colors : Bool) (codes : List String) : String :=
  if codes.isEmpty then "No computed fields."
  else
    "\n".intercalate (codes.zipIdx.map fun (code, i) =>
      let digits := toString (i + 1)
      let number := String.ofList (List.replicate (2 - digits.length) ' ') ++ digits ++ "."
      (if colors then dimmed number else number) ++ " " ++ code)

/-- Problems one to a line, under a heading. -/
def problems (colors : Bool) (ps : List Problem) : String :=
  let heading := "Schema errors:"
  "\n".intercalate ((if colors then bold (red heading) else heading) :: ps.map fun p => "  - " ++ p.message)

/-- A result as a document. -/
def document (o : Outcome) : Document :=
  .object [
    ("inputs", .object (Document.ofEntries o.inputs.entries)),
    ("outputs", .object (Document.ofEntries o.outputs.entries)),
    ("total", Document.ofScore o.total)]

end Report

end Scoresheet
