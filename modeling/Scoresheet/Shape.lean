import Scoresheet.Formula.Expr
import Scoresheet.Schema

/-!
# Shapes

Every value is seen as a matrix of rows and columns: a number has one of each, the marks of a panel have a row per
judge, a matrix a row per judge and a column per item.  What is not known about a shape agrees with everything.
`Shapes.infer` finds the shape of a formula, and what in it cannot fit, without any inputs.
-/
namespace Scoresheet

/-- Rows and columns, where they are known. -/
structure Shape where
  rows : Option Nat
  columns : Option Nat
deriving DecidableEq

namespace Shape

def scalar : Shape := ⟨some 1, some 1⟩

def unknown : Shape := ⟨none, none⟩

/-- One column. -/
def column (rows : Option Nat) : Shape := ⟨rows, some 1⟩

/-- Known to be more or less than a single number. -/
def isNotScalar (s : Shape) : Bool :=
  (s.rows.any fun r => r != 1) || s.columns.any fun c => c != 1

/-- Two dimensions that may be the same. -/
def agree (a b : Option Nat) : Bool :=
  match a, b with
  | some m, some n => m == n
  | _, _ => true

def compatible (s t : Shape) : Bool := agree s.rows t.rows && agree s.columns t.columns

/-- What is known of either, the first one counting where both are known. -/
def merge (s t : Shape) : Shape := ⟨s.rows.or t.rows, s.columns.or t.columns⟩

/-- The shape of a field's input.  A matrix without a number of items is as wide as its widest row. -/
def ofField (f : Field) : Shape :=
  match f.layout with
  | .scalar => scalar
  | .judgeVector => column (some f.judgeCount)
  | .matrix => ⟨some f.judgeCount, if f.itemCount = 0 then none else some f.itemCount⟩
  | .passthrough => unknown

def dimensionText : Option Nat → String
  | none => "?"
  | some n => toString n

def text (s : Shape) : String := dimensionText s.rows ++ "x" ++ dimensionText s.columns

end Shape

/-- What does not fit. -/
inductive ShapeFault where
  | incompatible (op : BinaryOp) (left right : Shape)
  | operands (op : BinaryOp) (left right : Shape)
  | argument (f : Function) (parameter : String) (given : Shape)
  | judgeCounts (matrix crash : Shape)
  | crashColumn (crash : Shape)
deriving DecidableEq

def ShapeFault.message : ShapeFault → String
  | .incompatible op l r => s!"'{op.text}' on incompatible shapes {l.text} and {r.text}"
  | .operands op l r => s!"'{op.text}' needs 1x1 operands, got {l.text} and {r.text}"
  | .argument f parameter given => s!"{f.name}(): '{parameter}' must be 1x1, got {given.text}"
  | .judgeCounts m c => s!"exec_by_judge(): judge counts differ, matrix {m.text} vs crash {c.text}"
  | .crashColumn c => s!"exec_by_judge(): crash must be Jx1, got {c.text}"

/-- The shapes of all names a formula can see. -/
structure Shapes where
  schema : Schema
  aliases : Table String
  known : Table Shape

/-- An argument of a call: its parameter, its expression and its shape. -/
abbrev Given := List (String × Expr × Shape)

namespace Given

/-- The last argument for a parameter. -/
def find? (g : Given) (parameter : String) : Option (Expr × Shape) :=
  (g.reverse.find? fun a => a.1 == parameter).map (·.2)

def shape? (g : Given) (parameter : String) : Option Shape := (g.find? parameter).map (·.2)

/-- The text of an argument that is one in the formula itself. -/
def text? (g : Given) (parameter : String) : Option String :=
  match g.find? parameter with
  | some (.literal (.text s), _) => some s
  | _ => none

/-- An argument, where it is given, must be a single number. -/
def needScalar (g : Given) (f : Function) (parameter : String) : Except ShapeFault Unit :=
  match g.shape? parameter with
  | none => .ok ()
  | some s => if s.isNotScalar then .error (.argument f parameter s) else .ok ()

end Given

namespace Shapes

/-- The shapes before any computed entry is known: those of the fields, the parameters, and their short names. -/
def start (schema : Schema) (aliases : Table String) : Shapes where
  schema
  aliases
  known :=
    let fields := (schema.fields.filter fun f => !f.code.isEmpty).map fun f => (f.code, Shape.ofField f)
    let own := (Table.ofList fields).insert "params" Shape.scalar
    aliases.entries.foldl (fun t a =>
      match t.get? a.2 with
      | some shape => t.insert a.1 shape
      | none => t) own

/-- The shapes once a computed entry is known. -/
def store (s : Shapes) (code : String) (shape : Shape) : Shapes :=
  { s with
    known := (s.aliases.entries.foldl (fun t a => if a.2 = code then t.insert a.1 shape else t) s.known).insert
      code shape }

/-- The field that a name stands for. -/
def field? (s : Shapes) (name : String) : Option Field := s.schema.field? ((s.aliases.get? name).getD name)

/-- The rows of what a name stands for. -/
def rows? (s : Shapes) (name : String) : Option Nat := (s.known.get? name).bind Shape.rows

/-- The shape of what a function returns. -/
def ofCall (s : Shapes) (f : Function) (given : Given) : Except ShapeFault Shape :=
  match f with
  | .sum | .avg | .min | .max | .med => .ok .scalar
  | .float => do
    given.needScalar f "value"
    return .scalar
  | .execByJudge =>
    let matrix := (given.shape? "matrix").getD .unknown
    let crash := (given.shape? "crash").getD .unknown
    if !Shape.agree matrix.rows crash.rows then .error (.judgeCounts matrix crash)
    else if crash.columns.any fun c => c != 1 then .error (.crashColumn crash)
    else .ok (.column matrix.rows)
  | .selectSum => do
    given.needScalar f "n_valid"
    given.needScalar f "criteria"
    return .scalar
  | .bestN => do
    given.needScalar f "n"
    return .column none
  | .field => do
    given.needScalar f "code"
    return .unknown
  | .crash => do
    given.needScalar f "field_code"
    let field := (given.text? "field_code").bind s.field?
    return .column ((field.filter Field.tracksCrash).map Field.judgeCount)
  | .itemsReduce => .ok (.column ((given.text? "field_code").bind s.rows?))
  | .rowCompute | .columnCompute =>
    let source := given.text? "source"
    match given.find? "return_mode", (given.text? "return_mode").map Text.trim with
    | none, _ => .ok .scalar
    | _, some "final" => .ok .scalar
    | _, some "by_judge" => .ok (.column (source.bind s.rows?))
    | _, some "by_item" =>
      .ok (.column (((source.bind s.field?).map Field.itemCount).filter fun n => n != 0))
    | _, _ => .ok .unknown

mutual

/-- The shape of a formula, or the first thing in it that does not fit. -/
def infer (s : Shapes) : Expr → Except ShapeFault Shape
  | .literal _ => .ok .scalar
  | .name n => .ok ((s.known.get? n).getD .unknown)
  | .unary _ e => infer s e
  | .binary op l r => do
    let a ← infer s l
    let b ← infer s r
    match op with
    | .add | .sub => if a.compatible b then return a.merge b else throw (.incompatible op a b)
    | _ => if a.isNotScalar || b.isNotScalar then throw (.operands op a b) else return .scalar
  | .call f ps ks => do
    let positional ← inferPositional s f.parameters ps
    let keywords ← inferKeywords s ks
    s.ofCall f (positional ++ keywords)
  | .subscript base index => do
    let b ← infer s base
    let _ ← infer s index
    match index with
    | .literal (.text _) => return .scalar
    | _ => if b.rows = some 1 then return .scalar else return ⟨some 1, b.columns⟩
  | .list es => do
    let shapes ← inferAll s es
    return ⟨some es.length, if shapes.all (· == .scalar) then some 1 else none⟩
  | .tuple es => do
    let shapes ← inferAll s es
    return ⟨some es.length, if shapes.all (· == .scalar) then some 1 else none⟩
  | .dict es => do
    inferEntries s es
    return .unknown

def inferAll (s : Shapes) : List Expr → Except ShapeFault (List Shape)
  | [] => .ok []
  | e :: es => do
    let shape ← infer s e
    let rest ← inferAll s es
    return shape :: rest

/-- The positional arguments, as many as there are parameters. -/
def inferPositional (s : Shapes) (parameters : List String) : List Expr → Except ShapeFault Given
  | [] => .ok []
  | e :: es =>
    match parameters with
    | [] => .ok []
    | p :: ps => do
      let shape ← infer s e
      let rest ← inferPositional s ps es
      return (p, e, shape) :: rest

def inferKeywords (s : Shapes) : List (String × Expr) → Except ShapeFault Given
  | [] => .ok []
  | (k, e) :: ks => do
    let shape ← infer s e
    let rest ← inferKeywords s ks
    return (k, e, shape) :: rest

def inferEntries (s : Shapes) : List (Expr × Expr) → Except ShapeFault Unit
  | [] => .ok ()
  | (k, v) :: es => do
    let _ ← infer s k
    let _ ← infer s v
    inferEntries s es

end

end Shapes

end Scoresheet
