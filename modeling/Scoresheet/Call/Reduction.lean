import Scoresheet.Context
import Scoresheet.Formula.Evaluate
import Scoresheet.Panel.Aggregate
import Scoresheet.Panel.Sheet

/-!
# Reductions

A sheet reduced to one number per line or to a single one.  Every cell is first changed by an item expression.  An
inner stage reduces each line, an outer stage the results of all lines; a stage selects, aggregates, and may change the
aggregate once more.

Reading a call's arguments and reducing the sheet are apart: `Reduction.ofArguments` finds what is wrong with the
arguments, in a monad in which texts are compiled, and `Reduction.run` needs only errors.
-/
namespace Scoresheet

namespace Sheet

/-- The rows that a value holds.  An item of it that is no list is a row of one mark. -/
def rowsOf (f : Function) : Value → Result (List (List Score))
  | .null => .ok []
  | .list rows => .ok (rows.map fun row =>
      match row with
      | .list _ => row.scores
      | v => [v.toScore])
  | v => .error (.type (.itemMatrixExpected f v.kind))

/-- The sheet that the source argument of a call means: a matrix as such, or the one under a code. -/
def ofSource (cx : Context) (f : Function) : Value → Result Sheet
  | .text name =>
    if Text.isSafeName name then
      match cx.lookup name with
      | none => .error (.formula (.unknownSource f name))
      | some v => do
        let rows ← rowsOf f v
        let code := cx.canonical name
        let declared := ((cx.schema.field? code).map Field.itemCount).getD 0
        return ⟨rows, if declared = 0 then min (widest rows) maxItems else declared, cx.crashes code⟩
    else .error (.formula (.unsafeSource f name))
  | .list rows => do
    let rows ← rowsOf f (.list rows)
    return ⟨rows, min (widest rows) maxItems, []⟩
  | v => .error (.type (.sourceExpected f v.kind))

end Sheet

/-- Which lines of a sheet are reduced first. -/
inductive Direction where
  | rows
  | columns
deriving DecidableEq

namespace Direction

def function : Direction → Function
  | .rows => .rowCompute
  | .columns => .columnCompute

/-- What the parameters of the inner stage start with. -/
def inner : Direction → String
  | .rows => "row"
  | .columns => "col"

/-- What the parameters of the outer stage start with. -/
def outer : Direction → String
  | .rows => "col"
  | .columns => "row"

/-- The return mode that keeps the lines apart. -/
def perLine : Direction → String
  | .rows => "by_judge"
  | .columns => "by_item"

def lines (d : Direction) (s : Sheet) (w : Window) : List (List Cell) :=
  match d with
  | .rows => s.rowLines w
  | .columns => s.columnLines w

end Direction

/-- Whether a stage looks at changed or at raw marks. -/
inductive Basis where
  | changed
  | raw
deriving DecidableEq

namespace Basis

/-- The basis of a name.  Blanks around the name do not matter. -/
def ofName (parameter name : String) : Except SelectionFault Basis :=
  match Text.trim name with
  | "expr" => .ok .changed
  | "raw" => .ok .raw
  | other => .error (.basis parameter other)

def choose {α : Type} (b : Basis) (changed raw : α) : α :=
  match b with
  | .changed => changed
  | .raw => raw

end Basis

/-- One level of a reduction. -/
structure Stage where
  criterion : Criterion
  aggregate : Aggregate
  /-- What changes the aggregate. -/
  post : Option Expr

namespace Stage

/-- The aggregate of the marks in `counted` at the places that the criterion picks by the marks in `judged`.  Where
nothing is picked, the aggregate stays as it is. -/
def reduce (st : Stage) (judged counted : List Score) : Result Score :=
  let picked := (st.criterion.pick Prod.fst (judged.zip counted)).map Prod.snd
  let aggregate := st.aggregate.apply picked
  match st.post with
  | none => .ok aggregate
  | some e => if picked.isEmpty then .ok aggregate else evaluateNumber e [("m", aggregate)]

end Stage

/-- A mark changed by an item expression, which also sees the position, counted from one. -/
def Cell.changed (e : Expr) (c : Cell) : Result Score :=
  evaluateNumber e [("x", c.mark), ("i", Score.ofNat (c.item + 1))]

namespace Window

/-- The window of a call: `start` and `count`, neither below zero. -/
def ofArguments (args : Arguments) : Window :=
  ⟨((args.int? "start").getD 0).toNat, (args.int? "count").map Int.toNat⟩

end Window

/-- What a call asks for. -/
structure Reduction where
  direction : Direction
  sheet : Sheet
  change : Expr
  judged : Basis
  counted : Basis
  inner : Stage
  outer : Stage
  /-- Whether the lines are kept apart. -/
  apart : Bool
  window : Window

namespace Reduction

/-- One line reduced by the inner stage. -/
def line (r : Reduction) (cells : List Cell) : Result Score := do
  let changed ← cells.mapM (Cell.changed r.change)
  let raw := cells.map Cell.mark
  r.inner.reduce (r.judged.choose changed raw) (r.counted.choose changed raw)

/-- The results of all lines. -/
def lines (r : Reduction) : Result (List Score) := (r.direction.lines r.sheet r.window).mapM r.line

def run (r : Reduction) : Result Value := do
  let results ← r.lines
  if r.apart then return .ofScores results
  else
    let final ← r.outer.reduce results results
    return .number final

end Reduction

/-! ## Reading the arguments -/

section

variable {m : Type → Type} [Monad m] [MonadExcept Error m]

/-- The stage whose parameters start with `level`. -/
def Stage.ofArguments (compile : Dialect → String → m Expr) (args : Arguments) (level : String)
    (fallback : Option Int) (post : String) : m Stage := do
  let select ← answer (args.textOr (level ++ "_select") "all")
  let count := (args.int? (level ++ "_n")).or fallback
  let aggregate ← answer (args.textOr (level ++ "_agg") "sum")
  let change ← match args.get? post with
    | none => pure none
    | some (.text source) => some <$> compile .aggregate source
    | some v => throw (.type (.expressionExpected post v.kind))
  let criterion ← answer ((Criterion.ofName select count).mapError .selection)
  let aggregate ← answer ((Aggregate.ofName aggregate).mapError .selection)
  return ⟨criterion, aggregate, change⟩

/-- The reduction that a call of `row_custom_compute` or `column_custom_compute` asks for. -/
def Reduction.ofArguments (compile : Dialect → String → m Expr) (cx : Context) (d : Direction) (args : Arguments) :
    m Reduction := do
  let source ← answer (args.required "source")
  let sheet ← answer (Sheet.ofSource cx d.function source)
  let item ← answer (args.textOr "item_expr" "x")
  let change ← compile .item item
  let selectOn ← answer (args.textOr "select_on" "expr")
  let judged ← answer ((Basis.ofName "select_on" selectOn).mapError .selection)
  let aggOn ← answer (args.textOr "agg_on" "expr")
  let counted ← answer ((Basis.ofName "agg_on" aggOn).mapError .selection)
  let inner ← Stage.ofArguments compile args d.inner (args.int? "n") "post_agg_expr"
  let outer ← Stage.ofArguments compile args d.outer none "post_final_expr"
  let mode ← answer ((args.textOr "return_mode" "final").map Text.trim)
  if mode != "final" && mode != d.perLine then
    throw (.selection (.returnMode d.function d.perLine mode))
  return ⟨d, sheet, change, judged, counted, inner, outer, mode != "final", Window.ofArguments args⟩

/-- A call of `row_custom_compute` or `column_custom_compute`. -/
def customCompute (compile : Dialect → String → m Expr) (cx : Context) (d : Direction) (args : Arguments) :
    m Value := do
  let r ← Reduction.ofArguments compile cx d args
  answer r.run

/-- A call of `items_reduce`: each judge's changed marks, aggregated. -/
def itemsReduce (compile : Dialect → String → m Expr) (cx : Context) (args : Arguments) : m Value := do
  let source ← answer (args.required "field_code")
  match source with
  | .text _ => pure ()
  | v => throw (.type (.codeExpected .itemsReduce v.kind))
  let sheet ← answer (Sheet.ofSource cx .itemsReduce source)
  let item ← answer (args.textOr "item_expr" "x")
  let change ← compile .item item
  let name ← answer (args.textOr "agg" "sum")
  let aggregate ← answer ((Aggregate.ofName name).mapError .selection)
  let given := Window.ofArguments args
  let window : Window := ⟨given.start, given.count.or ((args.int? "limit_items").map Int.toNat)⟩
  let results ← answer ((sheet.rowLines window).mapM fun cells =>
    return aggregate.apply (← cells.mapM (Cell.changed change)))
  return .ofScores results

end

end Scoresheet
