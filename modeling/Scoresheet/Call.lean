import Scoresheet.Call.Reduction
import Scoresheet.Panel.Routine
import Scoresheet.Schema.Writing

/-!
# Calls

What each function computes from its arguments.  Texts among the arguments that are expressions are compiled in the
monad of the caller.
-/
namespace Scoresheet

/-- The numbers of an argument: those of a list with all its nested lists, or a single one; null has none. -/
def numbersOf (f : Function) : Value → Result (List Score)
  | .null => .ok []
  | .text s => .error (.type (.numbersExpected f (Value.text s).kind))
  | .map es => .error (.type (.numbersExpected f (Value.map es).kind))
  | v => .ok v.leaves

namespace Arguments

/-- An argument that must be a code. -/
def code (a : Arguments) (parameter : String) : Result String := do
  let v ← a.required parameter
  match v with
  | .text s => return s
  | v => throw (.type (.codeExpected a.function v.kind))

end Arguments

namespace Call

def aggregate (a : Aggregate) (args : Arguments) : Result Value := do
  let v ← args.required "values"
  let numbers ← numbersOf args.function v
  return .number (a.apply numbers)

/-- The execution score of each judge.  Without a parameter map the routine has the default number of elements. -/
def execByJudge (args : Arguments) : Result Value := do
  let matrix ← args.required "matrix"
  let rows ← match matrix with
    | .null => Except.ok []
    | .list rows => Except.ok rows
    | v => Except.error (Error.type (.elementMatrixExpected args.function v.kind))
  let crashes := ((args.get? "crash").map Value.scores).getD []
  let elements := Schema.elements (.ofList (((args.get? "params").bind Value.entries?).getD []))
  return .ofScores (rows.zipIdx.map fun (row, judge) =>
    Routine.execution elements ((crashes[judge]?.map Score.toInt).getD 0) row.scores)

def selectSum (args : Arguments) : Result Value := do
  let scores ← numbersOf args.function ((args.get? "scores").getD .null)
  let count := ((args.int? "n_valid").filter fun k => k != 0).getD 1
  let name ← args.textOr "criteria" "totes"
  let criterion ← (Criterion.ofName name (some count)).mapError .selection
  return .number (Score.sum (criterion.select scores))

def bestN (args : Arguments) : Result Value := do
  let scores ← numbersOf args.function ((args.get? "scores").getD .null)
  return .ofScores ((Criterion.descending id scores).take ((args.int? "n").getD 0).toNat)

/-- The declaration of a field; an unknown code has an empty one. -/
def field (cx : Context) (args : Arguments) : Result Value := do
  let code ← args.code "code"
  return ((cx.schema.field? code).map Field.value).getD (.map [])

def crash (cx : Context) (args : Arguments) : Result Value := do
  let code ← args.code "field_code"
  return .ofScores ((cx.crashes code).map Score.ofInt)

section

variable {m : Type → Type} [Monad m] [MonadExcept Error m]

/-- The value of a call with its arguments bound. -/
def run (compile : Dialect → String → m Expr) (cx : Context) (args : Arguments) : m Value :=
  match args.function with
  | .sum => answer (aggregate .sum args)
  | .avg => answer (aggregate .mean args)
  | .min => answer (aggregate .least args)
  | .max => answer (aggregate .greatest args)
  | .med => answer (aggregate .median args)
  | .float => answer ((args.required "value").map fun v => .number v.toScore)
  | .execByJudge => answer (execByJudge args)
  | .selectSum => answer (selectSum args)
  | .bestN => answer (bestN args)
  | .field => answer (field cx args)
  | .crash => answer (crash cx args)
  | .itemsReduce => itemsReduce compile cx args
  | .rowCompute => customCompute compile cx .rows args
  | .columnCompute => customCompute compile cx .columns args

end

end Call

namespace Context

variable {m : Type → Type} [Monad m] [MonadExcept Error m]

/-- The scope of a context. -/
def scope (compile : Dialect → String → m Expr) (cx : Context) : Scope m where
  lookup := cx.lookup
  call f positional keywords := do
    let args ← answer (Arguments.bind f positional keywords)
    Call.run compile cx args

end Context

end Scoresheet
