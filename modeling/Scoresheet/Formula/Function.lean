/-!
# Functions

The closed set of functions that a formula may call, with the names of their parameters in positional order.
-/
namespace Scoresheet

inductive Function where
  | sum | avg | min | max | med
  | float
  | execByJudge
  | selectSum
  | bestN
  | field
  | crash
  | itemsReduce
  | rowCompute
  | columnCompute
deriving DecidableEq

namespace Function

def all : List Function :=
  [.sum, .avg, .min, .max, .med, .float, .execByJudge, .selectSum, .bestN, .field, .crash, .itemsReduce, .rowCompute,
   .columnCompute]

def name : Function → String
  | .sum => "sum"
  | .avg => "avg"
  | .min => "min"
  | .max => "max"
  | .med => "med"
  | .float => "float"
  | .execByJudge => "exec_by_judge"
  | .selectSum => "select_sum"
  | .bestN => "best_n"
  | .field => "field"
  | .crash => "crash"
  | .itemsReduce => "items_reduce"
  | .rowCompute => "row_custom_compute"
  | .columnCompute => "column_custom_compute"

/-- The function of a name. -/
def ofName? (s : String) : Option Function := all.find? fun f => f.name == s

/-- The functions whose first argument may be the code of an entry. -/
def readsSource : Function → Bool
  | .itemsReduce | .rowCompute | .columnCompute => true
  | _ => false

def reductionParameters : List String :=
  ["source", "item_expr", "row_select", "row_n", "row_agg", "col_select", "col_n", "col_agg", "n", "select_on",
   "agg_on", "post_agg_expr", "post_final_expr", "start", "count", "return_mode"]

/-- The names of the parameters, in positional order. -/
def parameters : Function → List String
  | .sum | .avg | .min | .max | .med => ["values"]
  | .float => ["value"]
  | .execByJudge => ["matrix", "crash", "params"]
  | .selectSum => ["scores", "n_valid", "criteria"]
  | .bestN => ["scores", "n"]
  | .field => ["code"]
  | .crash => ["field_code"]
  | .itemsReduce => ["field_code", "item_expr", "agg", "limit_items", "start", "count"]
  | .rowCompute | .columnCompute => reductionParameters

theorem ofName?_name (f : Function) : ofName? f.name = some f := by
  cases f <;> decide

theorem name_of_ofName? {s : String} {f : Function} (h : ofName? s = some f) : f.name = s := by
  simpa using List.find?_some h

theorem parameters_nodup (f : Function) : f.parameters.Nodup := by
  cases f <;> decide

end Function

/-- The names that no entry and no alias may take: the parameter map and the functions. -/
def isReserved (s : String) : Bool := s == "params" || (Function.ofName? s).isSome

end Scoresheet
