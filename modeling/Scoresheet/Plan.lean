import Scoresheet.Error
import Scoresheet.Formula.Expr
import Scoresheet.Table

/-!
# Plans

The order in which computed entries are evaluated: each one after all that it depends on.  An entry depends on another
one when it reads the other's code or a short name for it; what an entry reads of itself does not count.

Entries are placed one at a time.  Each entry that is not placed counts the entries it still waits for; once it waits
for none it joins the queue, and the queue is placed from the front.  Entries that never join wait for each other.
-/
namespace Scoresheet

/-- A computed entry to be placed: its code and its formula. -/
structure Node where
  code : String
  expr : Expr

namespace Plan

/-- The node that a code belongs to; of several the last. -/
def owner? (nodes : List Node) (code : String) : Option Nat :=
  (nodes.zipIdx.reverse.find? fun n => n.1.code == code).map (·.2)

/-- The nodes that node `i` depends on, each once and in increasing order. -/
def dependencies (nodes : List Node) (aliases : Table String) (i : Nat) : List Nat :=
  match nodes[i]? with
  | none => []
  | some node =>
    let read := node.expr.reads.filterMap fun name => owner? nodes ((aliases.get? name).getD name)
    (List.range nodes.length).filter fun j => j != i && read.contains j

/-- The dependencies of all nodes. -/
def graph (nodes : List Node) (aliases : Table String) : List (List Nat) :=
  (List.range nodes.length).map (dependencies nodes aliases)

/-- The nodes that depend on node `j`, in increasing order. -/
def dependents (g : List (List Nat)) (j : Nat) : List Nat :=
  (List.range g.length).filter fun i => (g[i]?.getD []).contains j

/-- How far the placing has come. -/
structure Progress where
  /-- For each node, how many nodes it still waits for. -/
  waiting : List Int
  /-- The nodes that wait for none and are not placed. -/
  queue : List Nat
  placed : List Nat
deriving DecidableEq

/-- The positions of the zeros, in increasing order. -/
def ready (waiting : List Int) : List Nat :=
  (waiting.zipIdx.filter fun w => w.1 == 0).map (·.2)

def start (g : List (List Nat)) : Progress :=
  let waiting := g.map fun deps => (deps.length : Int)
  ⟨waiting, ready waiting, []⟩

/-- A node waits for one node less. -/
def release (p : Progress) (i : Nat) : Progress :=
  let waiting := p.waiting.modify i (· - 1)
  ⟨waiting, if waiting[i]? = some 0 then p.queue ++ [i] else p.queue, p.placed⟩

/-- The first node of the queue placed, and its dependents released. -/
def step (g : List (List Nat)) (p : Progress) : Progress :=
  match p.queue with
  | [] => p
  | i :: rest => (dependents g i).foldl release ⟨p.waiting, rest, p.placed ++ [i]⟩

/-- The placing after a number of steps. -/
def after (g : List (List Nat)) : Nat → Progress
  | 0 => start g
  | n + 1 => step g (after g n)

/-- The nodes in the order in which they are evaluated.  A step places a node, so there are no more steps to take than
there are nodes. -/
def order (nodes : List Node) (aliases : Table String) : Result (List Nat) :=
  let p := after (graph nodes aliases) nodes.length
  if p.placed.length < nodes.length then
    .error (.cycle ((nodes.zip p.waiting).filterMap fun n => if 0 < n.2 then some n.1.code else none))
  else .ok p.placed

end Plan

end Scoresheet
