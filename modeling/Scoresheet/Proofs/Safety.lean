import Scoresheet.Scorer
import Scoresheet.Schema.Reading
import Scoresheet.Proofs.Guarding
import Scoresheet.Proofs.Placing
import Scoresheet.Proofs.Ranges
import Scoresheet.Proofs.Releasing
/-!
# Scoring stays in range

From a document and raw inputs of any kind, a schema is read, compiled and its sheet scored: what comes of it is an
outcome or an error, and on the way every index lies in its list, every cut in what it cuts, every lower bound is at
most its upper bound, and no count goes below zero (`Guarded.stays_compute`).  Compiling a formula is not among what is
guarded.
-/
namespace Scoresheet
namespace Guarded

def ofSchema (s : Schema) : Guarded Scorer :=
  match Schema.codeFault? [] s.codes with
  | some fault => throw (.schema fault)
  | none => do
    let nodes ← answer (Schema.formulas s.computed)
    let places ← order nodes s.aliases
    let plan ← within (readAll nodes places)
    return ⟨s, s.aliases, plan⟩

def advance (cx : Context) (node : Node) : Guarded Context := do
  let v ← tryCatch (evaluate (scope cx) node.expr) fun e => throw (.computed node.code e)
  return cx.store node.code v

def score (s : Scorer) (raw : Table Value) : Guarded Outcome := do
  let inputs ← within (normalize s.schema.fields raw)
  let cx ← s.plan.foldlM advance (Context.start s.schema inputs s.aliases)
  return ⟨inputs, cx.outputs, Scorer.total cx.outputs⟩

/-- What comes of raw inputs under the schema that a document is. -/
def compute (document : Value) (raw : Table Value) : Guarded Outcome := do
  let schema ← answer ((Schema.ofValue document).mapError Error.schema)
  let scorer ← ofSchema schema
  score scorer raw

theorem readAll_nodes {nodes : List Node} {places : List Nat} (h : ∀ i ∈ places, i < nodes.length) :
    readAll nodes places = some (places.filterMap fun i => nodes[i]?) := by
  induction places with
  | nil => rfl
  | cons i places ih =>
    obtain ⟨hi, hplaces⟩ := List.forall_mem_cons.1 h
    have hnode := List.getElem?_eq_getElem hi
    have hrest := ih hplaces
    rw [readAll] at hrest ⊢
    rw [List.mapM_cons, hrest, List.filterMap_cons, hnode]
    rfl

/-- **A schema is compiled in range**: an order has no place that is not a node's. -/
theorem stays_ofSchema (s : Schema) : Stays (ofSchema s) (Scorer.ofSchema s) := by
  unfold ofSchema Scorer.ofSchema
  cases Schema.codeFault? [] s.codes with
  | some fault => exact stays_throw _
  | none =>
    refine (stays_answer _).bind fun nodes _ => (stays_order nodes s.aliases).bind fun places hplaces => ?_
    have hlt : ∀ i ∈ places, i < nodes.length := fun i hi => List.mem_range.1 ((Plan.order_perm hplaces).mem_iff.1 hi)
    exact (stays_within (readAll_nodes hlt)).bind_ok (stays_pure _)

theorem stays_advance (cx : Context) (node : Node) :
    Stays (advance cx node) (Scorer.advance Dialect.compile cx node) :=
  ((stays_value cx node.expr).tryCatch (.computed node.code)).bind fun _ _ => stays_pure _

/-- **A sheet is scored in range, whatever its raw inputs are.** -/
theorem stays_score (s : Scorer) (raw : Table Value) : Stays (score s raw) (s.score raw) := by
  refine (stays_within (normalize_eq s.schema.fields raw)).bind_ok ?_
  exact (Stays.foldlM stays_advance s.plan _).bind fun cx _ => stays_pure _

/-- **No operation is ever out of its range**: from every document and all raw inputs, reading, compiling and scoring
come to an outcome or to an error, the same as without guards. -/
theorem stays_compute (document : Value) (raw : Table Value) :
    Stays (compute document raw) (do
      let schema ← (Schema.ofValue document).mapError Error.schema
      let scorer ← Scorer.ofSchema schema
      scorer.score raw) :=
  (stays_answer _).bind fun schema _ => (stays_ofSchema schema).bind fun scorer _ => stays_score scorer raw

end Guarded
end Scoresheet
