import Scoresheet.Proofs.Normalizing
import Scoresheet.Proofs.Running
/-!
# Internal keys

Crash positions stand among the inputs under keys of their own.  No formula can write such a key down as a name, and
four functions only look crash positions up.  So two sheets that differ in crash positions alone come to the same where
no formula calls one of the four and none has a short name for such a key (`result_of_avoidsCrashes`).  The second
condition is needed: a short name in the parameters may stand for any key, and a scorer takes it as it is
(`not_result_of_avoidsCrashes`).
-/
namespace Scoresheet

open Plan (target)

/-- The functions that look crash positions up. -/
def Function.readsCrashes (f : Function) : Bool := f.readsSource || f == .crash

namespace Expr

/-- Whether no call in an expression looks crash positions up. -/
def avoidsCrashes (e : Expr) : Bool :=
  e.subterms.all fun t =>
    match t with
    | .call f _ _ => !f.readsCrashes
    | _ => true

/-- Whether no name in an expression stands for a key of crash positions. -/
def namesNoCrashes (aliases : Table String) (e : Expr) : Bool :=
  e.subterms.all fun t =>
    match t with
    | .name n => (crashCode? (target aliases n)).isNone
    | _ => true

theorem readsCrashes_of_avoidsCrashes {e : Expr} (h : e.avoidsCrashes = true) {f : Function} {ps : List Expr}
    {ks : List (String × Expr)} (hcall : .call f ps ks ∈ e.subterms) : f.readsCrashes = false := by
  simpa using List.all_eq_true.1 h _ hcall

theorem crashCode?_of_namesNoCrashes {aliases : Table String} {e : Expr} (h : e.namesNoCrashes aliases = true)
    {n : String} (hn : .name n ∈ e.subterms) : crashCode? (target aliases n) = none := by
  simpa using List.all_eq_true.1 h _ hn

end Expr

/-! ## Contexts that differ in crash positions -/

/-- A call that looks no crash positions up reads nothing but the declarations of fields. -/
theorem Call.run_congr {cx cx' : Context} (hschema : cx.schema = cx'.schema) {args : Arguments}
    (h : args.function.readsCrashes = false) :
    (Call.run Dialect.compile cx args : Result Value) = Call.run Dialect.compile cx' args := by
  obtain ⟨f, slots⟩ := args
  cases f with
  | crash | itemsReduce | rowCompute | columnCompute => cases h
  | field => simp only [Call.run, Call.field, hschema]
  | sum | avg | min | max | med | float | execByJudge | selectSum | bestN => rfl

namespace Context

/-- Two contexts that differ in nothing but inputs under the keys of crash positions. -/
structure AlikeButCrashes (cx cx' : Context) : Prop where
  schema : cx.schema = cx'.schema
  aliases : cx.aliases = cx'.aliases
  outputs : cx.outputs = cx'.outputs
  inputs : ∀ k, crashCode? k = none → cx.inputs.get? k = cx'.inputs.get? k

namespace AlikeButCrashes

variable {cx cx' : Context}

theorem store (h : cx.AlikeButCrashes cx') (code : String) (v : Value) :
    (cx.store code v).AlikeButCrashes (cx'.store code v) := by
  refine ⟨h.schema, h.aliases, ?_, h.inputs⟩
  show cx.outputs.insert code v = cx'.outputs.insert code v
  rw [h.outputs]

theorem base?_eq (h : cx.AlikeButCrashes cx') {k : String} (hk : crashCode? k = none) :
    base? cx.schema cx.inputs k = base? cx'.schema cx'.inputs k := by
  rw [base?, base?, h.schema, h.inputs k hk]

theorem lookup_eq (h : cx.AlikeButCrashes cx') (ht : cx.Tracks) (ht' : cx'.Tracks) {name : String}
    (hname : crashCode? name = none) (htarget : crashCode? (target cx.aliases name) = none) :
    cx.lookup name = cx'.lookup name := by
  have hshort : (cx.aliases.get? name).bind cx.meaning = (cx'.aliases.get? name).bind cx'.meaning := by
    rw [target] at htarget
    rw [← h.aliases]
    cases ha : cx.aliases.get? name with
    | none => rfl
    | some code =>
      rw [ha, Option.getD_some] at htarget
      rw [Option.bind_some, Option.bind_some, meaning, meaning, h.outputs, h.base?_eq htarget]
  rw [lookup, lookup, ht name, ht' name, hshort, h.outputs, h.base?_eq hname]

/-- **A formula that reaches no crash positions comes to the same**, value or error. -/
theorem value_eq (h : cx.AlikeButCrashes cx') (ht : cx.Tracks) (ht' : cx'.Tracks) {e : Expr}
    (hsafe : ∀ name, .name name ∈ e.subterms → Text.isSafeName name = true) (hcalls : e.avoidsCrashes = true)
    (hnames : e.namesNoCrashes cx.aliases = true) : cx.value e = cx'.value e := by
  refine (Comparison.evaluate_compare e (C := agreement False) ⟨fun name hname => ?_, ?_⟩).eq
  · have hlookup := h.lookup_eq ht ht' (crashCode?_eq_none_of_isSafeName (hsafe name hname))
      (Expr.crashCode?_of_namesNoCrashes hnames hname)
    show Agree False (cx.value (.name name)) (cx'.value (.name name))
    rw [value_name, value_name, hlookup]
    exact .refl _ _
  · intro f ps ks vs kvs hcall _ _
    refine Agree.bind (.refl _ _) fun args hargs => .inl (Call.run_congr h.schema ?_)
    rw [answer_eq] at hargs
    rw [(Arguments.bind_eq_ok hargs).1]
    exact Expr.readsCrashes_of_avoidsCrashes hcalls hcall

end AlikeButCrashes
end Context

/-! ## Two runs -/

namespace Scorer

/-- A formula that reaches crash positions neither by a call nor by a name. -/
structure Avoids (aliases : Table String) (node : Node) : Prop where
  safe : ∀ name, .name name ∈ node.expr.subterms → Text.isSafeName name = true
  calls : node.expr.avoidsCrashes = true
  names : node.expr.namesNoCrashes aliases = true

theorem outputs_foldlM_eq : ∀ {nodes : List Node} {cx cx' : Context}, cx.AlikeButCrashes cx' → cx.Tracks →
    cx'.Tracks → (∀ node ∈ nodes, Avoids cx.aliases node) →
      (nodes.foldlM (advance Dialect.compile) cx : Result Context).map Context.outputs =
        (nodes.foldlM (advance Dialect.compile) cx' : Result Context).map Context.outputs
  | [], cx, cx', h, _, _, _ => congrArg Except.ok h.outputs
  | node :: nodes, cx, cx', h, ht, ht', hnodes => by
    obtain ⟨hnode, hrest⟩ := List.forall_mem_cons.1 hnodes
    have hvalue := h.value_eq ht ht' hnode.safe hnode.calls hnode.names
    rw [List.foldlM_cons, List.foldlM_cons, advance, advance, ← Context.value, ← Context.value, ← hvalue]
    cases cx.value node.expr with
    | error e => rfl
    | ok v =>
      exact outputs_foldlM_eq (h.store node.code v) (Context.tracks_store ht _ _) (Context.tracks_store ht' _ _) hrest

variable {s : Schema} {sc : Scorer} {raw raw' : Table Value}

/-- What a sheet comes to, its inputs apart. -/
def result (sc : Scorer) (raw : Table Value) : Result (Table Value × Score) :=
  (sc.score raw).map fun o => (o.outputs, o.total)

theorem result_eq (sc : Scorer) (raw : Table Value) :
    sc.result raw = ((sc.run Dialect.compile (sc.normalize raw) : Result Context).map Context.outputs).map
      fun outputs => (outputs, total outputs) := by
  rw [result, score, scoreWith]
  cases hrun : (sc.run Dialect.compile (sc.normalize raw) : Result Context) <;> rfl

/-- **Sheets that differ in crash positions come to the same** where no formula calls a function that looks them up and
no name in a formula stands for the key of some. -/
theorem result_of_avoidsCrashes (h : ofSchema s = .ok sc)
    (hcalls : ∀ node ∈ sc.plan, node.expr.avoidsCrashes = true)
    (hnames : ∀ node ∈ sc.plan, node.expr.namesNoCrashes s.aliases = true)
    (hraw : ∀ k, crashCode? k = none → raw.get? k = raw'.get? k) : sc.result raw = sc.result raw' := by
  have halike : (sc.begin (sc.normalize raw)).AlikeButCrashes (sc.begin (sc.normalize raw')) :=
    ⟨rfl, rfl, rfl, fun k hk => get?_normalize_congr hraw _ hk⟩
  rw [result_eq, result_eq, run, run]
  refine congrArg _ (outputs_foldlM_eq halike (Context.tracks_start _ _ _) (Context.tracks_start _ _ _) ?_)
  intro node hnode
  refine ⟨fun name => isSafeName_of_mem_plan h hnode, hcalls node hnode, ?_⟩
  show node.expr.namesNoCrashes sc.aliases = true
  rw [aliases_of_ofSchema h]
  exact hnames node hnode

/-- A matrix of one judge and one item that tracks crashes, a short name in the parameters, and one formula. -/
def crashing (short code formula : String) : Schema where
  params := .ofList [("aliases", .map [(short, .text code)])]
  fields := [⟨"E", none, some "matrix", some "judge_x_item", none, none, none, none, some ⟨some 1⟩, some true, none,
    .empty⟩]
  computed := [⟨"TOTAL", none, some formula, none, .empty⟩]
  ui := none

/-- A sheet for that matrix. -/
def crashed (position : Nat) : Table Value :=
  .ofList [("E", .list [.list [.number 1]]), ("__crash__E", .list [.number (.ofNat position)])]

theorem get?_crashed (m n : Nat) {k : String} (hk : crashCode? k = none) : (crashed m).get? k = (crashed n).get? k := by
  have hne : k ≠ "__crash__E" := by
    rintro rfl
    have hsome : crashCode? "__crash__E" = some "E" := by decide +kernel
    rw [hsome] at hk
    cases hk
  simp only [crashed, Table.ofList, List.foldl_cons, List.foldl_nil, Table.get?_insert, if_neg hne]

theorem result_of_avoidsCrashes_matrix : ∃ s sc, ∃ raw raw' : Table Value, ofSchema s = .ok sc ∧
    (∀ node ∈ sc.plan, node.expr.avoidsCrashes = true) ∧
    (∀ node ∈ sc.plan, node.expr.namesNoCrashes s.aliases = true) ∧
    (∀ k, crashCode? k = none → raw.get? k = raw'.get? k) ∧ (sc.result raw).isOk = true ∧
      sc.result raw = sc.result raw' := by
  let s := crashing "e" "E" "sum(e) + sum(E)"
  have hok : (ofSchema s >>= fun sc => sc.result (crashed 0)).isOk = true := by decide +kernel
  have hcalls : ∀ c ∈ s.computed, ∀ text ∈ c.formulaText, ((Dialect.formula.compile text).map fun e =>
      e.avoidsCrashes).toOption = some true := by decide +kernel
  have hnames : ∀ c ∈ s.computed, ∀ text ∈ c.formulaText, ((Dialect.formula.compile text).map fun e =>
      e.namesNoCrashes s.aliases).toOption = some true := by decide +kernel
  obtain ⟨r, hr⟩ := exists_ok hok
  obtain ⟨sc, h, hresult⟩ := bind_eq_ok_iff.1 hr
  have hcalls := forall_mem_plan h (fun node => node.expr.avoidsCrashes) hcalls
  have hnames := forall_mem_plan h (fun node => node.expr.namesNoCrashes s.aliases) hnames
  have hraw : ∀ k, crashCode? k = none → (crashed 0).get? k = (crashed 1).get? k := fun k => get?_crashed 0 1
  exact ⟨s, sc, crashed 0, crashed 1, h, hcalls, hnames, hraw, by rw [hresult]; rfl,
    result_of_avoidsCrashes h hcalls hnames hraw⟩

/-- **A short name for the key of crash positions lets a formula see them**, without any call that looks them up. -/
theorem not_result_of_avoidsCrashes : ¬ ∀ (s : Schema) (sc : Scorer) (raw raw' : Table Value), ofSchema s = .ok sc →
    (∀ node ∈ sc.plan, node.expr.avoidsCrashes = true) → (∀ k, crashCode? k = none → raw.get? k = raw'.get? k) →
      sc.result raw = sc.result raw' := by
  intro hall
  let s := crashing "k" "__crash__E" "sum(k)"
  let total (n : Nat) : Option Score := ((ofSchema s >>= fun sc => sc.result (crashed n)).map Prod.snd).toOption
  have hcalls : ∀ c ∈ s.computed, ∀ text ∈ c.formulaText, ((Dialect.formula.compile text).map fun e =>
      e.avoidsCrashes).toOption = some true := by decide +kernel
  have hne : total 0 ≠ total 1 := by decide +kernel
  have hok : (ofSchema s).isOk = true := by decide +kernel
  obtain ⟨sc, h⟩ := exists_ok hok
  have hcalls := forall_mem_plan h (fun node => node.expr.avoidsCrashes) hcalls
  have heq := hall s sc (crashed 0) (crashed 1) h hcalls fun k => get?_crashed 0 1
  refine hne ?_
  simp only [total, h]
  exact congrArg (fun r => (Except.map Prod.snd r).toOption) heq

end Scorer
end Scoresheet
