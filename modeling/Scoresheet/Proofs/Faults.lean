import Scoresheet.Proofs.Calling
import Scoresheet.Proofs.Linting
import Scoresheet.Proofs.Naming
/-!
# What can go wrong with a clean schema

The linter looks at the names that formulas read and not at the arguments of calls.  Where a formula's calls are in
order too (`Context.InOrder`) all that is left to go wrong are the values: every name means something when the formula
is evaluated, every call binds, and every expression within a call compiles.  What the linter does let through is
shown by `looseEnds`.
-/
namespace Scoresheet

open Plan (target)

/-! ## Formulas in order -/

/-- What the linter does not look at is in order in a formula: it reads no function's name and not its own code, its
calls bind and have what they require, their sources are texts that may be named, and the expressions that they are
given compile. -/
structure Context.InOrder (cx : Context) (node : Node) : Prop where
  name : ∀ name ∈ node.expr.reads, Function.ofName? name = none ∧ target cx.aliases name ≠ node.code
  accepts : ∀ f ps ks, .call f ps ks ∈ node.expr.subterms → f.Accepts ps.length (ks.map Prod.fst) ∧
    ∀ p ∈ f.required, p ∈ f.parameters.take ps.length ∨ p ∈ ks.map Prod.fst
  source : ∀ f ps ks src, .call f ps ks ∈ node.expr.subterms → f.readsSource = true →
    Expr.sourceArgument? ps ks = some src →
      (∃ code, src = .literal (.text code) ∧ Text.isSafeName code = true) ∨
        ∀ text, cx.value src = .ok (.text text) → Text.isSafeName text = true ∧ (cx.lookup text).isSome = true
  compiles : ∀ f ps ks, .call f ps ks ∈ node.expr.subterms → ∀ p ∈ expressionParameters, ∀ e,
    Expr.argument? f ps ks p.1 = some e → ∀ text, cx.value e = .ok (.text text) → (p.2.compile text).isOk = true

/-- **A formula in order blames only values** where all that it reads means something. -/
theorem Context.InOrder.clean_value {cx : Context} {node : Node} (h : cx.InOrder node)
    (hmeans : ∀ name ∈ node.expr.reads, (cx.lookup name).isSome = true) : Clean (cx.value node.expr) := by
  refine clean_evaluate (fun n hn => hmeans n (Expr.name_mem_reads hn)) fun f ps ks vs kvs hcall hps hks => ?_
  obtain ⟨haccepts, hrequired⟩ := h.accepts f ps ks hcall
  rw [← length_evaluateAll hps, ← keys_evaluateKeywords hks] at haccepts hrequired
  obtain ⟨args, hargs⟩ := exists_ok ((Arguments.bind_isOk_iff f vs kvs).2 haccepts)
  show Clean (answer (Arguments.bind f vs kvs) >>= Call.run Dialect.compile cx)
  rw [answer_eq, hargs]
  obtain rfl := (Arguments.bind_eq_ok hargs).1
  refine Arguments.Sound.clean_run ⟨fun p hp => given?_isSome hargs (hrequired p hp), fun hf name hname => ?_,
    fun p hp text htext => ?_⟩
  · obtain ⟨src, hsrc, hval⟩ := source_given hf hps hks hargs (Arguments.required_eq_ok_iff.2 hname)
    rcases h.source _ ps ks src hcall hf hsrc with ⟨code, rfl, hsafe⟩ | htext
    · rw [evaluate] at hval
      cases hval
      exact ⟨hsafe, hmeans name (Expr.source_mem_reads hcall hf hsrc)⟩
    · exact htext name hval
  · obtain ⟨e, he, hval⟩ := argument_given hps hks hargs htext
    exact h.compiles _ ps ks hcall p hp e he text hval

/-- Whether a call binds, has what it requires, and has its source and its expressions written down as texts that are
in order. -/
def Expr.isCallInOrder : Expr → Bool
  | .call f ps ks =>
    decide (f.Accepts ps.length (ks.map Prod.fst)) &&
      (f.required.all fun p => (f.parameters.take ps.length).contains p || (ks.map Prod.fst).contains p) &&
      (!f.readsSource ||
        match sourceArgument? ps ks with
        | none => true
        | some (.literal (.text code)) => Text.isSafeName code
        | some _ => false) &&
      expressionParameters.all fun p =>
        match argument? f ps ks p.1 with
        | none => true
        | some (.literal (.text text)) => (p.2.compile text).isOk
        | some _ => false
  | _ => true

/-- Whether a formula is in order, as far as that can be seen without evaluating it. -/
def Node.isInOrder (aliases : Table String) (node : Node) : Bool :=
  (node.expr.reads.all fun name => (Function.ofName? name).isNone && target aliases name != node.code) &&
    node.expr.subterms.all Expr.isCallInOrder

theorem Context.inOrder_of_isInOrder {cx : Context} {node : Node} (h : node.isInOrder cx.aliases = true) :
    cx.InOrder node := by
  rw [Node.isInOrder, Bool.and_eq_true, List.all_eq_true, List.all_eq_true] at h
  obtain ⟨hreads, hcalls⟩ := h
  have hcall : ∀ f ps ks, .call f ps ks ∈ node.expr.subterms → Expr.isCallInOrder (.call f ps ks) = true :=
    fun f ps ks hmem => hcalls _ hmem
  simp only [Expr.isCallInOrder, Bool.and_eq_true, decide_eq_true_eq, List.all_eq_true, Bool.or_eq_true,
    List.contains_iff_mem, Bool.not_eq_true'] at hcall
  refine ⟨fun name hname => ?_, fun f ps ks hmem => (hcall f ps ks hmem).1.1, fun f ps ks src hmem hf hsrc => .inl ?_,
    fun f ps ks hmem p hp e he text htext => ?_⟩
  · have hname := hreads name hname
    rwa [Bool.and_eq_true, Option.isNone_iff_eq_none, bne_iff_ne] at hname
  · have hsource := (hcall f ps ks hmem).1.2
    rw [hf, hsrc] at hsource
    rcases hsource with hsource | hsource
    · cases hsource
    · split at hsource
      · rename_i hnone
        cases hnone
      · rename_i code hcode
        cases hcode
        exact ⟨code, rfl, hsource⟩
      · cases hsource
  · have hexpr := (hcall f ps ks hmem).2 p hp
    rw [he] at hexpr
    split at hexpr
    · rename_i hnone
      cases hnone
    · rename_i text' hliteral
      cases hliteral
      rw [Context.value, evaluate] at htext
      cases htext
      exact hexpr
    · cases hexpr

/-! ## Clean schemas -/

namespace Schema.Fit

variable {s : Schema} {nodes : List Node} {sc : Scorer} {raw : Table Value} {cx : Context} {node : Node}

/-- A declared name stands for a code or the parameters, unless it is a function's name. -/
theorem target_of_isDeclared (hfit : s.Fit nodes) {name : String} (h : Lint.isDeclared s name = true)
    (hfunction : Function.ofName? name = none) :
    target s.aliases name ∈ s.codes ∨ target s.aliases name = "params" := by
  rw [target]
  cases hshort : s.aliases.get? name with
  | some code => exact .inl (hfit.short (name, code) ((Table.get?_eq_some_iff _).1 hshort)).2.2
  | none =>
    rw [Option.getD_none]
    simp only [Lint.isDeclared, Table.contains, hshort, isReserved, hfunction, Option.isSome_none, Bool.or_false,
      Bool.or_eq_true, Bool.and_eq_true, beq_iff_eq, List.contains_iff_mem] at h
    exact h.imp_left And.right

/-- **Every name that a formula of a clean schema reads means something when the formula is evaluated**, function names
and its own code apart. -/
theorem lookup_isSome (hfit : s.Fit nodes) (h : Scorer.ofSchema s = .ok sc)
    (hm : sc.Meets (sc.normalize raw) cx node) {name : String} (hname : name ∈ node.expr.reads)
    (hfunction : Function.ofName? name = none) (hself : target cx.aliases name ≠ node.code) :
    (cx.lookup name).isSome = true := by
  have hr := hm.reached
  have haliases : cx.aliases = s.aliases := by rw [hr.aliases_eq, Scorer.aliases_of_ofSchema h]
  refine Context.lookup_isSome hr.tracks ?_
  rw [haliases] at hself ⊢
  rw [Context.meaning, Option.isSome_or, Bool.or_eq_true]
  have hdeclared := hfit.declared node ((hfit.plan_perm h).mem_iff.1 hm.mem_plan) name hname
  rcases hfit.target_of_isDeclared hdeclared hfunction with hcode | hparams
  · rw [Schema.codes] at hcode
    rcases List.mem_append.1 hcode with hfield | hcomputed
    · refine .inr ?_
      obtain ⟨f, hf, hfcode⟩ := List.mem_map.1 hfield
      rw [Context.base?]
      split
      · rfl
      · rw [hr.inputs_eq, Scorer.normalize, Scorer.schema_of_ofSchema h, ← hfcode]
        refine isSome_normalize raw ?_ _ hf
        rw [hfcode]
        exact Text.isEmpty_of_isIdentifier (hfit.code _ hcode).1
    · refine .inl ?_
      have horder : target s.aliases name ∈ sc.order := by
        rwa [(Scorer.order_perm_of_ofSchema h).mem_iff, hfit.withFormula_eq]
      obtain ⟨b, hb, hbcode⟩ := List.mem_map.1 horder
      obtain ⟨before, after, hplan, hrun⟩ := hm
      -- an entry that is not the formula's own comes before it in the plan and has an output by now
      have hne : b ≠ node := fun he => hself (by rw [← hbcode, he])
      have hdepends : node.DependsOn s.aliases b := ⟨name, hname, hbcode.symm⟩
      have hbefore := Scorer.mem_before_of_dependsOn (Scorer.pairwise_of_ofSchema h) hplan hb hne hdepends
      rw [← hbcode]
      exact Scorer.outputs_done (Scorer.nodup_order_of_ofSchema h) hplan hrun hbefore
  · refine .inr ?_
    rw [hparams, Context.base?, if_pos rfl]
    rfl

end Schema.Fit

theorem Error.concernsValues_root {e : Error} (h : e.concernsValues = true) : e.root.concernsValues = true := by
  cases e with
  | arithmetic fault | type fault | selection fault => rfl
  | schema fault | formula fault | cycle codes | computed code cause => cases h

/-- **A sheet of a clean schema fails on values only**, where the formulas that a run comes to are in order. -/
theorem concernsValues_of_lint {s : Schema} (hlint : lint s = []) : ∃ sc, Scorer.ofSchema s = .ok sc ∧
    ∀ raw, (∀ cx node, sc.Meets (sc.normalize raw) cx node → cx.InOrder node) →
      ∀ e, sc.score raw = .error e → e.root.concernsValues = true := by
  obtain ⟨nodes, hfit⟩ := fit_of_lint hlint
  obtain ⟨sc, h, -⟩ := hfit.exists_scorer
  refine ⟨sc, h, fun raw hinOrder e he => ?_⟩
  obtain ⟨cx, node, cause, hm, hcause, rfl⟩ := Scorer.exists_of_score_eq_error he
  have hnode := hinOrder cx node hm
  have hmeans : ∀ name ∈ node.expr.reads, (cx.lookup name).isSome = true := fun name hname =>
    hfit.lookup_isSome h hm hname (hnode.name name hname).1 (hnode.name name hname).2
  show cause.root.concernsValues = true
  exact Error.concernsValues_root (hnode.clean_value hmeans cause hcause)

theorem concernsValues_of_lint_division : ∃ s sc e, lint s = [] ∧ Scorer.ofSchema s = .ok sc ∧
    (∀ cx node, sc.Meets (sc.normalize .empty) cx node → cx.InOrder node) ∧ sc.score .empty = .error e ∧
      e.root.concernsValues = true := by
  let s := Schema.ofFormulas [] [("A", none, "sum(row_custom_compute('M', item_expr='x / 2')) / z"),
    ("M", none, "[[1, 2], [3]]"), ("Z", some "z", "0")]
  have hlint : lint s = [] := by decide +kernel
  have hstatic : ∀ c ∈ s.computed, ∀ text ∈ c.formulaText, ((Dialect.formula.compile text).map fun e =>
      (⟨c.code, e⟩ : Node).isInOrder s.aliases).toOption = some true := by decide +kernel
  have hbad : (Scorer.ofSchema s >>= fun sc => sc.score .empty).isOk = false := by decide +kernel
  obtain ⟨sc, h, hvalues⟩ := concernsValues_of_lint hlint
  have hinOrder : ∀ cx node, sc.Meets (sc.normalize .empty) cx node → cx.InOrder node := by
    intro cx node hm
    refine Context.inOrder_of_isInOrder ?_
    rw [hm.reached.aliases_eq, Scorer.aliases_of_ofSchema h]
    exact Scorer.forall_mem_plan h _ hstatic node hm.mem_plan
  cases hscore : sc.score .empty with
  | ok o =>
    rw [bind_eq_ok_iff.2 ⟨sc, h, hscore⟩] at hbad
    cases hbad
  | error e => exact ⟨s, sc, e, hlint, h, hinOrder, hscore, hvalues .empty hinOrder e hscore⟩

/-- Formulas that the linter lets through: an argument that is missing, an entry that reads itself, a function's name
without a call, a source that is put together or may not be named, an expression within a call that does not compile. -/
def looseEnds : List (List (String × Option String × String)) :=
  [[("A", none, "sum()")],
   [("A", none, "A + 1")],
   [("A", none, "avg")],
   [("A", none, "row_custom_compute('B' + 'C')")],
   [("A", none, "row_custom_compute('__B')"), ("__B", none, "[[1]]")],
   [("A", none, "row_custom_compute([[1]], item_expr='y')")],
   [("A", none, "row_custom_compute([[1]], post_agg_expr='y')")]]

theorem looseEnds_fail : ∀ entries ∈ looseEnds, lint (Schema.ofFormulas [] entries) = [] ∧
    ∃ sc e, Scorer.ofSchema (Schema.ofFormulas [] entries) = .ok sc ∧ sc.score .empty = .error e ∧
      e.root.concernsValues = false := by
  have hall : ∀ entries ∈ looseEnds, lint (Schema.ofFormulas [] entries) = [] ∧
      (match Scorer.ofSchema (Schema.ofFormulas [] entries) with
        | .error _ => true
        | .ok sc => match sc.score .empty with
          | .ok _ => true
          | .error e => e.root.concernsValues) = false := by decide +kernel
  intro entries hentries
  obtain ⟨hlint, hfails⟩ := hall entries hentries
  refine ⟨hlint, ?_⟩
  cases h : Scorer.ofSchema (Schema.ofFormulas [] entries) with
  | error e =>
    rw [h] at hfails
    cases hfails
  | ok sc =>
    cases hscore : sc.score .empty with
    | ok o =>
      simp only [h, hscore] at hfails
      cases hfails
    | error e =>
      simp only [h, hscore] at hfails
      exact ⟨sc, e, rfl, hscore, hfails⟩

/-- **A clean lint does not rule out an error about the text of a formula.** -/
theorem not_concernsValues_of_lint : ¬ ∀ (s : Schema) (sc : Scorer) (raw : Table Value) (e : Error), lint s = [] →
    Scorer.ofSchema s = .ok sc → sc.score raw = .error e → e.root.concernsValues = true := by
  intro hall
  obtain ⟨hlint, sc, e, h, hscore, hbad⟩ := looseEnds_fail [("A", none, "sum()")] List.mem_cons_self
  rw [hall _ sc .empty e hlint h hscore] at hbad
  cases hbad

end Scoresheet
