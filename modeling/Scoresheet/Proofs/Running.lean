import Scoresheet.Proofs.Accepting
/-!
# Runs

A run evaluates the plan from the front and stores an output after each formula.  Whatever it comes to, every formula
is evaluated in the context that the formulas before it have filled (`Meets`): the outputs of a run are the values
found there, and the error of a run is the first one found there.
-/
namespace Scoresheet
namespace Scorer

/-! ## Steps -/

theorem advance_eq_ok_iff {cx cx' : Context} {node : Node} :
    (advance Dialect.compile cx node : Result Context) = .ok cx' ↔
      ∃ v, cx.value node.expr = .ok v ∧ cx' = cx.store node.code v := by
  rw [advance, ← Context.value]
  cases cx.value node.expr with
  | error e =>
    constructor
    · intro h
      cases h
    · rintro ⟨_, h, _⟩
      cases h
  | ok v =>
    constructor
    · intro h
      cases h
      exact ⟨v, rfl, rfl⟩
    · rintro ⟨_, h, rfl⟩
      cases h
      rfl

theorem advance_eq_error_iff {cx : Context} {node : Node} {e : Error} :
    (advance Dialect.compile cx node : Result Context) = .error e ↔
      ∃ cause, cx.value node.expr = .error cause ∧ e = .computed node.code cause := by
  rw [advance, ← Context.value]
  cases cx.value node.expr with
  | ok v =>
    constructor
    · intro h
      cases h
    · rintro ⟨_, h, _⟩
      cases h
  | error cause =>
    constructor
    · intro h
      cases h
      exact ⟨cause, rfl, rfl⟩
    · rintro ⟨_, h, rfl⟩
      cases h
      rfl

/-! ## Runs over a list of nodes -/

/-- A run from a context to another one over some nodes. -/
def Runs (cx : Context) (nodes : List Node) (cx' : Context) : Prop :=
  nodes.foldlM (advance Dialect.compile) cx = (.ok cx' : Result Context)

variable {cx cx' : Context} {node : Node} {nodes before after : List Node}

theorem runs_nil : Runs cx [] cx' ↔ cx' = cx := by
  rw [Runs, List.foldlM_nil]
  exact ⟨fun h => by cases h; rfl, fun h => by rw [h]; rfl⟩

theorem runs_cons : Runs cx (node :: nodes) cx' ↔
    ∃ v, cx.value node.expr = .ok v ∧ Runs (cx.store node.code v) nodes cx' := by
  rw [Runs, List.foldlM_cons, bind_eq_ok_iff]
  simp only [advance_eq_ok_iff]
  constructor
  · rintro ⟨_, ⟨v, hv, rfl⟩, h⟩
    exact ⟨v, hv, h⟩
  · rintro ⟨v, hv, h⟩
    exact ⟨_, ⟨v, hv, rfl⟩, h⟩

theorem runs_append : ∀ {before : List Node} {cx : Context},
    Runs cx (before ++ after) cx' ↔ ∃ mid, Runs cx before mid ∧ Runs mid after cx'
  | [], cx => by simp [runs_nil]
  | node :: before, cx => by
    rw [List.cons_append, runs_cons]
    constructor
    · rintro ⟨v, hv, h⟩
      obtain ⟨mid, hbefore, hafter⟩ := runs_append.1 h
      exact ⟨mid, runs_cons.2 ⟨v, hv, hbefore⟩, hafter⟩
    · rintro ⟨mid, hbefore, hafter⟩
      obtain ⟨v, hv, h⟩ := runs_cons.1 hbefore
      exact ⟨v, hv, runs_append.2 ⟨mid, h, hafter⟩⟩

/-- **A run stores an output for each node**, and nothing else. -/
theorem exists_storeAll : ∀ {nodes : List Node} {cx : Context}, Runs cx nodes cx' →
    ∃ l, l.map Prod.fst = nodes.map (·.code) ∧ cx' = cx.storeAll l
  | [], cx, h => ⟨[], rfl, runs_nil.1 h⟩
  | node :: nodes, cx, h => by
    obtain ⟨v, -, h⟩ := runs_cons.1 h
    obtain ⟨l, hl, rfl⟩ := exists_storeAll h
    exact ⟨(node.code, v) :: l, by rw [List.map_cons, List.map_cons, hl], rfl⟩

/-- **A run fails where the first formula fails.** -/
theorem exists_failing : ∀ {nodes : List Node} {cx : Context} {e : Error},
    nodes.foldlM (advance Dialect.compile) cx = (.error e : Result Context) →
      ∃ before node after mid cause, nodes = before ++ node :: after ∧ Runs cx before mid ∧
        mid.value node.expr = .error cause ∧ e = .computed node.code cause
  | [], cx, e, h => by cases h
  | node :: nodes, cx, e, h => by
    rw [List.foldlM_cons] at h
    cases hstep : (advance Dialect.compile cx node : Result Context) with
    | error e' =>
      rw [hstep] at h
      cases h
      obtain ⟨cause, hcause, rfl⟩ := advance_eq_error_iff.1 hstep
      exact ⟨[], node, nodes, cx, cause, rfl, runs_nil.2 rfl, hcause, rfl⟩
    | ok next =>
      rw [hstep] at h
      obtain ⟨v, hv, rfl⟩ := advance_eq_ok_iff.1 hstep
      obtain ⟨before, n, after, mid, cause, rfl, hrun, hcause, rfl⟩ := exists_failing h
      exact ⟨node :: before, n, after, mid, cause, rfl, runs_cons.2 ⟨v, hv, hrun⟩, hcause, rfl⟩

/-! ## Runs of a scorer -/

variable {sc : Scorer} {inputs : Table Value}

/-- The context before the first formula. -/
def begin (sc : Scorer) (inputs : Table Value) : Context := Context.start sc.schema inputs sc.aliases

/-- A context that a run over the inputs comes to. -/
def Reached (sc : Scorer) (inputs : Table Value) (cx : Context) : Prop :=
  ∃ before after, sc.plan = before ++ after ∧ Runs (sc.begin inputs) before cx

/-- The context in which a run over the inputs evaluates a node, if it comes to it. -/
def Meets (sc : Scorer) (inputs : Table Value) (cx : Context) (node : Node) : Prop :=
  ∃ before after, sc.plan = before ++ node :: after ∧ Runs (sc.begin inputs) before cx

theorem Meets.reached (h : sc.Meets inputs cx node) : sc.Reached inputs cx := by
  obtain ⟨before, after, hplan, hrun⟩ := h
  exact ⟨before, node :: after, hplan, hrun⟩

theorem Meets.mem_plan (h : sc.Meets inputs cx node) : node ∈ sc.plan := by
  obtain ⟨before, after, hplan, -⟩ := h
  rw [hplan]
  exact List.mem_append_right _ List.mem_cons_self

theorem reached_of_runs (h : Runs (sc.begin inputs) sc.plan cx) : sc.Reached inputs cx :=
  ⟨sc.plan, [], (List.append_nil _).symm, h⟩

/-- **A context that a run comes to holds the outputs of the nodes before.** -/
theorem Reached.eq_storeAll (h : sc.Reached inputs cx) : ∃ before after l, sc.plan = before ++ after ∧
    l.map Prod.fst = before.map (·.code) ∧ cx = (sc.begin inputs).storeAll l := by
  obtain ⟨before, after, hplan, hrun⟩ := h
  obtain ⟨l, hl, rfl⟩ := exists_storeAll hrun
  exact ⟨before, after, l, hplan, hl, rfl⟩

theorem Reached.schema_eq (h : sc.Reached inputs cx) : cx.schema = sc.schema := by
  obtain ⟨-, -, l, -, -, rfl⟩ := h.eq_storeAll
  exact Context.storeAll_schema l _

theorem Reached.inputs_eq (h : sc.Reached inputs cx) : cx.inputs = inputs := by
  obtain ⟨-, -, l, -, -, rfl⟩ := h.eq_storeAll
  exact Context.storeAll_inputs l _

theorem Reached.aliases_eq (h : sc.Reached inputs cx) : cx.aliases = sc.aliases := by
  obtain ⟨-, -, l, -, -, rfl⟩ := h.eq_storeAll
  exact Context.storeAll_aliases l _

theorem Reached.tracks (h : sc.Reached inputs cx) : cx.Tracks := by
  obtain ⟨-, -, l, -, -, rfl⟩ := h.eq_storeAll
  exact Context.tracks_storeAll l (Context.tracks_start _ _ _)

/-- Nothing but the codes of the plan ever has an output. -/
theorem Reached.outputs_eq_none (h : sc.Reached inputs cx) {k : String} (hk : k ∉ sc.order) :
    cx.outputs.get? k = none := by
  obtain ⟨before, after, l, hplan, hl, rfl⟩ := h.eq_storeAll
  rw [Context.outputs_storeAll_of_notMem l]
  · rfl
  · rw [hl]
    refine fun hmem => hk ?_
    rw [order, hplan, List.map_append]
    exact List.mem_append_left _ hmem

/-- No formula depends on one that comes after it. -/
theorem not_dependsOn_later {aliases : Table String} (h : sc.plan.Pairwise fun a b => ¬ a.DependsOn aliases b)
    (hplan : sc.plan = before ++ node :: after) {b : Node} (hb : b ∈ after) : ¬ node.DependsOn aliases b := by
  rw [hplan] at h
  exact (List.pairwise_cons.1 (List.pairwise_append.1 h).2.1).1 b hb

theorem mem_before_of_dependsOn {aliases : Table String} (h : sc.plan.Pairwise fun a b => ¬ a.DependsOn aliases b)
    (hplan : sc.plan = before ++ node :: after) {b : Node} (hb : b ∈ sc.plan) (hne : b ≠ node)
    (hdepends : node.DependsOn aliases b) : b ∈ before := by
  rw [hplan] at hb
  rcases List.mem_append.1 hb with hb | hb
  · exact hb
  · rcases List.mem_cons.1 hb with rfl | hb
    · exact absurd rfl hne
    · exact absurd hdepends (not_dependsOn_later h hplan hb)

/-- A code whose formula is still to come has no output. -/
theorem outputs_pending (hnodup : sc.order.Nodup) (hplan : sc.plan = before ++ after)
    (hrun : Runs (sc.begin inputs) before cx) {code : String} (hcode : code ∈ after.map (·.code)) :
    cx.outputs.get? code = none := by
  obtain ⟨l, hl, rfl⟩ := exists_storeAll hrun
  rw [Context.outputs_storeAll_of_notMem l]
  · rfl
  · rw [order, hplan, List.map_append] at hnodup
    rw [hl]
    exact fun hmem => (List.nodup_append.1 hnodup).2.2 _ hmem _ hcode rfl

/-- A code whose formula has run has an output. -/
theorem outputs_done (hnodup : sc.order.Nodup) (hplan : sc.plan = before ++ after)
    (hrun : Runs (sc.begin inputs) before cx) {b : Node} (hb : b ∈ before) :
    (cx.outputs.get? b.code).isSome = true := by
  obtain ⟨l, hl, rfl⟩ := exists_storeAll hrun
  have hcode : b.code ∈ l.map Prod.fst := hl ▸ List.mem_map_of_mem hb
  obtain ⟨⟨code, v⟩, hmem, hcode⟩ := List.mem_map.1 hcode
  rw [order, hplan, List.map_append] at hnodup
  rw [← hcode, Context.outputs_storeAll_of_mem l _ (hl ▸ (List.nodup_append.1 hnodup).1) hmem]
  rfl

/-- **A whole run seen from one of its formulas**: the value that it has there is stored to the end, and so are the
outputs before it. -/
theorem exists_value (hnodup : sc.order.Nodup) (hplan : sc.plan = before ++ node :: after)
    (hrun : Runs (sc.begin inputs) sc.plan cx') : ∃ cx v, Runs (sc.begin inputs) before cx ∧
      cx.value node.expr = .ok v ∧ cx'.outputs.get? node.code = some v ∧
      (∃ l, l.map Prod.fst = (node :: after).map (·.code) ∧ cx' = cx.storeAll l) ∧
      ∀ b ∈ before, cx.outputs.get? b.code = cx'.outputs.get? b.code := by
  rw [order, hplan, List.map_append] at hnodup
  rw [hplan] at hrun
  obtain ⟨cx, hbefore, hrest⟩ := runs_append.1 hrun
  obtain ⟨v, hv, hafter⟩ := runs_cons.1 hrest
  obtain ⟨l, hl, rfl⟩ := exists_storeAll hafter
  have hkeys : ((node.code, v) :: l).map Prod.fst = (node :: after).map (·.code) := by
    rw [List.map_cons, List.map_cons, hl]
  rw [← Context.storeAll_cons cx (node.code, v) l]
  refine ⟨cx, v, hbefore, hv, ?_, ⟨(node.code, v) :: l, hkeys, rfl⟩, fun b hb => ?_⟩
  · refine Context.outputs_storeAll_of_mem _ cx ?_ List.mem_cons_self
    rw [hkeys]
    exact (List.nodup_append.1 hnodup).2.1
  · refine (Context.outputs_storeAll_of_notMem _ cx ?_).symm
    rw [hkeys]
    exact fun hmem => (List.nodup_append.1 hnodup).2.2 _ (List.mem_map_of_mem hb) _ hmem rfl

theorem score_eq_ok_iff {raw : Table Value} {o : Outcome} : sc.score raw = .ok o ↔
    ∃ cx, Runs (sc.begin (sc.normalize raw)) sc.plan cx ∧
      o = ⟨sc.normalize raw, cx.outputs, total cx.outputs⟩ := by
  rw [score, scoreWith]
  refine bind_eq_ok_iff.trans ⟨?_, ?_⟩
  · rintro ⟨cx, hrun, h⟩
    cases h
    exact ⟨cx, hrun, rfl⟩
  · rintro ⟨cx, hrun, rfl⟩
    exact ⟨cx, hrun, rfl⟩

theorem exists_of_score_eq_error {raw : Table Value} {e : Error} (h : sc.score raw = .error e) :
    ∃ cx node cause, sc.Meets (sc.normalize raw) cx node ∧ cx.value node.expr = .error cause ∧
      e = .computed node.code cause := by
  rw [score, scoreWith] at h
  cases hrun : (sc.run Dialect.compile (sc.normalize raw) : Result Context) with
  | ok cx => simp only [hrun] at h; cases h
  | error e' =>
    simp only [hrun] at h
    cases h
    obtain ⟨before, node, after, mid, cause, hplan, hbefore, hcause, he⟩ := exists_failing hrun
    exact ⟨mid, node, cause, ⟨before, after, hplan, hbefore⟩, hcause, he⟩

end Scorer
end Scoresheet
