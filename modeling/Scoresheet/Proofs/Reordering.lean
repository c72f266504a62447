import Mathlib.Data.List.Perm.Basic
import Scoresheet.Proofs.Naming
import Scoresheet.Proofs.Linting
/-!
# The order of declarations does not matter

Two scorers over the same formulas evaluate them in orders that need not agree.  In each of the two runs a formula is
evaluated after all that it reads, so where one run succeeds it finds there what it finds in the other one, and the
other run succeeds with the same outputs (`Parallel.exists_run`).  A fit schema with its computed entries permuted has
the same short names and the same formulas, and so its sheets come to the same.
-/
namespace Scoresheet

open Plan (target)

/-! ## Tables of permuted entries -/

namespace Table

variable {α : Type}

theorem find?_eq_some_iff_of_nodup {k : String} {v : α} : ∀ {l : List (String × α)}, (l.map Prod.fst).Nodup →
    (find? k l = some v ↔ (k, v) ∈ l)
  | [], _ => by simp [find?]
  | (k', v') :: l, h => by
    obtain ⟨hnot, hl⟩ := List.nodup_cons.1 h
    rw [find?, List.mem_cons]
    by_cases hk : k' = k
    · subst hk
      have hmem : (k', v) ∉ l := fun hm => hnot (List.mem_map.2 ⟨_, hm, rfl⟩)
      simp [hmem, eq_comm]
    · rw [if_neg hk, find?_eq_some_iff_of_nodup hl]
      simp [Ne.symm hk]

theorem get?_foldl_insert {k : String} : ∀ (l : List (String × α)) (t : Table α), (l.map Prod.fst).Nodup →
    (l.foldl (fun t e => t.insert e.1 e.2) t).get? k = (find? k l).or (t.get? k)
  | [], t, _ => by simp [find?]
  | (k', v) :: l, t, h => by
    obtain ⟨hnot, hl⟩ := List.nodup_cons.1 h
    rw [List.foldl_cons, get?_foldl_insert l _ hl, get?_insert, find?]
    by_cases hk : k' = k
    · subst hk
      have hnone : find? k' l = none := by
        rw [Option.eq_none_iff_forall_ne_some]
        exact fun v hv => hnot (List.mem_map.2 ⟨_, (find?_eq_some_iff_of_nodup hl).1 hv, rfl⟩)
      simp [hnone]
    · simp [hk, Ne.symm hk]

/-- A list in increasing order of its keys is the list of its table. -/
theorem ofList_eq {l : List (String × α)} (h : l.Pairwise fun a b => a.1 < b.1) : ofList l = ⟨l, h⟩ := by
  have hnodup : (l.map Prod.fst).Nodup := by
    refine List.pairwise_map.2 (h.imp ?_)
    intro a b hlt heq
    rw [heq] at hlt
    exact String.lt_irrefl _ hlt
  refine Table.ext fun k => ?_
  rw [ofList, get?_foldl_insert l _ hnodup, get?_empty, Option.or_none, get?]

/-- **Entries with different keys make the same table in every order.** -/
theorem foldl_insert_perm {l m : List (String × α)} (h : l.Perm m) (hl : (l.map Prod.fst).Nodup) (t : Table α) :
    l.foldl (fun t e => t.insert e.1 e.2) t = m.foldl (fun t e => t.insert e.1 e.2) t := by
  have hm : (m.map Prod.fst).Nodup := (h.map _).nodup_iff.1 hl
  refine Table.ext fun k => ?_
  have hfind : find? k l = find? k m := Option.ext fun v => by
    rw [find?_eq_some_iff_of_nodup hl, find?_eq_some_iff_of_nodup hm, h.mem_iff]
  rw [get?_foldl_insert l t hl, get?_foldl_insert m t hm, hfind]

end Table

/-! ## Fit schemas with their computed entries permuted -/

namespace Schema

variable {s : Schema} {nodes : List Node} {l : List Computed}

theorem vars_perm (h : l.Perm s.computed) : Schema.vars { s with computed := l } |>.Perm s.vars := by
  rw [vars, vars]
  exact ((h.map _).append_left _).filterMap _

theorem codes_perm (h : l.Perm s.computed) : Schema.codes { s with computed := l } |>.Perm s.codes := by
  rw [codes, codes]
  exact (h.map _).append_left _

theorem Fit.aliases_perm (hfit : s.Fit nodes) (h : l.Perm s.computed) :
    Schema.aliases { s with computed := l } = s.aliases := by
  rw [aliases, aliases]
  exact (Table.foldl_insert_perm (vars_perm h).symm hfit.vars _).symm

/-- No short name of a fit schema is reserved. -/
theorem Fit.shortNamesApart (hfit : s.Fit nodes) (hshort : ∀ short ∈ s.aliases.keys, short ∉ s.codes) :
    s.ShortNamesApart :=
  fun short hmem => ⟨hshort short hmem, hfit.shortName_ne_params hmem⟩

/-- **A permuted fit schema has a scorer over the same formulas.** -/
theorem Fit.exists_scorer_perm (hfit : s.Fit nodes) (h : l.Perm s.computed) :
    ∃ sc', Scorer.ofSchema { s with computed := l } = .ok sc' ∧ sc'.plan.Perm nodes := by
  obtain ⟨sc, hsc, hplan⟩ := hfit.exists_scorer
  obtain ⟨nodes', hnodes', hperm⟩ := List.perm_comp_forall₂ h hfit.compiles
  have hcodes : (Schema.codes { s with computed := l }).Nodup := (codes_perm h).nodup_iff.2 hfit.nodup
  have hnodup : (nodes'.map (·.code)).Nodup := by
    rw [codes_of_compiles hnodes']
    exact (List.nodup_append.1 hcodes).2.1
  obtain ⟨order, horder⟩ := Plan.exists_order hnodup (hplan.trans hperm.symm) (Scorer.pairwise_of_ofSchema hsc)
  refine ⟨_, Scorer.ofSchema_eq_ok_iff.2 ⟨⟨fun c hc => ?_, hcodes⟩, nodes', order, ?_, ?_, rfl⟩, ?_⟩
  · exact Text.allBlank_of_isIdentifier (hfit.code c ((codes_perm h).mem_iff.1 hc)).1
  · have hall : Schema.withFormula l = l := by
      refine List.filter_eq_self.2 fun c hc => ?_
      rw [← hfit.withFormula_eq] at h
      exact (List.mem_filter.1 (h.mem_iff.1 hc)).2
    exact hall.symm ▸ hnodes'
  · rw [hfit.aliases_perm h]
    exact horder
  · exact (Plan.arranged_perm horder).trans hperm

end Schema

/-! ## Two runs -/

/-- The sources among the calls of an expression are written down as texts, or come to no text. -/
def Context.FixesSources (cx : Context) (e : Expr) : Prop :=
  ∀ f ps ks src, .call f ps ks ∈ e.subterms → f.readsSource = true → Expr.sourceArgument? ps ks = some src →
    (∃ code, src = .literal (.text code)) ∨ ∀ text, cx.value src ≠ .ok (.text text)

theorem Context.FixesSources.namesSources {cx : Context} {e : Expr} (h : cx.FixesSources e) : cx.NamesSources e :=
  fun f ps ks src hcall hf _ hsrc => h f ps ks src hcall hf hsrc

/-- Whether every call that reads a source has it written down as a text. -/
def Expr.hasLiteralSources (e : Expr) : Bool :=
  e.subterms.all fun t =>
    match t with
    | .call f ps ks =>
      !f.readsSource ||
        match sourceArgument? ps ks with
        | none => true
        | some (.literal (.text _)) => true
        | some _ => false
    | _ => true

theorem Context.fixesSources_of_literal {e : Expr} (h : e.hasLiteralSources = true) (cx : Context) :
    cx.FixesSources e := by
  intro f ps ks src hcall hf hsrc
  have hall := List.all_eq_true.1 h _ hcall
  simp only [hf, hsrc, Bool.not_true, Bool.false_or] at hall
  split at hall
  · rename_i hnone
    cases hnone
  · rename_i code hcode
    exact .inl ⟨code, Option.some.inj hcode⟩
  · cases hall

namespace Scorer

/-- Two scorers that differ in the order of their formulas only. -/
structure Alike (sc sc' : Scorer) : Prop where
  params : sc.schema.params = sc'.schema.params
  fields : sc.schema.fields = sc'.schema.fields
  aliases : sc.aliases = sc'.aliases
  plan : sc.plan.Perm sc'.plan

theorem Alike.symm {sc sc' : Scorer} (h : Alike sc sc') : Alike sc' sc :=
  ⟨h.params.symm, h.fields.symm, h.aliases.symm, h.plan.symm⟩

section

variable {s s' : Schema} {sc sc' : Scorer} {raw inputs : Table Value} {cx cx' : Context} {node : Node}

/-- In both runs a name means the same to a formula, if what it depends on has the same outputs. -/
theorem Alike.lookup_eq (ha : Alike sc sc') (h : ofSchema s = .ok sc) (h' : ofSchema s' = .ok sc')
    (hshort : s.ShortNamesApart) (hshort' : s'.ShortNamesApart) (hr : sc.Reached (sc.normalize raw) cx)
    (hr' : sc'.Reached (sc'.normalize raw) cx')
    (hout : ∀ b ∈ sc.plan, node.DependsOn sc.aliases b → cx.outputs.get? b.code = cx'.outputs.get? b.code)
    {name : String} (hname : name ∈ node.expr.reads) (hsafe : Text.isSafeName name = true) :
    cx.lookup name = cx'.lookup name := by
  have haliases : s.aliases = s'.aliases := by rw [← aliases_of_ofSchema h, ← aliases_of_ofSchema h', ha.aliases]
  have houtputs : cx.outputs.get? (target s.aliases name) = cx'.outputs.get? (target s.aliases name) := by
    by_cases hcode : target s.aliases name ∈ sc.order
    · obtain ⟨b, hb, hbcode⟩ := List.mem_map.1 hcode
      have := hout b hb ⟨name, hname, by rw [aliases_of_ofSchema h, hbcode]⟩
      rwa [hbcode] at this
    · have hcode' : target s.aliases name ∉ sc'.order := fun hmem => hcode ((ha.plan.map _).mem_iff.2 hmem)
      rw [hr.outputs_eq_none hcode, hr'.outputs_eq_none hcode']
  rw [hr.lookup_eq h hshort hsafe, hr'.lookup_eq h' hshort' hsafe, ← haliases, Context.meaning, Context.meaning,
    houtputs, Context.base?, Context.base?, hr.schema_eq, hr'.schema_eq, hr.inputs_eq, hr'.inputs_eq, ha.params,
    normalize, normalize, ha.fields]

/-- **In both runs a formula comes to the same**, if what it depends on has the same outputs. -/
theorem Alike.value_eq (ha : Alike sc sc') (h : ofSchema s = .ok sc) (h' : ofSchema s' = .ok sc')
    (hshort : s.ShortNamesApart) (hshort' : s'.ShortNamesApart) (hm : sc.Meets (sc.normalize raw) cx node)
    (hm' : sc'.Meets (sc'.normalize raw) cx' node)
    (hout : ∀ b ∈ sc.plan, node.DependsOn sc.aliases b → cx.outputs.get? b.code = cx'.outputs.get? b.code)
    (hsource : cx.FixesSources node.expr) : cx.value node.expr = cx'.value node.expr := by
  have hr := hm.reached
  have hr' := hm'.reached
  have hlookup : ∀ {name}, name ∈ node.expr.reads → Text.isSafeName name = true → cx.lookup name = cx'.lookup name :=
    fun hname hsafe => ha.lookup_eq h h' hshort hshort' hr hr' hout hname hsafe
  have hfields : cx.schema.fields = cx'.schema.fields := by rw [hr.schema_eq, hr'.schema_eq, ha.fields]
  have hinputs : cx.inputs = cx'.inputs := by rw [hr.inputs_eq, hr'.inputs_eq, normalize, normalize, ha.fields]
  refine Context.value_eq_of_names hfields hinputs hsource.namesSources (fun name hname => ?_) fun code hcode hs => ?_
  · exact hlookup (Expr.name_mem_reads hname) (isSafeName_of_mem_plan h hm.mem_plan hname)
  · refine ⟨hlookup hcode hs, ?_⟩
    rw [hr.canonical_eq h hshort hs, hr'.canonical_eq h' hshort' hs, ← aliases_of_ofSchema h,
      ← aliases_of_ofSchema h', ha.aliases]

end

/-- Two scorers whose runs over the same inputs bring every formula to the same value, once what it depends on has the
same outputs. -/
structure Parallel (sc sc' : Scorer) (inputs : Table Value) : Prop extends Alike sc sc' where
  nodup : sc.order.Nodup
  ordered : sc.plan.Pairwise fun a b => ¬ a.DependsOn sc.aliases b
  ordered' : sc'.plan.Pairwise fun a b => ¬ a.DependsOn sc.aliases b
  value : ∀ node cx cx', sc.Meets inputs cx node → sc'.Meets inputs cx' node →
    (∀ b ∈ sc.plan, node.DependsOn sc.aliases b → cx.outputs.get? b.code = cx'.outputs.get? b.code) →
    cx.value node.expr = cx'.value node.expr

namespace Parallel

variable {sc sc' : Scorer} {inputs : Table Value} {cx cx' last : Context} {node : Node}

theorem nodup' (h : Parallel sc sc' inputs) : sc'.order.Nodup := (h.plan.map _).nodup_iff.1 h.nodup

theorem symm (h : Parallel sc sc' inputs) : Parallel sc' sc inputs where
  toAlike := h.toAlike.symm
  nodup := h.nodup'
  ordered := h.aliases ▸ h.ordered'
  ordered' := h.aliases ▸ h.ordered
  value node cx' cx hm' hm hout := (h.value node cx cx' hm hm' fun b hb hdepends =>
    (hout b (h.plan.mem_iff.1 hb) (h.aliases ▸ hdepends)).symm).symm

theorem mem_order_iff (h : Parallel sc sc' inputs) {k : String} : k ∈ sc.order ↔ k ∈ sc'.order :=
  (h.plan.map _).mem_iff

/-- **A formula that has a value in a whole run has it in the other one**, where the outputs before it are those of the
whole run. -/
theorem exists_value (h : Parallel sc sc' inputs) (hrun : Runs (sc.begin inputs) sc.plan last)
    {before after : List Node} (hplan' : sc'.plan = before ++ node :: after)
    (hbefore' : Runs (sc'.begin inputs) before cx')
    (hsame : ∀ b ∈ before, cx'.outputs.get? b.code = last.outputs.get? b.code) :
    ∃ v, cx'.value node.expr = .ok v ∧ last.outputs.get? node.code = some v := by
  have hnode : node ∈ sc'.plan := hplan' ▸ List.mem_append_right _ List.mem_cons_self
  obtain ⟨earlier, later, hplan⟩ := List.append_of_mem (h.plan.mem_iff.2 hnode)
  obtain ⟨cx, v, hearlier, hv, hlast, -, hkept⟩ := Scorer.exists_value h.nodup hplan hrun
  have hout : ∀ b ∈ sc.plan, node.DependsOn sc.aliases b → cx.outputs.get? b.code = cx'.outputs.get? b.code := by
    intro b hb hdepends
    by_cases hne : b = node
    · rw [hne, outputs_pending h.nodup hplan hearlier (List.mem_map_of_mem List.mem_cons_self),
        outputs_pending h.nodup' hplan' hbefore' (List.mem_map_of_mem List.mem_cons_self)]
    · have hmem := mem_before_of_dependsOn h.ordered hplan hb hne hdepends
      have hmem' := mem_before_of_dependsOn h.ordered' hplan' (h.plan.mem_iff.1 hb) hne hdepends
      rw [hkept b hmem, hsame b hmem']
  refine ⟨v, ?_, hlast⟩
  rw [← h.value node cx cx' ⟨earlier, later, hplan, hearlier⟩ ⟨before, after, hplan', hbefore'⟩ hout, hv]

/-- The second run goes on from any context that has the outputs of the first one so far. -/
theorem exists_rest (h : Parallel sc sc' inputs) (hrun : Runs (sc.begin inputs) sc.plan last) :
    ∀ (after before : List Node) (cx' : Context), sc'.plan = before ++ after → Runs (sc'.begin inputs) before cx' →
      (∀ b ∈ before, cx'.outputs.get? b.code = last.outputs.get? b.code) →
      ∃ last', Runs cx' after last' ∧ ∀ b ∈ sc'.plan, last'.outputs.get? b.code = last.outputs.get? b.code
  | [], before, cx', hplan', _, hsame => by
    rw [List.append_nil] at hplan'
    exact ⟨cx', runs_nil.2 rfl, hplan' ▸ hsame⟩
  | node :: after, before, cx', hplan', hbefore', hsame => by
    -- along the second plan: what it has stored so far is what the first run stored in the end
    obtain ⟨v, hv, hlast⟩ := h.exists_value hrun hplan' hbefore' hsame
    have hsame' : ∀ b ∈ before ++ [node], (cx'.store node.code v).outputs.get? b.code = last.outputs.get? b.code := by
      intro b hb
      rw [Context.store, Table.get?_insert]
      split <;> rename_i hcode
      · rw [hcode, hlast]
      · rcases List.mem_append.1 hb with hb | hb
        · exact hsame b hb
        · exact absurd (congrArg Node.code (List.mem_singleton.1 hb)) hcode
    have hplan'' : sc'.plan = before ++ [node] ++ after := by rw [hplan', List.append_assoc, List.singleton_append]
    have hbefore'' : Runs (sc'.begin inputs) (before ++ [node]) (cx'.store node.code v) :=
      runs_append.2 ⟨cx', hbefore', runs_cons.2 ⟨v, hv, runs_nil.2 rfl⟩⟩
    obtain ⟨last', hafter, hall⟩ := h.exists_rest hrun after (before ++ [node]) _ hplan'' hbefore'' hsame'
    exact ⟨last', runs_cons.2 ⟨v, hv, hafter⟩, hall⟩

/-- **Where one run succeeds the other one does**, with the same outputs. -/
theorem exists_run (h : Parallel sc sc' inputs) (hrun : Runs (sc.begin inputs) sc.plan last) :
    ∃ last', Runs (sc'.begin inputs) sc'.plan last' ∧ last'.outputs = last.outputs := by
  obtain ⟨last', hrun', hall⟩ := h.exists_rest hrun sc'.plan [] (sc'.begin inputs) rfl (runs_nil.2 rfl)
    fun b hb => by cases hb
  refine ⟨last', hrun', Table.ext fun k => ?_⟩
  by_cases hk : k ∈ sc.order
  · obtain ⟨b, hb, rfl⟩ := List.mem_map.1 hk
    exact hall b (h.plan.mem_iff.1 hb)
  · have hk' : k ∉ sc'.order := fun hmem => hk (h.mem_order_iff.2 hmem)
    rw [(reached_of_runs hrun').outputs_eq_none hk', (reached_of_runs hrun).outputs_eq_none hk]

theorem score_eq_ok {raw : Table Value} (h : Parallel sc sc' (sc.normalize raw)) {o : Outcome}
    (hscore : sc.score raw = .ok o) : sc'.score raw = .ok o := by
  have hinputs : sc.normalize raw = sc'.normalize raw := by rw [normalize, normalize, h.fields]
  obtain ⟨last, hrun, rfl⟩ := score_eq_ok_iff.1 hscore
  obtain ⟨last', hrun', hout⟩ := h.exists_run hrun
  refine score_eq_ok_iff.2 ⟨last', hinputs ▸ hrun', ?_⟩
  rw [hout, hinputs]

end Parallel

end Scorer

/-- **The scorers of a fit schema and of a permuted one run in parallel.** -/
theorem Schema.Fit.parallel {s : Schema} {nodes : List Node} {l : List Computed} {raw : Table Value} {sc sc' : Scorer}
    (hfit : s.Fit nodes) (hperm : l.Perm s.computed) (hshort : ∀ short ∈ s.aliases.keys, short ∉ s.codes)
    (h : Scorer.ofSchema s = .ok sc) (h' : Scorer.ofSchema { s with computed := l } = .ok sc')
    (hplan : sc.plan.Perm sc'.plan)
    (hsource : ∀ cx node, sc.Meets (sc.normalize raw) cx node → cx.FixesSources node.expr) :
    sc.Parallel sc' (sc.normalize raw) := by
  have haliases := hfit.aliases_perm hperm
  have ha : sc.Alike sc' := by
    refine ⟨?_, ?_, ?_, hplan⟩
    · rw [Scorer.schema_of_ofSchema h, Scorer.schema_of_ofSchema h']
    · rw [Scorer.schema_of_ofSchema h, Scorer.schema_of_ofSchema h']
    · rw [Scorer.aliases_of_ofSchema h, Scorer.aliases_of_ofSchema h', haliases]
  have hapart := hfit.shortNamesApart hshort
  have hapart' : Schema.ShortNamesApart { s with computed := l } := by
    intro short hmem
    rw [haliases] at hmem
    exact ⟨fun hcode => hshort short hmem ((Schema.codes_perm hperm).mem_iff.1 hcode), (hapart short hmem).2⟩
  have hinputs : sc.normalize raw = sc'.normalize raw := by rw [Scorer.normalize, Scorer.normalize, ha.fields]
  refine ⟨ha, Scorer.nodup_order_of_ofSchema h, ?_, ?_, fun node cx cx' hm hm' hout => ?_⟩
  · rw [Scorer.aliases_of_ofSchema h]
    exact Scorer.pairwise_of_ofSchema h
  · rw [ha.aliases, Scorer.aliases_of_ofSchema h']
    exact Scorer.pairwise_of_ofSchema h'
  · rw [hinputs] at hm'
    exact ha.value_eq h h' hapart hapart' hm hm' hout (hsource cx node hm)

/-- **The order of the computed entries does not matter.** -/
theorem score_of_perm {s : Schema} {l : List Computed} {raw : Table Value} (hlint : lint s = [])
    (hperm : l.Perm s.computed) (hshort : ∀ short ∈ s.aliases.keys, short ∉ s.codes)
    (hsource : ∀ sc cx node, Scorer.ofSchema s = .ok sc → sc.Meets (sc.normalize raw) cx node →
      cx.FixesSources node.expr) :
    ∃ sc sc', Scorer.ofSchema s = .ok sc ∧ Scorer.ofSchema { s with computed := l } = .ok sc' ∧
      ((∃ o, sc.score raw = .ok o ∧ sc'.score raw = .ok o) ∨
        (∃ e, sc.score raw = .error e) ∧ ∃ e, sc'.score raw = .error e) := by
  obtain ⟨nodes, hfit⟩ := fit_of_lint hlint
  obtain ⟨sc, h, hplan⟩ := hfit.exists_scorer
  obtain ⟨sc', h', hplan'⟩ := hfit.exists_scorer_perm hperm
  have hparallel := hfit.parallel hperm hshort h h' (hplan.trans hplan'.symm) fun cx node => hsource sc cx node h
  refine ⟨sc, sc', h, h', ?_⟩
  cases hscore : sc.score raw with
  | ok o => exact .inl ⟨o, rfl, hparallel.score_eq_ok hscore⟩
  | error e =>
    refine .inr ⟨⟨e, rfl⟩, ?_⟩
    cases hscore' : sc'.score raw with
    | error e' => exact ⟨e', rfl⟩
    | ok o =>
      have hinputs : sc.normalize raw = sc'.normalize raw := by
        rw [Scorer.normalize, Scorer.normalize, hparallel.fields]
      have hback := (hinputs ▸ hparallel.symm).score_eq_ok hscore'
      rw [hscore] at hback
      cases hback

theorem score_of_perm_reverse : ∃ s : Schema, lint s = [] ∧ (∀ short ∈ s.aliases.keys, short ∉ s.codes) ∧
    (∀ sc cx node, Scorer.ofSchema s = .ok sc → sc.Meets (sc.normalize .empty) cx node →
      cx.FixesSources node.expr) ∧
    ∃ sc sc', Scorer.ofSchema s = .ok sc ∧ Scorer.ofSchema { s with computed := s.computed.reverse } = .ok sc' ∧
      ((∃ o, sc.score .empty = .ok o ∧ sc'.score .empty = .ok o) ∨
        (∃ e, sc.score .empty = .error e) ∧ ∃ e, sc'.score .empty = .error e) := by
  let s := Schema.ofFormulas [] [("R", none, "sum(row_custom_compute('M', col_agg='avg')) + a"),
    ("M", none, "[[1, 2], [3, a]]"), ("A", some "a", "4")]
  have hlint : lint s = [] := by decide +kernel
  have hshort : ∀ short ∈ s.aliases.keys, short ∉ s.codes := by decide +kernel
  have hliteral : ∀ c ∈ s.computed, ∀ text ∈ c.formulaText,
      ((Dialect.formula.compile text).map Expr.hasLiteralSources).toOption = some true := by decide +kernel
  have hsource : ∀ sc cx node, Scorer.ofSchema s = .ok sc → sc.Meets (sc.normalize .empty) cx node →
      cx.FixesSources node.expr := by
    intro sc cx node h hm
    have hall := Scorer.forall_mem_plan h (fun node => node.expr.hasLiteralSources) hliteral
    exact Context.fixesSources_of_literal (hall node hm.mem_plan) cx
  exact ⟨s, hlint, hshort, hsource, score_of_perm hlint s.computed.reverse_perm hshort hsource⟩

end Scoresheet
