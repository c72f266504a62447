import Scoresheet.Proofs.Naming
/-!
# Every formula saw the final values

While a run is under way a code whose formula is still to come means nothing, or the parameters (`meaning_pending`).  A
formula that has a value has therefore read outputs that were there for good, and in the final context, with all
outputs stored, it comes to the same value again.  The one entry for which this fails is an entry in the place of the
parameters that reads them.
-/
namespace Scoresheet

open Plan (target)

/-- A source is the same sheet later on if its name means the same, and is an error before that if it means nothing or
a map. -/
theorem Sheet.ofSource_agree {cx cx' : Context} (hfields : cx.schema.fields = cx'.schema.fields)
    (hinputs : cx.inputs = cx'.inputs) (f : Function) {name : String} (hcode : cx.canonical name = cx'.canonical name)
    (hlookup : cx.lookup name = cx'.lookup name ∨ cx.lookup name = none ∨ ∃ es, cx.lookup name = some (.map es)) :
    Agree True (ofSource cx f (.text name)) (ofSource cx' f (.text name)) := by
  rcases hlookup with hlookup | hlookup
  · exact .inl (ofSource_text_congr hfields hinputs f hlookup hcode)
  · refine .inr ⟨trivial, ?_⟩
    rw [ofSource]
    split
    · rcases hlookup with hlookup | ⟨es, hlookup⟩
      · rw [hlookup]
        exact ⟨_, rfl⟩
      · rw [hlookup]
        exact ⟨_, rfl⟩
    · exact ⟨_, rfl⟩

/-- No entry that stands in the place of the parameters names itself. -/
def Schema.ParamsApart (s : Schema) : Prop :=
  ∀ c ∈ s.computed, c.code = "params" → ∀ text e, c.formulaText = some text → Dialect.formula.compile text = .ok e →
    ∀ name, .name name ∈ e.subterms → target s.aliases name ≠ "params"

namespace Scorer

variable {s : Schema} {sc : Scorer} {raw : Table Value} {cx : Context} {before after : List Node}

/-- **A code whose formula is still to come means nothing**, or the parameters where it has their name. -/
theorem meaning_pending (h : ofSchema s = .ok sc) (hinternal : ∀ code ∈ s.codes, Text.isInternal code = false)
    (hplan : sc.plan = before ++ after) (hrun : Runs (sc.begin (sc.normalize raw)) before cx) {code : String}
    (hcode : code ∈ after.map (·.code)) :
    cx.meaning code = if code = "params" then some (.map s.params.entries) else none := by
  have hr : sc.Reached (sc.normalize raw) cx := ⟨before, after, hplan, hrun⟩
  have horder : code ∈ sc.order := by
    rw [order, hplan, List.map_append]
    exact List.mem_append_right _ hcode
  have hout : cx.outputs.get? code = none := outputs_pending (nodup_order_of_ofSchema h) hplan hrun hcode
  rw [Context.meaning, hout, Option.none_or, Context.base?, hr.schema_eq, hr.inputs_eq, schema_of_ofSchema h]
  split
  · rfl
  · exact normalize_eq_none_of_mem_order h hinternal horder

section

variable {node : Node} {l : List (String × Value)}

/-- **A name means the same later on**, unless its code is still to come. -/
theorem lookup_later (h : ofSchema s = .ok sc) (hshort : s.ShortNamesApart)
    (hinternal : ∀ code ∈ s.codes, Text.isInternal code = false) (hplan : sc.plan = before ++ after)
    (hrun : Runs (sc.begin (sc.normalize raw)) before cx) (hl : l.map Prod.fst = after.map (·.code))
    (hlast : sc.Reached (sc.normalize raw) (cx.storeAll l)) {name : String} (hsafe : Text.isSafeName name = true) :
    cx.lookup name = (cx.storeAll l).lookup name ∨ target s.aliases name ∈ after.map (·.code) ∧
      cx.lookup name = if target s.aliases name = "params" then some (.map s.params.entries) else none := by
  have hr : sc.Reached (sc.normalize raw) cx := ⟨before, after, hplan, hrun⟩
  rw [hr.lookup_eq h hshort hsafe, hlast.lookup_eq h hshort hsafe]
  by_cases hcode : target s.aliases name ∈ after.map (·.code)
  · exact .inr ⟨hcode, meaning_pending h hinternal hplan hrun hcode⟩
  · exact .inl (Context.meaning_storeAll (hl ▸ hcode)).symm

/-- A formula that names the parameters is not before the entry in their place. -/
theorem params_not_pending (h : ofSchema s = .ok sc) (hparams : s.ParamsApart)
    (hplan : sc.plan = before ++ node :: after) {name : String} (hname : .name name ∈ node.expr.subterms)
    (ht : target s.aliases name = "params") : "params" ∉ (node :: after).map (·.code) := by
  rw [List.map_cons, List.mem_cons]
  rintro (hcode | hcode)
  · have hnode : node ∈ sc.plan := hplan ▸ List.mem_append_right _ List.mem_cons_self
    obtain ⟨nodes, hnodes, hperm⟩ := plan_of_ofSchema h
    obtain ⟨c, hc, hcomp, text, htext, hcompile⟩ := exists_of_forall₂ hnodes (hperm.mem_iff.1 hnode)
    exact hparams c (List.mem_of_mem_filter hc) (hcomp ▸ hcode.symm) text _ htext hcompile name hname ht
  · obtain ⟨b, hb, hbcode⟩ := List.mem_map.1 hcode
    exact not_dependsOn_later (pairwise_of_ofSchema h) hplan hb ⟨name, Expr.name_mem_reads hname, ht.trans hbcode.symm⟩

/-- **A formula with a value has the same value later on**, when all outputs are stored. -/
theorem value_later (h : ofSchema s = .ok sc) (hshort : s.ShortNamesApart)
    (hinternal : ∀ code ∈ s.codes, Text.isInternal code = false) (hparams : s.ParamsApart)
    (hplan : sc.plan = before ++ node :: after) (hrun : Runs (sc.begin (sc.normalize raw)) before cx)
    (hl : l.map Prod.fst = (node :: after).map (·.code)) (hlast : sc.Reached (sc.normalize raw) (cx.storeAll l)) :
    Agree True (cx.value node.expr) ((cx.storeAll l).value node.expr) := by
  have hr : sc.Reached (sc.normalize raw) cx := ⟨before, node :: after, hplan, hrun⟩
  have hfields : cx.schema.fields = (cx.storeAll l).schema.fields := by rw [Context.storeAll_schema]
  have hinputs : cx.inputs = (cx.storeAll l).inputs := (Context.storeAll_inputs l cx).symm
  refine Context.value_agree hfields hinputs (fun name hname => ?_) fun f ps ks _ _ _ src v _ _ => ?_
  · have hsafe := isSafeName_of_mem_plan h (hplan ▸ List.mem_append_right _ List.mem_cons_self) hname
    rw [Context.value_name, Context.value_name]
    rcases lookup_later h hshort hinternal hplan hrun hl hlast hsafe with hsame | ⟨hcode, hnone⟩
    · rw [hsame]
      exact .refl _ _
    · -- a name whose code is still to come means nothing, and the formula had no value
      have ht : target s.aliases name ≠ "params" := fun ht => params_not_pending h hparams hplan hname ht (ht ▸ hcode)
      rw [hnone, if_neg ht]
      exact .inr ⟨trivial, _, rfl⟩
  · cases v with
    | text name =>
      by_cases hsafe : Text.isSafeName name = true
      · have hcode : cx.canonical name = (cx.storeAll l).canonical name := by
          rw [hr.canonical_eq h hshort hsafe, hlast.canonical_eq h hshort hsafe]
        refine Sheet.ofSource_agree hfields hinputs f hcode ?_
        refine (lookup_later h hshort hinternal hplan hrun hl hlast hsafe).imp_right fun ⟨_, hnone⟩ => ?_
        rw [hnone]
        split
        · exact .inr ⟨_, rfl⟩
        · exact .inl rfl
      · rw [Sheet.ofSource, Sheet.ofSource, if_neg hsafe, if_neg hsafe]
        exact .refl _ _
    | null | bool b | number n | list rows | map es => exact .inl (Sheet.ofSource_congr f (by simp))

end

/-- The outputs are those of the entries with a formula, and each is what its formula comes to in the final context. -/
def Settles (s : Schema) (sc : Scorer) (o : Outcome) : Prop :=
  (∀ k, o.outputs.contains k = true ↔ ∃ c ∈ s.computed, c.formulaText.isSome = true ∧ c.code = k) ∧
    ∃ cx, (sc.run Dialect.compile o.inputs : Result Context) = .ok cx ∧ cx.outputs = o.outputs ∧
      ∀ c ∈ s.computed, ∀ text, c.formulaText = some text → ∃ e v, Dialect.formula.compile text = .ok e ∧
        o.outputs.get? c.code = some v ∧ cx.value e = .ok v

/-- **What a sheet comes to is what its formulas say about the outputs as a whole**, although each formula ran when
only some of them were there. -/
theorem settles_of_score (h : ofSchema s = .ok sc) (hshort : s.ShortNamesApart)
    (hinternal : ∀ code ∈ s.codes, Text.isInternal code = false) (hparams : s.ParamsApart) {o : Outcome}
    (hscore : sc.score raw = .ok o) : Settles s sc o := by
  obtain ⟨cx, hrun, rfl⟩ := score_eq_ok_iff.1 hscore
  have hlast := reached_of_runs hrun
  obtain ⟨nodes, hnodes, hperm⟩ := plan_of_ofSchema h
  have hvalue : ∀ node ∈ sc.plan, ∃ v, cx.outputs.get? node.code = some v ∧ cx.value node.expr = .ok v := by
    intro node hnode
    obtain ⟨before, after, hplan⟩ := List.append_of_mem hnode
    obtain ⟨mid, v, hbefore, hv, hout, ⟨l, hl, rfl⟩, -⟩ := exists_value (nodup_order_of_ofSchema h) hplan hrun
    exact ⟨v, hout, (value_later h hshort hinternal hparams hplan hbefore hl hlast).eq_of_ok hv⟩
  refine ⟨fun k => ?_, cx, hrun, rfl, fun c hc text htext => ?_⟩
  · rw [← mem_order_of_ofSchema h]
    constructor
    · intro hk
      by_contra hnot
      rw [Table.contains, hlast.outputs_eq_none hnot] at hk
      cases hk
    · intro hk
      obtain ⟨node, hnode, rfl⟩ := List.mem_map.1 hk
      obtain ⟨v, hv, -⟩ := hvalue node hnode
      rw [Table.contains, hv]
      rfl
  · have hmem : c ∈ Schema.withFormula s.computed := List.mem_filter.2 ⟨hc, by rw [htext]; rfl⟩
    obtain ⟨node, hnode, hcomp, text', htext', hcompile⟩ := exists_of_forall₂ hnodes.flip hmem
    rw [htext] at htext'
    cases htext'
    obtain ⟨v, hout, hv⟩ := hvalue node (hperm.mem_iff.2 hnode)
    exact ⟨node.expr, v, hcompile, hcomp ▸ hout, hv⟩

theorem settles_of_score_short : ∃ s sc o, ofSchema s = .ok sc ∧ s.ShortNamesApart ∧
    (∀ code ∈ s.codes, Text.isInternal code = false) ∧ s.ParamsApart ∧ sc.score .empty = .ok o ∧ Settles s sc o := by
  let s := Schema.ofFormulas [("n", .number 2)] [("B", none, "a * params['n']"), ("A", some "a", "params['n'] + 1")]
  have hok : (ofSchema s >>= fun sc => sc.score .empty).isOk = true := by decide +kernel
  have hshort : s.ShortNamesApart := by decide +kernel
  have hinternal : ∀ code ∈ s.codes, Text.isInternal code = false := by decide +kernel
  have hcodes : ∀ c ∈ s.computed, c.code ≠ "params" := by decide +kernel
  have hparams : s.ParamsApart := fun c hc hcode => absurd hcode (hcodes c hc)
  obtain ⟨o, ho⟩ := exists_ok hok
  obtain ⟨sc, h, hscore⟩ := bind_eq_ok_iff.1 ho
  exact ⟨s, sc, o, h, hshort, hinternal, hparams, hscore, settles_of_score h hshort hinternal hparams hscore⟩

/-- **An entry in the place of the parameters may read them**, and then comes to something else once it is stored. -/
theorem not_settles_of_params : ¬ ∀ (s : Schema) (sc : Scorer) (raw : Table Value) (o : Outcome),
    ofSchema s = .ok sc → s.ShortNamesApart → (∀ code ∈ s.codes, Text.isInternal code = false) →
      sc.score raw = .ok o → Settles s sc o := by
  intro hall
  let s := Schema.ofFormulas [("n", .number 2)] [("params", none, "params['n']")]
  have hok : (ofSchema s >>= fun sc => sc.score .empty).isOk = true := by decide +kernel
  let again : Result Value := do
    let sc ← ofSchema s
    let o ← sc.score .empty
    let cx ← sc.run Dialect.compile o.inputs
    let e ← Dialect.formula.compile "params['n']"
    cx.value e
  have hbad : again.isOk = false := by decide +kernel
  obtain ⟨o, ho⟩ := exists_ok hok
  obtain ⟨sc, h, hscore⟩ := bind_eq_ok_iff.1 ho
  obtain ⟨-, cx, hrun, -, hsettled⟩ := hall s sc .empty o h (by decide +kernel) (by decide +kernel) hscore
  obtain ⟨e, v, hcompile, -, hv⟩ := hsettled _ List.mem_cons_self "params['n']" (by decide +kernel)
  have hgood : again = .ok v := bind_eq_ok_iff.2 ⟨sc, h, bind_eq_ok_iff.2 ⟨o, hscore, bind_eq_ok_iff.2 ⟨cx, hrun,
    bind_eq_ok_iff.2 ⟨e, hcompile, hv⟩⟩⟩⟩
  rw [hgood] at hbad
  cases hbad

end Scorer
end Scoresheet
