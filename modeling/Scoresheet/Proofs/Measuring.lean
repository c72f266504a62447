import Mathlib.Data.List.Induction
import Scoresheet.Proofs.Foretelling
import Scoresheet.Proofs.Owning
/-!
# Row counts found without inputs

The dry run of a clean schema finds a shape for each formula.  Where it knows the rows to be other than one the formula
comes to a list of as many entries (`fits_of_lint`).  The proof goes along the plan: what the dry run tells of codes
holds of what they mean (`Scorer.Tells`), so the next formula comes to what is found of it, and its output is known
from then on.

Left out are formulas that are not sure, and codes whose rows come from one of these (`Shapes.doubts`).  Codes must
stand for themselves, too: the dry run and evaluation look up a name that is taken in different places
(`not_fits_of_lint`).
-/
namespace Scoresheet

open Plan (target)

namespace Shapes

/-! ## The dry run -/

/-- The shapes once a node is known.  Nothing is known of one that does not fit. -/
def record (s : Shapes) (node : Node) : Shapes := s.store node.code ((s.infer node.expr).toOption.getD .unknown)

/-- The shapes once all nodes are known, the first one first. -/
def dryRun (s : Shapes) (nodes : List Node) : Shapes := nodes.foldl record s

/-- The codes in doubt once all nodes are known: those of formulas that are not sure, given the codes in doubt before
them. -/
def doubts : Shapes → List String → List Node → List String
  | _, ds, [] => ds
  | s, ds, node :: nodes => doubts (s.record node) (if s.isSure ds node.expr then ds else node.code :: ds) nodes

theorem doubts_concat (node : Node) : ∀ (before : List Node) (s : Shapes) (ds : List String),
    s.doubts ds (before ++ [node]) =
      if (s.dryRun before).isSure (s.doubts ds before) node.expr then s.doubts ds before
      else node.code :: s.doubts ds before
  | [], _, _ => rfl
  | b :: before, s, _ => doubts_concat node before (s.record b) _

theorem infer_of_shapeProblems {nodes : List Node} : ∀ {l : List Nat} {s : Shapes}, Lint.shapeProblems s nodes l = [] →
    ∀ {before node after}, Plan.arranged nodes l = before ++ node :: after →
      ∃ shape, (s.dryRun before).infer node.expr = .ok shape
  | [], s, _, before, node, after, hplan => by
    rw [Plan.arranged, List.filterMap_nil] at hplan
    exact absurd hplan.symm (by simp)
  | i :: l, s, h, before, node, after, hplan => by
    rw [Lint.shapeProblems] at h
    rw [Plan.arranged, List.filterMap_cons] at hplan
    cases hi : nodes[i]? with
    | none =>
      rw [hi] at h hplan
      exact infer_of_shapeProblems h hplan
    | some first =>
      rw [hi] at h hplan
      cases hfirst : s.infer first.expr with
      | error fault =>
        simp only [hfirst] at h
        cases h
      | ok shape =>
        simp only [hfirst] at h
        cases before with
        | nil =>
          rw [List.nil_append, List.cons.injEq] at hplan
          obtain ⟨rfl, -⟩ := hplan
          exact ⟨shape, hfirst⟩
        | cons b before =>
          rw [List.cons_append, List.cons.injEq] at hplan
          obtain ⟨rfl, hplan⟩ := hplan
          have hrecord : s.record first = s.store first.code shape := by
            rw [record, hfirst]
            rfl
          rw [← hrecord] at h
          exact infer_of_shapeProblems h hplan

/-! ## Names -/

/-- A shape is stored for a code and for the short names of that code. -/
theorem known_store (s : Shapes) (code : String) (shape : Shape) (name : String) :
    (s.store code shape).known.get? name =
      if name = code ∨ s.aliases.get? name = some code then some shape else s.known.get? name := by
  have hput := get?_foldl_insert code shape name s.aliases.entries s.known s.aliases.sorted
  rw [store, Table.get?_insert, hput]
  by_cases hname : name = code
  · rw [if_pos hname, if_pos (.inl hname)]
  · rw [if_neg hname]
    have hshort : (name = code ∨ s.aliases.get? name = some code) ↔ Table.find? name s.aliases.entries = some code :=
      or_iff_right hname
    simp only [hshort]

theorem known_store_of_target {s : Shapes} {code : String} (hcode : target s.aliases code = code) (shape : Shape)
    (name : String) : (s.store code shape).known.get? name =
      if target s.aliases name = code then some shape else s.known.get? name := by
  have hstands : (name = code ∨ s.aliases.get? name = some code) ↔ target s.aliases name = code := by
    by_cases hname : name = code
    · simp [hname, hcode]
    · cases hshort : s.aliases.get? name with
      | none => simp [target, hshort, hname]
      | some c => simp [target, hshort, hname]
  simp only [known_store, hstands]

theorem mem_of_get?_ofList {α : Type} {k : String} {v : α} {l : List (String × α)}
    (h : (Table.ofList l).get? k = some v) : (k, v) ∈ l := by
  rw [Table.ofList] at h
  suffices ∀ (l : List (String × α)) (t : Table α), (l.foldl (fun t e => t.insert e.1 e.2) t).get? k = some v →
      (k, v) ∈ l ∨ t.get? k = some v from (this l .empty h).resolve_right (by simp)
  intro l
  induction l with
  | nil => exact fun t h => .inr h
  | cons e l ih =>
    intro t h
    rcases ih _ h with hmem | hput
    · exact .inl (List.mem_cons_of_mem _ hmem)
    · rw [Table.get?_insert] at hput
      split at hput
      · rename_i hk
        cases hput
        exact .inl (hk ▸ List.mem_cons_self)
      · exact .inr hput

/-- What holds of codes holds of short names once they are known by what they stand for. -/
theorem forall_of_foldl_short {P : String → Shape → Prop} : ∀ (l : List (String × String)) (t : Table Shape),
    (∀ e ∈ l, ∀ shape, P e.2 shape → P e.1 shape) → (∀ name shape, t.get? name = some shape → P name shape) →
      ∀ name shape, (l.foldl (fun t e =>
        match t.get? e.2 with
        | some shape => t.insert e.1 shape
        | none => t) t).get? name = some shape → P name shape
  | [], _, _, ht => ht
  | e :: l, t, hl, ht => by
    obtain ⟨he, hl⟩ := List.forall_mem_cons.1 hl
    refine forall_of_foldl_short l _ hl fun name shape hname => ?_
    cases hcode : t.get? e.2 with
    | none =>
      simp only [hcode] at hname
      exact ht name shape hname
    | some own =>
      simp only [hcode, Table.get?_insert] at hname
      split at hname
      · rename_i hkey
        cases hname
        rw [hkey]
        exact he _ (ht _ _ hcode)
      · exact ht name shape hname

/-- What the declarations say of a code. -/
def Declares (schema : Schema) (code : String) (shape : Shape) : Prop :=
  code = "params" ∧ shape = .scalar ∨ ∃ f ∈ schema.fields, f.code.isEmpty = false ∧ f.code = code ∧ shape = .ofField f

theorem target_params {schema : Schema} {nodes : List Node} (hfit : schema.Fit nodes) :
    target schema.aliases "params" = "params" := by
  have hnone : schema.aliases.get? "params" = none := by
    rw [Option.eq_none_iff_forall_ne_some]
    intro code hcode
    have hkey := List.mem_map_of_mem (f := Prod.fst) ((Table.get?_eq_some_iff _).1 hcode)
    exact hfit.shortName_ne_params hkey rfl
  rw [target, hnone, Option.getD_none]

/-- **At first what is known of a name is what the declarations say of the code it stands for.** -/
theorem known_start {schema : Schema} {nodes : List Node} (hfit : schema.Fit nodes) (hcodes : schema.CodesApart)
    {name : String} {shape : Shape} (h : (start schema schema.aliases).known.get? name = some shape) :
    Declares schema (target schema.aliases name) shape := by
  refine forall_of_foldl_short (P := fun name => Declares schema (target schema.aliases name)) schema.aliases.entries _
    (fun e he shape hcode => ?_) (fun name shape hown => ?_) name shape h
  · have htarget : target schema.aliases e.1 = e.2 := by
      rw [target, (Table.get?_eq_some_iff schema.aliases).2 he, Option.getD_some]
    rwa [htarget, ← hcodes e.2 (hfit.short e he).2.2]
  · rw [Table.get?_insert] at hown
    split at hown
    · rename_i hparams
      cases hown
      exact .inl ⟨by rw [hparams, target_params hfit], rfl⟩
    · obtain ⟨f, hf, he⟩ := List.mem_map.1 (mem_of_get?_ofList hown)
      obtain ⟨hf, hempty⟩ := List.mem_filter.1 hf
      cases he
      have hcode := hcodes f.code (Schema.mem_codes_of_field hf)
      exact .inr ⟨f, hf, by simpa using hempty, hcode.symm, rfl⟩

end Shapes

/-! ## Runs -/

namespace Scorer

variable {s : Schema} {nodes : List Node} {sc : Scorer} {raw : Table Value} {cx : Context} {shapes : Shapes}
variable {ds ds' : List String}

/-- What is known of a name holds of what the code means that it stands for, codes in doubt apart. -/
structure Tells (shapes : Shapes) (ds : List String) (cx : Context) : Prop where
  schema : shapes.schema = cx.schema
  aliases : shapes.aliases = cx.aliases
  known : ∀ name shape r, target cx.aliases name ∉ ds → shapes.known.get? name = some shape → shape.rows = some r →
    r ≠ 1 → ∃ v, cx.meaning (target cx.aliases name) = some v ∧ v.HasEntries r

theorem Tells.store {code : String} {shape : Shape} {v : Value} (h : Tells shapes ds cx)
    (hcode : target cx.aliases code = code) (hsub : ds ⊆ ds') (hv : code ∉ ds' → shape.Fits v) :
    Tells (shapes.store code shape) ds' (cx.store code v) := by
  refine ⟨h.schema, h.aliases, fun name shape' r hsure hname hr hne => ?_⟩
  rw [Shapes.known_store_of_target (h.aliases ▸ hcode), h.aliases] at hname
  show ∃ w, (cx.store code v).meaning (target cx.aliases name) = some w ∧ w.HasEntries r
  rw [Context.meaning_store]
  split at hname
  · rename_i htarget
    cases hname
    rw [if_pos htarget]
    exact ⟨v, rfl, hv (htarget ▸ hsure) r hr hne⟩
  · rename_i htarget
    rw [if_neg htarget]
    exact h.known name shape' r (fun hmem => hsure (hsub hmem)) hname hr hne

theorem hasEntries_normal {f : Field} {r : Nat} (hr : (Shape.ofField f).rows = some r) (hne : r ≠ 1) (v : Value) :
    (f.normal v).HasEntries r := by
  rw [Shape.ofField] at hr
  rw [Field.normal]
  cases hlayout : f.layout with
  | scalar =>
    rw [hlayout] at hr
    exact absurd (Option.some.inj hr).symm hne
  | judgeVector =>
    rw [hlayout] at hr
    obtain rfl := Option.some.inj hr
    exact ⟨_, rfl, by simp⟩
  | matrix =>
    rw [hlayout] at hr
    obtain rfl := Option.some.inj hr
    exact ⟨_, rfl, by simp⟩
  | passthrough =>
    rw [hlayout] at hr
    cases hr

section

variable (hfit : s.Fit nodes) (hcodes : s.CodesApart) (hcrash : s.CrashKeysApart) (hsc : ofSchema s = .ok sc)

include hfit hcodes hcrash hsc

/-- The declarations tell of the inputs. -/
theorem tells_begin (raw : Table Value) : Tells (Shapes.start s s.aliases) ds (sc.begin (sc.normalize raw)) := by
  have hschema := schema_of_ofSchema hsc
  have haliases := aliases_of_ofSchema hsc
  refine ⟨hschema.symm, haliases.symm, fun name shape r _ hname hr hne => ?_⟩
  have hreached : sc.Reached (sc.normalize raw) (sc.begin (sc.normalize raw)) := ⟨[], sc.plan, rfl, runs_nil.2 rfl⟩
  show ∃ v, (sc.begin (sc.normalize raw)).meaning (target sc.aliases name) = some v ∧ v.HasEntries r
  rw [haliases]
  rcases Shapes.known_start hfit hcodes hname with ⟨-, rfl⟩ | ⟨f, hf, hempty, hcode, rfl⟩
  · exact absurd (Option.some.inj hr).symm hne
  · have hparams := hfit.ne_params (Schema.mem_codes_of_field hf)
    rw [← hcode, hreached.meaning_field hsc hf hparams, normalize, hschema]
    refine ⟨_, get?_normalize_code (Schema.nodup_fields hfit.nodup) hf hempty fun g hg htracks he => ?_,
      hasEntries_normal hr hne _⟩
    exact hcrash g hg htracks (he ▸ List.mem_map_of_mem hf)

/-- **Where the dry run tells of codes in a run it knows of names.** -/
theorem Tells.knows (h : Tells shapes ds cx) (hr : sc.Reached (sc.normalize raw) cx) : shapes.Knows ds cx := by
  have hschema : cx.schema = s := by rw [hr.schema_eq, schema_of_ofSchema hsc]
  have haliases : cx.aliases = s.aliases := by rw [hr.aliases_eq, aliases_of_ofSchema hsc]
  refine ⟨h.schema, h.aliases, fun name => ?_, fun name r hsafe hsure hrows hne => ?_, fun f hf htracks => ?_⟩
  · rw [haliases]
    exact Schema.Fit.canonical_eq hcodes hsc hr name
  · obtain ⟨shape, hknown, hrows⟩ := Option.bind_eq_some_iff.1 hrows
    rw [hfit.lookup_eq hcodes hsc hr hsafe, ← haliases]
    exact h.known name shape r (h.aliases ▸ hsure) hknown hrows hne
  · rw [hschema] at hf
    have hempty := Text.isEmpty_of_isIdentifier (hfit.code _ (Schema.mem_codes_of_field hf)).1
    have hinput := @get?_normalize_crashKey _ _ raw (Schema.nodup_fields hfit.nodup) hf hempty htracks
      (hcrash f hf htracks)
    rw [Context.crashes, hr.inputs_eq, normalize, schema_of_ofSchema hsc, hinput]
    simp [Value.ofScores, Value.items]

/-- **The next formula comes to what is found of it**, if it is sure. -/
theorem Tells.fits (h : Tells shapes ds cx) {node : Node} (hm : sc.Meets (sc.normalize raw) cx node)
    (hsure : shapes.isSure ds node.expr = true) {shape : Shape} {v : Value}
    (hinfer : shapes.infer node.expr = .ok shape) (hv : cx.value node.expr = .ok v) : shape.Fits v := by
  have hknows : shapes.Knows ds cx := h.knows hfit hcodes hcrash hsc hm.reached
  refine Shapes.sound hknows node.expr ⟨fun name hname => ?_, List.all_eq_true.1 hsure⟩ shape v hinfer hv
  exact isSafeName_of_mem_plan hsc hm.mem_plan (Expr.rowParts_subset _ hname)

/-- The dry run tells of what a formula adds. -/
theorem Tells.record (h : Tells shapes ds cx) {node : Node} (hm : sc.Meets (sc.normalize raw) cx node) {v : Value}
    (hv : cx.value node.expr = .ok v) : Tells (shapes.record node)
      (if shapes.isSure ds node.expr then ds else node.code :: ds) (cx.store node.code v) := by
  have htarget : target cx.aliases node.code = node.code := by
    rw [hm.reached.aliases_eq, aliases_of_ofSchema hsc]
    exact hcodes _ (mem_codes_of_mem_order hsc (List.mem_map_of_mem hm.mem_plan)).1
  split
  · rename_i hsure
    refine h.store htarget (List.Subset.refl _) fun _ => ?_
    cases hinfer : shapes.infer node.expr with
    | error fault => exact fits_of_rows (.inl rfl) v
    | ok shape => exact h.fits hfit hcodes hcrash hsc hm hsure hinfer hv
  · exact h.store htarget (List.subset_cons_self _ _) fun hnot => absurd List.mem_cons_self hnot

/-- **The dry run tells of every context that a run comes to.** -/
theorem tells_dryRun {before after : List Node} (hplan : sc.plan = before ++ after)
    (hrun : Runs (sc.begin (sc.normalize raw)) before cx) :
    Tells ((Shapes.start s s.aliases).dryRun before) ((Shapes.start s s.aliases).doubts [] before) cx := by
  induction before using List.reverseRecOn generalizing cx after with
  | nil =>
    rw [runs_nil.1 hrun]
    exact tells_begin hfit hcodes hcrash hsc raw
  | append_singleton before node ih =>
    obtain ⟨mid, hbefore, hnode⟩ := runs_append.1 hrun
    obtain ⟨v, hv, hnil⟩ := runs_cons.1 hnode
    rw [List.append_assoc, List.singleton_append] at hplan
    rw [runs_nil.1 hnil, Shapes.doubts_concat, Shapes.dryRun, List.foldl_concat]
    exact (ih hplan hbefore).record hfit hcodes hcrash hsc ⟨before, after, hplan, hbefore⟩ hv

end

end Scorer

/-- **In a clean schema whose codes stand for themselves the dry run finds a shape for each formula, and each output
has it** if the formula is sure. -/
theorem fits_of_lint {s : Schema} (hlint : lint s = []) (hcodes : s.CodesApart) (hcrash : s.CrashKeysApart) :
    ∃ sc, Scorer.ofSchema s = .ok sc ∧ ∀ raw o, sc.score raw = .ok o → ∀ before node after,
      sc.plan = before ++ node :: after → ∃ shape v,
        ((Shapes.start s s.aliases).dryRun before).infer node.expr = .ok shape ∧ o.outputs.get? node.code = some v ∧
          (((Shapes.start s s.aliases).dryRun before).isSure ((Shapes.start s s.aliases).doubts [] before) node.expr =
            true → shape.Fits v) := by
  obtain ⟨nodes, l, hfit, hl, hshapes⟩ := exists_fit_of_lint hlint
  have hsc := hfit.ofSchema_eq hl
  refine ⟨_, hsc, fun raw o ho before node after hplan => ?_⟩
  obtain ⟨last, hrun, rfl⟩ := Scorer.score_eq_ok_iff.1 ho
  obtain ⟨shape, hinfer⟩ := Shapes.infer_of_shapeProblems hshapes hplan
  obtain ⟨cx, v, hbefore, hv, hout, -, -⟩ := Scorer.exists_value (Scorer.nodup_order_of_ofSchema hsc) hplan hrun
  have htells := Scorer.tells_dryRun hfit hcodes hcrash hsc hplan hbefore
  have hm : Scorer.Meets _ _ cx node := ⟨before, after, hplan, hbefore⟩
  exact ⟨shape, v, hinfer, hout, fun hsure => htells.fits hfit hcodes hcrash hsc hm hsure hinfer hv⟩

/-- Marks of so many judges. -/
def Field.ofMarks (code : String) (judges : Score) (var : Option String) : Field :=
  { Field.ofNumber code var with kind := some "list", shape := some "judge", judges := some ⟨some judges⟩ }

/-- Marks of so many judges for so many items, and where each judge saw a crash. -/
def Field.ofGrid (code : String) (judges items : Score) (var : Option String) : Field :=
  { Field.ofNumber code var with
    kind := some "matrix", shape := some "judge_x_item", judges := some ⟨some judges⟩, items := some ⟨some items⟩,
    crash := some true }

theorem fits_of_lint_grid : ∃ (s : Schema) (sc : Scorer) (o : Outcome) (v : Value), lint s = [] ∧ s.CodesApart ∧
    s.CrashKeysApart ∧ Scorer.ofSchema s = .ok sc ∧ sc.score .empty = .ok o ∧ o.outputs.get? "T" = some v ∧
      v.HasEntries 2 := by
  let s : Schema := { Schema.ofFormulas []
      [("T", none, "exec_by_judge(e, k, params)"), ("K", some "k", "crash('E')"), ("S", none, "sum([1, 2] + [3, 4])")] with
    fields := [.ofGrid "E" 2 3 (some "e")] }
  have hlint : lint s = [] := by decide +kernel
  have hcodes : s.CodesApart := by decide +kernel
  have hcrash : s.CrashKeysApart := by decide +kernel
  have hlast : ((Scorer.ofSchema s).toOption.bind fun sc => sc.plan[2]?.map fun last =>
      (last.code, ((Shapes.start s s.aliases).dryRun (sc.plan.take 2)).isSure
        ((Shapes.start s s.aliases).doubts [] (sc.plan.take 2)) last.expr,
        (((Shapes.start s s.aliases).dryRun (sc.plan.take 2)).infer last.expr).toOption)) =
      some ("T", true, some (.column (some 2))) := by decide +kernel
  have hok : (Scorer.ofSchema s >>= fun sc => sc.score .empty).isOk = true := by decide +kernel
  obtain ⟨sc, hsc, hfits⟩ := fits_of_lint hlint hcodes hcrash
  obtain ⟨o, ho⟩ := exists_ok hok
  obtain ⟨sc', hsc', ho⟩ := bind_eq_ok_iff.1 ho
  rw [hsc] at hsc'
  cases hsc'
  rw [toOption_eq_some_iff.2 hsc, Option.bind_some] at hlast
  obtain ⟨last, hget, hfacts⟩ := Option.map_eq_some_iff.1 hlast
  obtain ⟨hlt, rfl⟩ := List.getElem?_eq_some_iff.1 hget
  have hplan : sc.plan = sc.plan.take 2 ++ sc.plan[2] :: sc.plan.drop 3 := by
    rw [← List.drop_eq_getElem_cons hlt, List.take_append_drop]
  obtain ⟨shape, v, hinfer, hv, hfit⟩ := hfits .empty o ho _ _ _ hplan
  rw [hinfer] at hfacts
  obtain ⟨hcode, hsure, hshape⟩ := by simpa using hfacts
  rw [hcode] at hv
  cases hshape
  exact ⟨s, sc, o, v, hlint, hcodes, hcrash, hsc, ho, hv, hfit hsure 2 rfl (by decide)⟩

/-- Clean schemas with an output of other length than found: two lists joined, the items of a window, crash positions
under a short name, a short name that takes a code, and a code that is a crash key. -/
def misfits : List Schema :=
  [Schema.ofFormulas [] [("T", none, "[1, 2] + [3, 4]")],
   { Schema.ofFormulas [] [("T", none, "column_custom_compute('E', start=1, return_mode='by_item')")] with
     fields := [.ofGrid "E" 1 3 none] },
   { Schema.ofFormulas [] [("T", none, "crash('e')")] with fields := [.ofGrid "E" 2 1 (some "e")] },
   { Schema.ofFormulas [("aliases", .map [("c", .text "B")])] [("T", none, "c")] with
     fields := [.ofMarks "A" 2 (some "B"), .ofMarks "B" 3 none] },
   { Schema.ofFormulas [] [("T", none, "k")] with
     fields := [.ofMarks "__crash__E" 2 (some "k"), .ofGrid "E" 3 1 none] }]

theorem misfits_fail : ∀ s ∈ misfits, lint s = [] ∧ ∃ sc o node after shape v, Scorer.ofSchema s = .ok sc ∧
    sc.score .empty = .ok o ∧ sc.plan = node :: after ∧ (Shapes.start s s.aliases).infer node.expr = .ok shape ∧
      o.outputs.get? node.code = some v ∧ ¬ shape.Fits v := by
  have hall : ∀ s ∈ misfits, lint s = [] ∧ ((Scorer.ofSchema s).toOption.bind fun sc =>
      (sc.score .empty).toOption.bind fun o => sc.plan.head?.bind fun node =>
      ((Shapes.start s s.aliases).infer node.expr).toOption.bind fun shape =>
      (o.outputs.get? node.code).map fun v => decide (shape.Fits v)) = some false := by decide +kernel
  intro s hs
  obtain ⟨hlint, hfails⟩ := hall s hs
  obtain ⟨sc, hsc, hfails⟩ := Option.bind_eq_some_iff.1 hfails
  obtain ⟨o, ho, hfails⟩ := Option.bind_eq_some_iff.1 hfails
  obtain ⟨node, hnode, hfails⟩ := Option.bind_eq_some_iff.1 hfails
  obtain ⟨shape, hshape, hfails⟩ := Option.bind_eq_some_iff.1 hfails
  obtain ⟨v, hv, hmisfit⟩ := Option.map_eq_some_iff.1 hfails
  obtain ⟨after, hplan⟩ := List.head?_eq_some_iff.1 hnode
  rw [toOption_eq_some_iff] at hsc ho hshape
  exact ⟨hlint, sc, o, node, after, shape, v, hsc, ho, hplan, hshape, hv, of_decide_eq_false hmisfit⟩

/-- **A clean lint does not make every output as long as the dry run found.** -/
theorem not_fits_of_lint : ¬ ∀ (s : Schema) (sc : Scorer) (raw : Table Value) (o : Outcome), lint s = [] →
    Scorer.ofSchema s = .ok sc → sc.score raw = .ok o → ∀ before node after shape v,
      sc.plan = before ++ node :: after → ((Shapes.start s s.aliases).dryRun before).infer node.expr = .ok shape →
        o.outputs.get? node.code = some v → shape.Fits v := by
  intro hall
  obtain ⟨hlint, sc, o, node, after, shape, v, hsc, ho, hplan, hshape, hv, hmisfit⟩ :=
    misfits_fail _ List.mem_cons_self
  exact hmisfit (hall _ sc .empty o hlint hsc ho [] node after shape v hplan hshape hv)

end Scoresheet
