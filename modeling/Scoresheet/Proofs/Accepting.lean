import Mathlib.Data.List.Forall2
import Scoresheet.Proofs.Agreeing
import Scoresheet.Proofs.Placing
import Scoresheet.Scorer
/-!
# Accepted schemas

A schema has a scorer exactly when its codes are there and differ, its formulas compile, and an order of evaluation is
found (`ofSchema_eq_ok_iff`).  The plan of the scorer then holds the compiled formulas, each once, and none before one
that it depends on.
-/
namespace Scoresheet

/-! ## Steps that may fail -/

theorem bind_eq_ok_iff {ε α β : Type} {r : Except ε α} {f : α → Except ε β} {b : β} :
    r >>= f = .ok b ↔ ∃ a, r = .ok a ∧ f a = .ok b := by
  cases r with
  | error e =>
    constructor
    · intro h
      cases h
    · rintro ⟨_, h, _⟩
      cases h
  | ok a =>
    constructor
    · exact fun h => ⟨a, rfl, h⟩
    · rintro ⟨_, h, hf⟩
      cases h
      exact hf

theorem toOption_eq_some_iff {ε α : Type} {r : Except ε α} {a : α} : r.toOption = some a ↔ r = .ok a := by
  cases r with
  | error e => simp [Except.toOption]
  | ok b => simp [Except.toOption]

theorem exists_ok {α : Type} {r : Result α} (h : r.isOk = true) : ∃ a, r = .ok a := by
  cases r with
  | error e => cases h
  | ok a => exact ⟨a, rfl⟩

theorem mapM_eq_ok_iff {α β : Type} {f : α → Result β} : ∀ {l : List α} {m : List β},
    l.mapM f = .ok m ↔ List.Forall₂ (fun a b => f a = .ok b) l m
  | [], m => by
    rw [List.mapM_nil, List.forall₂_nil_left_iff]
    exact ⟨fun h => by cases h; rfl, fun h => by rw [h]; rfl⟩
  | a :: l, m => by
    rw [List.mapM_cons, bind_eq_ok_iff]
    constructor
    · rintro ⟨b, hb, h⟩
      obtain ⟨bs, hbs, h⟩ := bind_eq_ok_iff.1 h
      cases h
      exact .cons hb (mapM_eq_ok_iff.1 hbs)
    · intro h
      cases h with
      | cons hb hbs => exact ⟨_, hb, bind_eq_ok_iff.2 ⟨_, mapM_eq_ok_iff.2 hbs, rfl⟩⟩

/-! ## Codes -/

theorem codeFault?_eq_none_iff : ∀ {codes seen : List String}, Schema.codeFault? seen codes = none ↔
    (∀ c ∈ codes, Text.allBlank c = false ∧ c ∉ seen) ∧ codes.Nodup
  | [], seen => by simp [Schema.codeFault?]
  | code :: codes, seen => by
    rw [Schema.codeFault?, List.nodup_cons, List.forall_mem_cons]
    by_cases hblank : Text.allBlank code = true
    · simp [hblank]
    · by_cases hseen : code ∈ seen
      · simp [hblank, hseen]
      · rw [if_neg hblank, if_neg (by rwa [List.contains_iff_mem]), codeFault?_eq_none_iff]
        constructor
        · rintro ⟨hall, hn⟩
          refine ⟨⟨⟨Bool.not_eq_true _ ▸ hblank, hseen⟩, fun c hc => ⟨(hall c hc).1, fun h => ?_⟩⟩, fun h => ?_, hn⟩
          · exact (hall c hc).2 (List.mem_cons_of_mem _ h)
          · exact (hall code h).2 List.mem_cons_self
        · rintro ⟨⟨-, hall⟩, hcode, hn⟩
          refine ⟨fun c hc => ⟨(hall c hc).1, fun h => ?_⟩, hn⟩
          rcases List.mem_cons.1 h with rfl | h
          · exact hcode hc
          · exact (hall c hc).2 h

/-! ## Formulas -/

/-- What compiles has no node that the dialect has not. -/
theorem Dialect.fault?_of_compile {d : Dialect} {source : String} {e : Expr} (h : d.compile source = .ok e) :
    ∀ t ∈ e.subterms, d.fault? t = none := by
  unfold compile check at h
  split at h
  · cases h
  · split at h <;> rename_i hcheck
    · cases h
    · cases h
      split at hcheck <;> rename_i hfault
      · cases hcheck
      · cases hcheck
        exact List.findSome?_eq_none_iff.1 hfault

theorem isSafeName_of_compile {source : String} {e : Expr} (h : Dialect.formula.compile source = .ok e) {name : String}
    (hname : .name name ∈ e.subterms) : Text.isSafeName name = true := by
  have := Dialect.fault?_of_compile h _ hname
  rw [Dialect.fault?] at this
  split at this <;> rename_i hallows
  · exact hallows
  · cases this

/-- A node is the compiled formula of an entry. -/
def Computed.Compiles (c : Computed) (node : Node) : Prop :=
  node.code = c.code ∧ ∃ text, c.formulaText = some text ∧ Dialect.formula.compile text = .ok node.expr

/-- The entries that have a formula. -/
def Schema.withFormula (entries : List Computed) : List Computed := entries.filter fun c => c.formulaText.isSome

/-- The node of a code and the text of its formula. -/
def Schema.node (c : String × String) : Result Node :=
  match Dialect.formula.compile c.2 with
  | .ok e => .ok ⟨c.1, e⟩
  | .error err => .error (.computed c.1 err)

theorem node_eq_ok_iff {c : Computed} {text : String} (hc : c.formulaText = some text) {node : Node} :
    Schema.node (c.code, text) = .ok node ↔ c.Compiles node := by
  obtain ⟨code, e⟩ := node
  rw [Computed.Compiles, hc, Schema.node]
  cases hcomp : Dialect.formula.compile text with
  | error err => simp [hcomp]
  | ok e' => simp [hcomp, eq_comm]

theorem formulas_eq_ok_iff {entries : List Computed} {nodes : List Node} :
    Schema.formulas entries = .ok nodes ↔ List.Forall₂ Computed.Compiles (Schema.withFormula entries) nodes := by
  have hnode : Schema.formulas entries =
      (entries.filterMap fun c => c.formulaText.map (Prod.mk c.code)).mapM Schema.node := rfl
  rw [hnode, mapM_eq_ok_iff, Schema.withFormula]
  induction entries generalizing nodes with
  | nil => simp
  | cons c entries ih =>
    cases hc : c.formulaText with
    | none => simpa [hc] using ih rfl
    | some text =>
      simp only [List.filterMap_cons, hc, Option.map_some, List.filter_cons, Option.isSome_some, if_true]
      constructor
      · intro h
        cases h with
        | cons h hs => exact .cons ((node_eq_ok_iff hc).1 h) ((ih rfl).1 hs)
      · intro h
        cases h with
        | cons h hs => exact .cons ((node_eq_ok_iff hc).2 h) ((ih rfl).2 hs)

theorem codes_of_compiles {entries : List Computed} {nodes : List Node}
    (h : List.Forall₂ Computed.Compiles entries nodes) : nodes.map (·.code) = entries.map (·.code) := by
  induction h with
  | nil => rfl
  | cons hc _ ih => rw [List.map_cons, List.map_cons, hc.1, ih]

theorem exists_of_forall₂ {α β : Type} {R : α → β → Prop} {l : List α} {m : List β} (h : List.Forall₂ R l m) {b : β}
    (hb : b ∈ m) : ∃ a ∈ l, R a b := by
  induction h with
  | nil => cases hb
  | cons hab _ ih =>
    rcases List.mem_cons.1 hb with rfl | hb
    · exact ⟨_, List.mem_cons_self, hab⟩
    · obtain ⟨a, ha, hab⟩ := ih hb
      exact ⟨a, List.mem_cons_of_mem _ ha, hab⟩

/-- A schema with parameters and formulas only: each code with its short name, if any, and its formula. -/
def Schema.ofFormulas (params : List (String × Value)) (entries : List (String × Option String × String)) : Schema where
  params := .ofList params
  fields := []
  computed := entries.map fun e => ⟨e.1, none, some e.2.2, e.2.1, .empty⟩
  ui := none

/-! ## Scorers -/

namespace Scorer

theorem ofSchema_eq_ok_iff {s : Schema} {sc : Scorer} :
    ofSchema s = .ok sc ↔ ((∀ c ∈ s.codes, Text.allBlank c = false) ∧ s.codes.Nodup) ∧
      ∃ nodes l, List.Forall₂ Computed.Compiles (Schema.withFormula s.computed) nodes ∧
        Plan.order nodes s.aliases = .ok l ∧ sc = ⟨s, s.aliases, Plan.arranged nodes l⟩ := by
  have hcodes : Schema.codeFault? [] s.codes = none ↔ (∀ c ∈ s.codes, Text.allBlank c = false) ∧ s.codes.Nodup := by
    rw [codeFault?_eq_none_iff]
    simp only [List.not_mem_nil, not_false_eq_true, and_true]
  rw [ofSchema, ← hcodes]
  cases hfault : Schema.codeFault? [] s.codes with
  | some fault => simp
  | none =>
    simp only [true_and, bind_eq_ok_iff, formulas_eq_ok_iff]
    constructor
    · rintro ⟨nodes, hnodes, l, hl, h⟩
      cases h
      exact ⟨nodes, l, hnodes, hl, rfl⟩
    · rintro ⟨nodes, l, hnodes, hl, rfl⟩
      exact ⟨nodes, hnodes, l, hl, rfl⟩

section

variable {s : Schema} {sc : Scorer}

theorem schema_of_ofSchema (h : ofSchema s = .ok sc) : sc.schema = s := by
  obtain ⟨-, nodes, l, -, -, rfl⟩ := ofSchema_eq_ok_iff.1 h
  rfl

theorem aliases_of_ofSchema (h : ofSchema s = .ok sc) : sc.aliases = s.aliases := by
  obtain ⟨-, nodes, l, -, -, rfl⟩ := ofSchema_eq_ok_iff.1 h
  rfl

/-- **The plan of an accepted schema holds its compiled formulas**, each once. -/
theorem plan_of_ofSchema (h : ofSchema s = .ok sc) :
    ∃ nodes, List.Forall₂ Computed.Compiles (Schema.withFormula s.computed) nodes ∧ sc.plan.Perm nodes := by
  obtain ⟨-, nodes, l, hnodes, hl, rfl⟩ := ofSchema_eq_ok_iff.1 h
  exact ⟨nodes, hnodes, Plan.arranged_perm hl⟩

theorem nodup_codes_of_ofSchema (h : ofSchema s = .ok sc) : s.codes.Nodup := (ofSchema_eq_ok_iff.1 h).1.2

theorem order_perm_of_ofSchema (h : ofSchema s = .ok sc) :
    sc.order.Perm ((Schema.withFormula s.computed).map (·.code)) := by
  obtain ⟨nodes, hnodes, hperm⟩ := plan_of_ofSchema h
  rw [order, ← codes_of_compiles hnodes]
  exact hperm.map _

theorem mem_order_of_ofSchema (h : ofSchema s = .ok sc) {code : String} :
    code ∈ sc.order ↔ ∃ c ∈ s.computed, c.formulaText.isSome = true ∧ c.code = code := by
  rw [(order_perm_of_ofSchema h).mem_iff, Schema.withFormula, List.mem_map]
  simp only [List.mem_filter, and_assoc]

theorem nodup_withFormula {codes : List String} {entries : List Computed}
    (h : (codes ++ entries.map (·.code)).Nodup) : ((Schema.withFormula entries).map (·.code)).Nodup :=
  (List.nodup_append.1 h).2.1.sublist (List.filter_sublist.map _)

theorem nodup_order_of_ofSchema (h : ofSchema s = .ok sc) : sc.order.Nodup :=
  (order_perm_of_ofSchema h).nodup_iff.2 (nodup_withFormula (nodup_codes_of_ofSchema h))

theorem pairwise_of_ofSchema (h : ofSchema s = .ok sc) :
    sc.plan.Pairwise fun a b => ¬ a.DependsOn s.aliases b := by
  obtain ⟨⟨-, hcodes⟩, nodes, l, hnodes, hl, rfl⟩ := ofSchema_eq_ok_iff.1 h
  exact Plan.arranged_pairwise (codes_of_compiles hnodes ▸ nodup_withFormula hcodes) hl

/-- What holds of every formula of a schema, compiled, holds of every node of the plan. -/
theorem forall_mem_plan (h : ofSchema s = .ok sc) (test : Node → Bool)
    (htest : ∀ c ∈ s.computed, ∀ text ∈ c.formulaText,
      ((Dialect.formula.compile text).map fun e => test ⟨c.code, e⟩).toOption = some true) :
    ∀ node ∈ sc.plan, test node = true := by
  intro node hnode
  obtain ⟨nodes, hnodes, hperm⟩ := plan_of_ofSchema h
  obtain ⟨c, hc, hcode, text, htext, hcompile⟩ := exists_of_forall₂ hnodes (hperm.mem_iff.1 hnode)
  have hsome := htest c (List.mem_of_mem_filter hc) text htext
  rw [hcompile, ← hcode] at hsome
  exact Option.some.inj hsome

theorem isSafeName_of_mem_plan (h : ofSchema s = .ok sc) {node : Node} (hnode : node ∈ sc.plan) {name : String}
    (hname : .name name ∈ node.expr.subterms) : Text.isSafeName name = true := by
  obtain ⟨nodes, hnodes, hperm⟩ := plan_of_ofSchema h
  obtain ⟨c, -, -, text, -, hcompile⟩ := exists_of_forall₂ hnodes (hperm.mem_iff.1 hnode)
  exact isSafeName_of_compile hcompile hname

end

end Scorer
end Scoresheet
