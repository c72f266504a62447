import Scoresheet.Lint
import Scoresheet.Proofs.Accepting
/-!
# What a clean lint promises

A schema in which no problem is found has codes and short names that are identifiers, not reserved and all different,
formulas that compile and read declared names only, and an order of evaluation (`Fit`).  All that follows from a clean
lint follows from these.
-/
namespace Scoresheet

/-! ## Identifiers -/

namespace Text

/-- The blanks by their numbers. -/
def blanks : List Nat :=
  [9, 10, 11, 12, 13, 0x20, 0x85, 0xa0, 0x1680, 0x2000, 0x2001, 0x2002, 0x2003, 0x2004, 0x2005, 0x2006, 0x2007, 0x2008,
   0x2009, 0x200a, 0x2028, 0x2029, 0x202f, 0x205f, 0x3000]

theorem mem_blanks {c : Char} (h : isBlank c = true) : c.toNat ∈ blanks := by
  simp only [isBlank, Bool.or_eq_true, decide_eq_true_eq, beq_iff_eq] at h
  simp only [blanks, List.mem_cons, List.not_mem_nil, or_false]
  omega

theorem isBlank_of_continuesName {c : Char} (h : continuesName c = true) : isBlank c = false := by
  have hblanks : ∀ n ∈ blanks, inRanges n letterRanges = false ∧ inRanges n numeralRanges = false ∧ n ≠ '_'.toNat := by
    decide +kernel
  rw [Bool.eq_false_iff]
  intro hb
  obtain ⟨hletter, hnumeral, hne⟩ := hblanks _ (mem_blanks hb)
  simp only [continuesName, isWordChar, hletter, hnumeral, Bool.false_or, beq_iff_eq] at h
  exact hne (congrArg Char.toNat h)

/-- An identifier has at least one character, and none of its characters is blank. -/
theorem notBlank_of_isIdentifier {s : String} (h : isIdentifier s = true) :
    s.toList ≠ [] ∧ ∀ c ∈ s.toList, isBlank c = false := by
  unfold isIdentifier at h
  split at h
  · cases h
  · rename_i c cs hs
    rw [hs]
    rw [Bool.and_eq_true, List.all_eq_true] at h
    refine ⟨by simp, fun c' hc' => isBlank_of_continuesName ?_⟩
    rcases List.mem_cons.1 hc' with rfl | hc'
    · exact continuesName_of_startsName h.1
    · exact h.2 c' hc'

theorem allBlank_of_isIdentifier {s : String} (h : isIdentifier s = true) : allBlank s = false := by
  obtain ⟨hne, hall⟩ := notBlank_of_isIdentifier h
  rw [Bool.eq_false_iff, allBlank, Ne, List.all_eq_true]
  intro hblank
  obtain ⟨c, hc⟩ := List.exists_mem_of_ne_nil _ hne
  have := hall c hc
  rw [hblank c hc] at this
  cases this

theorem isEmpty_of_isIdentifier {s : String} (h : isIdentifier s = true) : s.isEmpty = false := by
  rw [Bool.eq_false_iff]
  intro he
  rw [String.isEmpty_iff] at he
  rw [he] at h
  cases h

theorem dropWhile_isBlank {cs : List Char} (h : ∀ c ∈ cs, isBlank c = false) : cs.dropWhile isBlank = cs := by
  cases cs with
  | nil => rfl
  | cons c cs => rw [List.dropWhile_cons, h c List.mem_cons_self, if_neg Bool.false_ne_true]

theorem trim_of_isIdentifier {s : String} (h : isIdentifier s = true) : trim s = s := by
  have hall := (notBlank_of_isIdentifier h).2
  rw [trim, trimChars, dropWhile_isBlank hall, dropWhile_isBlank fun c hc => hall c (List.mem_reverse.1 hc),
    List.reverse_reverse, String.ofList_toList]

end Text

/-! ## Declarations -/

namespace Lint

theorem orElse_eq_nil_iff {found next : List Problem} : orElse found next = [] ↔ found = [] ∧ next = [] := by
  cases found with
  | nil => simp [orElse]
  | cons p found => simp [orElse]

theorem report_eq_nil_iff {bad : Bool} {p : Problem} : report bad p = [] ↔ bad = false := by
  cases bad <;> simp [report]

/-- The short names that declarations give. -/
def shorts (ds : List Declaration) : List String := ds.filterMap fun d => d.var.filter fun v => !v.isEmpty

theorem shorts_cons_of_none {d : Declaration} {ds : List Declaration} (h : (d.var.filter fun v => !v.isEmpty) = none) :
    shorts (d :: ds) = shorts ds := by
  rw [shorts, List.filterMap_cons, h, shorts]

theorem shorts_cons_of_some {d : Declaration} {ds : List Declaration} {v : String}
    (h : (d.var.filter fun v => !v.isEmpty) = some v) : shorts (d :: ds) = v :: shorts ds := by
  rw [shorts, List.filterMap_cons, h, shorts]

/-- A name that an entry may take. -/
def IsFree (taken : List String) (name : String) : Prop :=
  Text.isIdentifier name = true ∧ isReserved name = false ∧ name ∉ taken

theorem isFree_of_ownProblems {codes : List String} {place : Place}
    (h : report (!Text.isIdentifier place.code) (.malformedCode place) ++
      report (isReserved place.code) (.reservedCode place) ++
      report (codes.contains place.code) (.duplicateCode place) = []) : IsFree codes place.code := by
  rw [List.append_eq_nil_iff, List.append_eq_nil_iff] at h
  obtain ⟨⟨hid, hres⟩, hdup⟩ := h
  rw [report_eq_nil_iff] at hid hres hdup
  exact ⟨by simpa using hid, hres, by simpa using hdup⟩

theorem isFree_of_varProblems {vars : List String} {place : Place} {var : String}
    (h : varProblems vars place var = []) : IsFree vars var := by
  rw [varProblems] at h
  split at h
  · cases h
  · rename_i hid
    rw [List.append_eq_nil_iff] at h
    obtain ⟨hres, hdup⟩ := h
    rw [report_eq_nil_iff] at hres hdup
    exact ⟨by simpa using hid, hres, by simpa using hdup⟩

/-- Names that may be taken one after the other. -/
structure AllFree (taken names : List String) : Prop where
  free : ∀ name ∈ names, IsFree taken name
  nodup : names.Nodup

theorem AllFree.nil (taken : List String) : AllFree taken [] := ⟨by simp, List.nodup_nil⟩

theorem AllFree.cons {taken names : List String} {name : String} (h : AllFree (name :: taken) names)
    (hname : IsFree taken name) : AllFree taken (name :: names) := by
  refine ⟨List.forall_mem_cons.2 ⟨hname, fun other hother => ?_⟩, List.nodup_cons.2 ⟨fun hmem => ?_, h.nodup⟩⟩
  · obtain ⟨hid, hres, hnot⟩ := h.free other hother
    exact ⟨hid, hres, fun hmem => hnot (List.mem_cons_of_mem _ hmem)⟩
  · exact (h.free name hmem).2.2 List.mem_cons_self

/-- **Where no name is at fault all codes and all short names are free**, each with those before it taken. -/
theorem allFree_of_nameProblems : ∀ {ds : List Declaration} {codes vars : List String},
    nameProblems codes vars ds = [] → AllFree codes (ds.map (·.place.code)) ∧ AllFree vars (shorts ds)
  | [], codes, vars, _ => ⟨.nil codes, .nil vars⟩
  | d :: ds, codes, vars, h => by
    rw [nameProblems] at h
    split at h
    · cases h
    · dsimp only at h
      split at h <;> rename_i hvar
      · rw [List.append_eq_nil_iff] at h
        obtain ⟨hown, hrest⟩ := h
        obtain ⟨hcodes, hvars⟩ := allFree_of_nameProblems hrest
        rw [shorts_cons_of_none hvar]
        exact ⟨hcodes.cons (isFree_of_ownProblems hown), hvars⟩
      · rw [List.append_eq_nil_iff, List.append_eq_nil_iff] at h
        obtain ⟨⟨hown, hvarOwn⟩, hrest⟩ := h
        have hfree := isFree_of_varProblems hvarOwn
        -- the short name is taken for what follows only if it is an identifier, and here it is one
        rw [if_pos hfree.1] at hrest
        obtain ⟨hcodes, hvars⟩ := allFree_of_nameProblems hrest
        rw [shorts_cons_of_some hvar]
        exact ⟨hcodes.cons (isFree_of_ownProblems hown), hvars.cons hfree⟩

theorem codes_declarations (s : Schema) : (declarations s).map (·.place.code) = s.codes := by
  have hfields : s.fields.map Field.code = s.fields.zipIdx.map (Field.code ∘ Prod.fst) := by
    rw [← List.map_map, List.zipIdx_map_fst]
  have hcomputed : s.computed.map Computed.code = s.computed.zipIdx.map (Computed.code ∘ Prod.fst) := by
    rw [← List.map_map, List.zipIdx_map_fst]
  rw [declarations, List.map_append, List.map_map, List.map_map, Schema.codes, hfields, hcomputed]
  rfl

/-- The short name of a declaration, blanks around it taken off, with its code. -/
def shortOf? (d : Declaration) : Option (String × String) :=
  match d.var.map Text.trim with
  | none => none
  | some short => if short.isEmpty || d.place.code.isEmpty then none else some (short, d.place.code)

theorem vars_eq (s : Schema) : s.vars = (declarations s).filterMap shortOf? := by
  have hfields : s.fields.map (fun f => (f.var, f.code)) =
      s.fields.zipIdx.map ((fun f => (f.var, f.code)) ∘ Prod.fst) := by
    rw [← List.map_map, List.zipIdx_map_fst]
  have hcomputed : s.computed.map (fun c => (c.var, c.code)) =
      s.computed.zipIdx.map ((fun c => (c.var, c.code)) ∘ Prod.fst) := by
    rw [← List.map_map, List.zipIdx_map_fst]
  rw [Schema.vars, declarations, hfields, hcomputed]
  simp only [List.filterMap_append, List.filterMap_map]
  rfl

/-- Short names that are identifiers are taken as they stand. -/
theorem keys_vars : ∀ {ds : List Declaration}, (∀ d ∈ ds, d.place.code.isEmpty = false) →
    (∀ v ∈ shorts ds, Text.isIdentifier v = true) → (ds.filterMap shortOf?).map Prod.fst = shorts ds
  | [], _, _ => rfl
  | d :: ds, hcodes, hvars => by
    rw [List.forall_mem_cons] at hcodes
    cases hvar : d.var.filter fun v => !v.isEmpty with
    | none =>
      rw [shorts_cons_of_none hvar] at hvars ⊢
      have hnone : shortOf? d = none := by
        cases hv : d.var with
        | none => rw [shortOf?, hv]; rfl
        | some v =>
          have hempty : v = "" := by simpa [hv, Option.filter] using hvar
          rw [shortOf?, hv, hempty]
          rfl
      rw [List.filterMap_cons, hnone]
      exact keys_vars hcodes.2 hvars
    | some v =>
      rw [shorts_cons_of_some hvar, List.forall_mem_cons] at hvars
      have hd : d.var = some v := (Option.filter_eq_some_iff.1 hvar).1
      have hsome : shortOf? d = some (v, d.place.code) := by
        rw [shortOf?, hd]
        simp [Text.trim_of_isIdentifier hvars.1, Text.isEmpty_of_isIdentifier hvars.1, hcodes.1]
      rw [List.filterMap_cons, hsome, shorts_cons_of_some hvar, List.map_cons, keys_vars hcodes.2 hvars.2]

/-! ## Formulas -/

/-- What an entry without a formula problem has. -/
theorem checkFormula_eq_nil {s : Schema} {c : Computed} {i : Nat} (h : (checkFormula s c i).2 = []) :
    ∃ node, (checkFormula s c i).1 = some node ∧ c.Compiles node ∧
      ∀ name ∈ node.expr.reads, isDeclared s name = true := by
  unfold checkFormula at h ⊢
  cases htext : c.formulaText with
  | none => rw [htext] at h; cases h
  | some text =>
    cases hcompile : Dialect.formula.compile text with
    | error e => rw [htext] at h; simp only [hcompile] at h; cases h
    | ok e =>
      rw [htext] at h
      simp only [hcompile] at h ⊢
      rw [report_eq_nil_iff, Bool.not_eq_false', List.isEmpty_iff, List.filter_eq_nil_iff] at h
      exact ⟨⟨c.code, e⟩, rfl, ⟨rfl, text, htext, hcompile⟩, fun name hname => by simpa using h name hname⟩

theorem compiles_of_checked {s : Schema} : ∀ {entries : List Computed} {k : Nat},
    ((entries.zipIdx k).map fun (c, i) => checkFormula s c i).flatMap (·.2) = [] →
      List.Forall₂ (fun c node => c.Compiles node ∧ ∀ name ∈ node.expr.reads, isDeclared s name = true) entries
        (((entries.zipIdx k).map fun (c, i) => checkFormula s c i).filterMap (·.1))
  | [], _, _ => .nil
  | c :: entries, k, h => by
    rw [List.zipIdx_cons, List.map_cons, List.flatMap_cons, List.append_eq_nil_iff] at h
    obtain ⟨node, hnode, hcompiles, hreads⟩ := checkFormula_eq_nil h.1
    rw [List.zipIdx_cons, List.map_cons, List.filterMap_cons, hnode]
    exact .cons ⟨hcompiles, hreads⟩ (compiles_of_checked h.2)

end Lint

/-! ## Fit schemas -/

/-- What a schema without problems has, with its compiled formulas. -/
structure Schema.Fit (s : Schema) (nodes : List Node) : Prop where
  code : ∀ code ∈ s.codes, Text.isIdentifier code = true ∧ isReserved code = false
  nodup : s.codes.Nodup
  vars : (s.vars.map Prod.fst).Nodup
  short : ∀ e ∈ s.aliases.entries, Text.isIdentifier e.1 = true ∧ isReserved e.1 = false ∧ e.2 ∈ s.codes
  compiles : List.Forall₂ Computed.Compiles s.computed nodes
  declared : ∀ node ∈ nodes, ∀ name ∈ node.expr.reads, Lint.isDeclared s name = true
  order : ∃ l, Plan.order nodes s.aliases = .ok l

/-- **A schema in which no problem is found is fit**, and no shapes clash in its formulas. -/
theorem exists_fit_of_lint {s : Schema} (h : lint s = []) : ∃ nodes l, s.Fit nodes ∧
    Plan.order nodes s.aliases = .ok l ∧ Lint.shapeProblems (Shapes.start s s.aliases) nodes l = [] := by
  rw [lint] at h
  simp only [Lint.orElse_eq_nil_iff] at h
  obtain ⟨hdecl, halias, hformulas, horder⟩ := h
  rw [Lint.declarationProblems, List.append_eq_nil_iff] at hdecl
  obtain ⟨hcodes, hvars⟩ := Lint.allFree_of_nameProblems hdecl.1
  have hchecked := Lint.compiles_of_checked hformulas
  rw [Lint.orderProblems] at horder
  split at horder
  · cases horder
  rename_i l hl
  refine ⟨_, l, ⟨?_, Lint.codes_declarations s ▸ hcodes.nodup, ?_, ?_, hchecked.imp fun _ _ h => h.1, ?_, l, hl⟩, hl,
    horder⟩
  · intro code hcode
    rw [← Lint.codes_declarations] at hcode
    obtain ⟨hid, hres, -⟩ := hcodes.free code hcode
    exact ⟨hid, hres⟩
  · have hempty : ∀ d ∈ Lint.declarations s, d.place.code.isEmpty = false := fun d hd =>
      Text.isEmpty_of_isIdentifier (hcodes.free _ (List.mem_map_of_mem hd)).1
    rw [Lint.vars_eq, Lint.keys_vars hempty fun v hv => (hvars.free v hv).1]
    exact hvars.nodup
  · intro e he
    have hnone := List.flatMap_eq_nil_iff.1 halias e he
    rw [List.append_eq_nil_iff, List.append_eq_nil_iff] at hnone
    obtain ⟨⟨hid, hres⟩, hcode⟩ := hnone
    rw [Lint.report_eq_nil_iff] at hid hres hcode
    refine ⟨by simpa using hid, hres, ?_⟩
    rw [Bool.or_eq_false_iff] at hcode
    simpa using hcode.2
  · intro node hnode
    obtain ⟨c, -, -, hreads⟩ := exists_of_forall₂ hchecked hnode
    exact hreads

theorem fit_of_lint {s : Schema} (h : lint s = []) : ∃ nodes, s.Fit nodes := by
  obtain ⟨nodes, -, hfit, -⟩ := exists_fit_of_lint h
  exact ⟨nodes, hfit⟩

/-! ## The scorer of a fit schema -/

namespace Schema.Fit

variable {s : Schema} {nodes : List Node}

theorem withFormula_eq (h : s.Fit nodes) : Schema.withFormula s.computed = s.computed := by
  rw [Schema.withFormula, List.filter_eq_self]
  intro c hc
  obtain ⟨node, -, -, text, htext, -⟩ := exists_of_forall₂ h.compiles.flip hc
  rw [htext]
  rfl

theorem ofSchema_eq (h : s.Fit nodes) {l : List Nat} (hl : Plan.order nodes s.aliases = .ok l) :
    Scorer.ofSchema s = .ok ⟨s, s.aliases, Plan.arranged nodes l⟩ := by
  have hblank : ∀ c ∈ s.codes, Text.allBlank c = false := fun c hc => Text.allBlank_of_isIdentifier (h.code c hc).1
  exact Scorer.ofSchema_eq_ok_iff.2 ⟨⟨hblank, h.nodup⟩, nodes, l, h.withFormula_eq.symm ▸ h.compiles, hl, rfl⟩

theorem exists_scorer (h : s.Fit nodes) : ∃ sc, Scorer.ofSchema s = .ok sc ∧ sc.plan.Perm nodes := by
  obtain ⟨l, hl⟩ := h.order
  exact ⟨_, h.ofSchema_eq hl, Plan.arranged_perm hl⟩

theorem ne_params (h : s.Fit nodes) {code : String} (hcode : code ∈ s.codes) : code ≠ "params" := by
  rintro rfl
  have hres := (h.code _ hcode).2
  cases hres

theorem shortName_ne_params (h : s.Fit nodes) {short : String} (hshort : short ∈ s.aliases.keys) :
    short ≠ "params" := by
  rintro rfl
  obtain ⟨e, he, hkey⟩ := List.mem_map.1 hshort
  have hres := (h.short e he).2.1
  rw [hkey] at hres
  cases hres

theorem plan_perm (h : s.Fit nodes) {sc : Scorer} (hsc : Scorer.ofSchema s = .ok sc) : sc.plan.Perm nodes := by
  obtain ⟨sc', hsc', hperm⟩ := h.exists_scorer
  rw [hsc] at hsc'
  cases hsc'
  exact hperm

end Schema.Fit

end Scoresheet
