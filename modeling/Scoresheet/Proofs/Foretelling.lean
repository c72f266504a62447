import Scoresheet.Proofs.Counting
import Scoresheet.Proofs.Reordering
/-!
# What the shape of an expression tells

Where the rows found for an expression are known and not one, its value is a list of as many entries, if what is known
of names holds of what they mean (`sound`).  Rows come from some parts of an expression only (`Expr.rowParts`).  Among
these `+` is taken to add entry by entry, a text to be followed to its code in every function, and a reduction by items
to see all items.  Evaluation does none of this, so an expression is sure where its rows come from no such part and
from no code in doubt (`Shapes.isSure`).
-/
namespace Scoresheet

open Plan (target)

/-! ## Shapes of values -/

/-- What a shape says of a value: where its rows are known and more or less than one, the value has an entry for each
row. -/
def Shape.Fits (s : Shape) (v : Value) : Prop := ∀ r, s.rows = some r → r ≠ 1 → v.HasEntries r

instance (s : Shape) (v : Value) : Decidable (s.Fits v) :=
  match h : s.rows with
  | none => isTrue fun r hr => by rw [h] at hr; cases hr
  | some n => decidable_of_iff (n ≠ 1 → v.HasEntries n)
    ⟨fun hfits r hr => by rw [h] at hr; cases hr; exact hfits, fun hfits => hfits n h⟩

theorem fits_of_rows {s : Shape} (h : s.rows = none ∨ s.rows = some 1) (v : Value) : s.Fits v := by
  intro r hr hne
  rcases h with h | h
  · rw [h] at hr
    cases hr
  · rw [h] at hr
    cases hr
    exact absurd rfl hne

/-! ## Where rows come from -/

namespace Expr

mutual

/-- The parts of an expression that its rows are found from, itself first.  Execution scores have the rows of their
matrix. -/
def rowParts : Expr → List Expr
  | .literal l => [.literal l]
  | .name n => [.name n]
  | .unary sign e => .unary sign e :: rowParts e
  | .binary op l r => .binary op l r :: (rowParts l ++ rowParts r)
  | .call f ps ks => .call f ps ks :: if f = .execByJudge then rowPartsOfFirst ps ++ rowPartsOfMatrix ks else []
  | .subscript b i => [.subscript b i]
  | .list es => [.list es]
  | .tuple es => [.tuple es]
  | .dict es => [.dict es]

def rowPartsOfFirst : List Expr → List Expr
  | [] => []
  | e :: _ => rowParts e

def rowPartsOfMatrix : List (String × Expr) → List Expr
  | [] => []
  | (k, e) :: ks => if k = "matrix" then rowParts e else rowPartsOfMatrix ks

end

mutual

theorem rowParts_subset : ∀ e : Expr, e.rowParts ⊆ e.subterms
  | .literal _ | .name _ => List.Subset.refl _
  | .unary sign e => by
    rw [rowParts, subterms]
    exact List.cons_subset_cons _ (rowParts_subset e)
  | .binary op l r => by
    rw [rowParts, subterms]
    refine List.cons_subset_cons _ (List.append_subset.2 ⟨fun e he => ?_, fun e he => ?_⟩)
    · exact List.mem_append_left _ (rowParts_subset l he)
    · exact List.mem_append_right _ (rowParts_subset r he)
  | .call f ps ks => by
    rw [rowParts, subterms]
    refine List.cons_subset_cons _ ?_
    split
    · refine List.append_subset.2 ⟨fun e he => ?_, fun e he => ?_⟩
      · exact List.mem_append_left _ (rowPartsOfFirst_subset ps he)
      · exact List.mem_append_right _ (rowPartsOfMatrix_subset ks he)
    · exact List.nil_subset _
  | .subscript _ _ | .list _ | .tuple _ | .dict _ => by
    rw [rowParts, subterms]
    exact List.cons_subset_cons _ (List.nil_subset _)

theorem rowPartsOfFirst_subset : ∀ es : List Expr, rowPartsOfFirst es ⊆ subtermsOfAll es
  | [] => List.Subset.refl _
  | e :: es => by
    rw [rowPartsOfFirst, subtermsOfAll]
    exact fun _ h => List.mem_append_left _ (rowParts_subset e h)

theorem rowPartsOfMatrix_subset : ∀ ks : List (String × Expr), rowPartsOfMatrix ks ⊆ subtermsOfKeywords ks
  | [] => List.Subset.refl _
  | (k, e) :: ks => by
    rw [rowPartsOfMatrix, subtermsOfKeywords]
    split
    · exact fun _ h => List.mem_append_left _ (rowParts_subset e h)
    · exact fun _ h => List.mem_append_right _ (rowPartsOfMatrix_subset ks h)

end

/-- The text of an argument that is written as one. -/
def textArgument? (f : Function) (ps : List Expr) (ks : List (String × Expr)) (p : String) : Option String :=
  match argument? f ps ks p with
  | some (.literal (.text t)) => some t
  | _ => none

end Expr

namespace Shapes

/-- Whether a part of an expression may have other rows than found: it stands for a code in doubt, joins two things,
looks up crash positions under a short name or sees the items of a window. -/
def isLoose (s : Shapes) (doubts : List String) : Expr → Bool
  | .name n => doubts.contains (target s.aliases n)
  | .binary .add _ _ => true
  | .call .crash ps ks => (Expr.textArgument? .crash ps ks "field_code").any fun t => target s.aliases t != t
  | .call .itemsReduce ps ks =>
    (Expr.textArgument? .itemsReduce ps ks "field_code").any fun t => doubts.contains (target s.aliases t)
  | .call .rowCompute ps ks =>
    (Expr.textArgument? .rowCompute ps ks "source").any fun t => doubts.contains (target s.aliases t)
  | .call .columnCompute ps ks =>
    (Expr.argument? .columnCompute ps ks "start").isSome || (Expr.argument? .columnCompute ps ks "count").isSome
  | _ => false

/-- Whether the rows found for a part of an expression are to be relied on: it is not loose, or they are one or
unknown. -/
def measures (s : Shapes) (doubts : List String) (e : Expr) : Bool :=
  !s.isLoose doubts e ||
    match s.infer e with
    | .ok shape => shape.rows == none || shape.rows == some 1
    | .error _ => true

/-- Whether that holds of all parts that the rows of an expression are found from. -/
def isSure (s : Shapes) (doubts : List String) (e : Expr) : Bool := e.rowParts.all (s.measures doubts)

theorem isLoose_eq_false {s : Shapes} {doubts : List String} {e : Expr} {shape : Shape}
    (h : s.measures doubts e = true) (hinfer : s.infer e = .ok shape)
    (hrows : ¬ (shape.rows = none ∨ shape.rows = some 1)) : s.isLoose doubts e = false := by
  rw [measures, hinfer, Bool.or_eq_true, Bool.not_eq_true'] at h
  refine h.resolve_right fun hknown => hrows ?_
  simpa using hknown

/-! ## The arguments of a call -/

section

variable {s : Shapes} {p : String}

theorem mem_of_inferPositional : ∀ {parameters : List String} {es : List Expr} {given : Given},
    s.inferPositional parameters es = .ok given →
      ∀ a ∈ given, (a.1, a.2.1) ∈ parameters.zip es ∧ s.infer a.2.1 = .ok a.2.2
  | parameters, [], given, h => by
    rw [inferPositional] at h
    cases h
    simp
  | [], e :: es, given, h => by
    rw [inferPositional] at h
    cases h
    simp
  | q :: parameters, e :: es, given, h => by
    rw [inferPositional] at h
    obtain ⟨shape, hshape, h⟩ := bind_eq_ok_iff.1 h
    obtain ⟨rest, hrest, h⟩ := bind_eq_ok_iff.1 h
    cases h
    have htail := mem_of_inferPositional hrest
    rw [List.forall_mem_cons, List.zip_cons_cons]
    refine ⟨⟨List.mem_cons_self, hshape⟩, fun a ha => ?_⟩
    exact ⟨List.mem_cons_of_mem _ (htail a ha).1, (htail a ha).2⟩

theorem mem_of_inferKeywords : ∀ {ks : List (String × Expr)} {given : Given}, s.inferKeywords ks = .ok given →
    ∀ a ∈ given, (a.1, a.2.1) ∈ ks ∧ s.infer a.2.1 = .ok a.2.2
  | [], given, h => by
    rw [inferKeywords] at h
    cases h
    simp
  | (k, e) :: ks, given, h => by
    rw [inferKeywords] at h
    obtain ⟨shape, hshape, h⟩ := bind_eq_ok_iff.1 h
    obtain ⟨rest, hrest, h⟩ := bind_eq_ok_iff.1 h
    cases h
    have htail := mem_of_inferKeywords hrest
    rw [List.forall_mem_cons]
    refine ⟨⟨List.mem_cons_self, hshape⟩, fun a ha => ?_⟩
    exact ⟨List.mem_cons_of_mem _ (htail a ha).1, (htail a ha).2⟩

theorem mem_of_find? {given : Given} {a : Expr × Shape} (h : given.find? p = some a) : (p, a) ∈ given := by
  rw [Given.find?, Option.map_eq_some_iff] at h
  obtain ⟨⟨q, b⟩, hfind, rfl⟩ := h
  have hq : q = p := by simpa using List.find?_some hfind
  exact hq ▸ List.mem_reverse.1 (List.mem_of_find?_eq_some hfind)

theorem keys_zip_sublist : ∀ (ps : List String) (es : List Expr), ((ps.zip es).map Prod.fst).Sublist ps
  | [], es => by rw [List.zip_nil_left]; exact .slnil
  | p :: ps, [] => by rw [List.zip_nil_right]; exact List.nil_sublist _
  | p :: ps, e :: es => (keys_zip_sublist ps es).cons_cons p

/-- In a call that binds there is one argument for a parameter. -/
theorem argument?_of_mem {f : Function} {ps : List Expr} {ks : List (String × Expr)} {e : Expr}
    (haccepts : f.Accepts ps.length (ks.map Prod.fst)) (h : (p, e) ∈ f.parameters.zip ps ∨ (p, e) ∈ ks) :
    Expr.argument? f ps ks p = some e := by
  obtain ⟨-, hkeys, hdrop⟩ := haccepts
  rw [Expr.argument?]
  rcases h with h | h
  · have hnodup := f.parameters_nodup.sublist (keys_zip_sublist f.parameters ps)
    rw [(Table.find?_eq_some_iff_of_nodup hnodup).2 h, Option.some_or]
  · have hkey := hdrop p (List.mem_map_of_mem h)
    have hnone : Table.find? p (f.parameters.zip ps) = none := by
      rw [← Option.not_isSome_iff_eq_none, Arguments.find?_zip_isSome]
      intro htake
      have hnodup := f.parameters_nodup
      rw [← List.take_append_drop ps.length f.parameters] at hnodup
      exact (List.nodup_append.1 hnodup).2.2 p htake p hkey rfl
    rw [hnone, Option.none_or, (Table.find?_eq_some_iff_of_nodup hkeys).2 h]

/-- What is found for a parameter is the argument written for it, with its shape. -/
theorem argument?_of_find? {f : Function} {ps : List Expr} {ks : List (String × Expr)} {positional keywords : Given}
    (hps : s.inferPositional f.parameters ps = .ok positional) (hks : s.inferKeywords ks = .ok keywords)
    (haccepts : f.Accepts ps.length (ks.map Prod.fst)) {e : Expr} {shape : Shape}
    (h : (positional ++ keywords : Given).find? p = some (e, shape)) :
    Expr.argument? f ps ks p = some e ∧ s.infer e = .ok shape := by
  rcases List.mem_append.1 (mem_of_find? h) with hmem | hmem
  · obtain ⟨hzip, hshape⟩ := mem_of_inferPositional hps _ hmem
    exact ⟨argument?_of_mem haccepts (.inl hzip), hshape⟩
  · obtain ⟨hkey, hshape⟩ := mem_of_inferKeywords hks _ hmem
    exact ⟨argument?_of_mem haccepts (.inr hkey), hshape⟩

end

/-! ## Calls -/

/-- Where the row count of a call comes from, if it is other than one. -/
def Foretells (s : Shapes) (given : Given) (r : Nat) : Function → Prop
  | .execByJudge => ∃ e shape, given.find? "matrix" = some (e, shape) ∧ shape.rows = some r
  | .crash => ∃ t f, given.text? "field_code" = some t ∧ s.field? t = some f ∧ f.tracksCrash = true ∧ f.judgeCount = r
  | .itemsReduce => ∃ t, given.text? "field_code" = some t ∧ s.rows? t = some r
  | .rowCompute | .columnCompute => ∃ mode t, given.text? "return_mode" = some mode ∧ given.text? "source" = some t ∧
      (Text.trim mode = "by_judge" ∧ s.rows? t = some r ∨
        Text.trim mode = "by_item" ∧ ∃ f, s.field? t = some f ∧ f.itemCount = r ∧ r ≠ 0)
  | _ => False

theorem foretells_of_ofCall {s : Shapes} {f : Function} {given : Given} {shape : Shape} {r : Nat}
    (h : s.ofCall f given = .ok shape) (hr : shape.rows = some r) (hne : r ≠ 1) : s.Foretells given r f := by
  cases f with
  | sum | avg | min | max | med =>
    cases h
    exact hne (Option.some.inj hr).symm
  | float =>
    obtain ⟨-, -, h⟩ := bind_eq_ok_iff.1 h
    cases h
    exact hne (Option.some.inj hr).symm
  | selectSum =>
    obtain ⟨-, -, h⟩ := bind_eq_ok_iff.1 h
    obtain ⟨-, -, h⟩ := bind_eq_ok_iff.1 h
    cases h
    exact hne (Option.some.inj hr).symm
  | bestN =>
    obtain ⟨-, -, h⟩ := bind_eq_ok_iff.1 h
    cases h
    cases hr
  | field =>
    obtain ⟨-, -, h⟩ := bind_eq_ok_iff.1 h
    cases h
    cases hr
  | execByJudge =>
    simp only [ofCall] at h
    split at h
    · cases h
    · split at h
      · cases h
      · cases h
        rw [Shape.column, Given.shape?] at hr
        cases hfind : given.find? "matrix" with
        | none =>
          rw [hfind] at hr
          cases hr
        | some a =>
          rw [hfind] at hr
          exact ⟨a.1, a.2, hfind, hr⟩
  | crash =>
    obtain ⟨-, -, h⟩ := bind_eq_ok_iff.1 h
    cases h
    rw [Shape.column, Option.map_eq_some_iff] at hr
    obtain ⟨field, hfield, rfl⟩ := hr
    obtain ⟨hfield, htracks⟩ := Option.filter_eq_some_iff.1 hfield
    obtain ⟨t, ht, hfield⟩ := Option.bind_eq_some_iff.1 hfield
    exact ⟨t, field, ht, hfield, htracks, rfl⟩
  | itemsReduce =>
    cases h
    obtain ⟨t, ht, hrows⟩ := Option.bind_eq_some_iff.1 hr
    exact ⟨t, ht, hrows⟩
  | rowCompute | columnCompute =>
    simp only [ofCall] at h
    split at h
    · cases h
      exact absurd (Option.some.inj hr).symm hne
    · cases h
      exact absurd (Option.some.inj hr).symm hne
    · rename_i hmode _
      cases h
      obtain ⟨mode, hgiven, hmode⟩ := Option.map_eq_some_iff.1 hmode
      obtain ⟨t, ht, hrows⟩ := Option.bind_eq_some_iff.1 hr
      exact ⟨mode, t, hgiven, ht, .inl ⟨hmode, hrows⟩⟩
    · rename_i hmode _
      cases h
      obtain ⟨mode, hgiven, hmode⟩ := Option.map_eq_some_iff.1 hmode
      obtain ⟨hr, hzero⟩ := Option.filter_eq_some_iff.1 hr
      obtain ⟨field, hfield, rfl⟩ := Option.map_eq_some_iff.1 hr
      obtain ⟨t, ht, hfield⟩ := Option.bind_eq_some_iff.1 hfield
      exact ⟨mode, t, hgiven, ht, .inr ⟨hmode, field, hfield, rfl, by simpa using hzero⟩⟩
    · cases h
      cases hr

/-- What is known of names holds of what they mean in a context, codes in doubt apart. -/
structure Knows (s : Shapes) (doubts : List String) (cx : Context) : Prop where
  schema : s.schema = cx.schema
  aliases : s.aliases = cx.aliases
  canonical : ∀ name, cx.canonical name = target cx.aliases name
  rows : ∀ name r, Text.isSafeName name = true → target s.aliases name ∉ doubts → s.rows? name = some r → r ≠ 1 →
    ∃ v, cx.lookup name = some v ∧ v.HasEntries r
  crashes : ∀ f ∈ cx.schema.fields, f.tracksCrash = true → (cx.crashes f.code).length = f.judgeCount

/-- An expression comes to what is found of it. -/
def Sound (s : Shapes) (cx : Context) (e : Expr) : Prop :=
  ∀ shape v, s.infer e = .ok shape → cx.value e = .ok v → shape.Fits v

theorem apart_of_mode {mode : String} (h : Text.trim mode = "by_judge" ∨ Text.trim mode = "by_item") :
    Text.trim mode ≠ "final" := by
  rcases h with h | h
  · rw [h]
    decide
  · rw [h]
    decide

section

variable {s : Shapes} {cx : Context}

theorem value_call_eq_ok {f : Function} {ps : List Expr} {ks : List (String × Expr)} {v : Value}
    (h : cx.value (.call f ps ks) = .ok v) : ∃ vs kvs args, evaluateAll (cx.scope Dialect.compile) ps = .ok vs ∧
      evaluateKeywords (cx.scope Dialect.compile) ks = .ok kvs ∧ Arguments.bind f vs kvs = .ok args ∧
        Call.run Dialect.compile cx args = .ok v := by
  rw [Context.value, evaluate] at h
  obtain ⟨vs, hvs, h⟩ := bind_eq_ok_iff.1 h
  obtain ⟨kvs, hkvs, h⟩ := bind_eq_ok_iff.1 h
  obtain ⟨args, hargs, h⟩ := bind_eq_ok_iff.1 h
  rw [answer_eq] at hargs
  exact ⟨vs, kvs, args, hvs, hkvs, hargs, h⟩

/-- A call as the dry run and evaluation see it. -/
structure Seen (s : Shapes) (cx : Context) (f : Function) (ps : List Expr) (ks : List (String × Expr)) (given : Given)
    (args : Arguments) : Prop where
  function : args.function = f
  find : ∀ p e shape, given.find? p = some (e, shape) → Expr.argument? f ps ks p = some e ∧
    s.infer e = .ok shape ∧ ∃ v, args.given? p = some v ∧ cx.value e = .ok v
  absent : ∀ p, Expr.argument? f ps ks p = none → args.given? p = none

theorem Seen.text {f : Function} {ps : List Expr} {ks : List (String × Expr)} {given : Given} {args : Arguments}
    (h : Seen s cx f ps ks given args) {p t : String} (ht : given.text? p = some t) :
    Expr.textArgument? f ps ks p = some t ∧ args.given? p = some (.text t) := by
  rw [Given.text?] at ht
  split at ht
  · rename_i t' shape hfind
    cases ht
    obtain ⟨hargument, -, v, hgiven, hv⟩ := h.find p _ _ hfind
    rw [Context.value, evaluate] at hv
    cases hv
    exact ⟨by rw [Expr.textArgument?, hargument], hgiven⟩
  · cases ht

theorem exists_seen {f : Function} {ps : List Expr} {ks : List (String × Expr)} {shape : Shape} {v : Value}
    (hinfer : s.infer (.call f ps ks) = .ok shape) (hv : cx.value (.call f ps ks) = .ok v) :
    ∃ given args, Seen s cx f ps ks given args ∧ s.ofCall f given = .ok shape ∧
      Call.run Dialect.compile cx args = .ok v := by
  rw [infer] at hinfer
  obtain ⟨positional, hpositional, hinfer⟩ := bind_eq_ok_iff.1 hinfer
  obtain ⟨keywords, hkeywords, hinfer⟩ := bind_eq_ok_iff.1 hinfer
  obtain ⟨vs, kvs, args, hvs, hkvs, hargs, hrun⟩ := value_call_eq_ok hv
  have haccepts := (Arguments.bind_eq_ok hargs).2.1
  rw [length_evaluateAll hvs, keys_evaluateKeywords hkvs] at haccepts
  refine ⟨positional ++ keywords, args, ⟨(Arguments.bind_eq_ok hargs).1, fun p e shape hfind => ?_, fun p hp => ?_⟩,
    hinfer, hrun⟩
  · obtain ⟨hargument, hshape⟩ := argument?_of_find? hpositional hkeywords haccepts hfind
    have hmem : (p, e) ∈ f.parameters.zip ps ∨ (p, e) ∈ ks :=
      (List.mem_append.1 (mem_of_find? hfind)).imp (fun hmem => (mem_of_inferPositional hpositional _ hmem).1)
        fun hmem => (mem_of_inferKeywords hkeywords _ hmem).1
    have hsome : (args.given? p).isSome = true := by
      refine given?_isSome hargs ?_
      rw [length_evaluateAll hvs, keys_evaluateKeywords hkvs, ← Arguments.find?_zip_isSome]
      refine hmem.imp (fun hzip => ?_) List.mem_map_of_mem
      have hnodup := f.parameters_nodup.sublist (keys_zip_sublist f.parameters ps)
      rw [(Table.find?_eq_some_iff_of_nodup hnodup).2 hzip]
      rfl
    obtain ⟨w, hw⟩ := Option.isSome_iff_exists.1 hsome
    obtain ⟨e', he', hvalue⟩ := argument_given hvs hkvs hargs hw
    rw [hargument] at he'
    cases he'
    exact ⟨hargument, hshape, w, hw, hvalue⟩
  · rw [Option.eq_none_iff_forall_ne_some]
    intro w hw
    obtain ⟨e, he, -⟩ := argument_given hvs hkvs hargs hw
    rw [hp] at he
    cases he

theorem Knows.schemaField? {doubts : List String} (h : s.Knows doubts cx) (name : String) :
    s.field? name = cx.schema.field? (cx.canonical name) := by
  rw [field?, h.canonical, h.schema, h.aliases, target]

/-- **A call comes to what is found of it**, if its matrix does where it has one. -/
theorem sound_call {doubts : List String} (h : s.Knows doubts cx) {f : Function} {ps : List Expr}
    {ks : List (String × Expr)}
    (hmatrix : ∀ e, f = .execByJudge → Expr.argument? f ps ks "matrix" = some e → s.Sound cx e)
    (hmeasures : s.measures doubts (.call f ps ks) = true) : s.Sound cx (.call f ps ks) := by
  intro shape v hinfer hv r hr hne
  obtain ⟨given, ⟨f', slots⟩, hseen, hshape, hrun⟩ := exists_seen hinfer hv
  have hloose := isLoose_eq_false hmeasures hinfer (by simp [hr, hne])
  have hforetells := foretells_of_ofCall hshape hr hne
  obtain rfl : f' = f := hseen.function
  cases f' with
  | sum | avg | min | max | med | float | selectSum | bestN | field => cases hforetells
  | execByJudge =>
    obtain ⟨e, eshape, hfind, hrows⟩ := hforetells
    obtain ⟨hargument, hinfer, matrix, hgiven, hvalue⟩ := hseen.find _ _ _ hfind
    have hentries := hmatrix e rfl hargument eshape matrix hinfer hvalue r hrows hne
    have hanswer : (answer (Call.execByJudge ⟨.execByJudge, slots⟩) : Result Value) = .ok v := hrun
    rw [answer_eq] at hanswer
    exact hasEntries_execByJudge hanswer hgiven hentries
  | crash =>
    obtain ⟨t, field, ht, hfield, htracks, rfl⟩ := hforetells
    obtain ⟨hargument, hgiven⟩ := hseen.text ht
    have htarget : target cx.aliases t = t := by
      rw [← h.aliases]
      simpa [isLoose, hargument] using hloose
    rw [h.schemaField?, h.canonical, htarget] at hfield
    have hcode : field.code = t := by simpa using List.find?_some hfield
    rw [← h.crashes field (List.mem_of_find?_eq_some hfield) htracks, hcode]
    have hanswer : (answer (Call.crash cx ⟨.crash, slots⟩) : Result Value) = .ok v := hrun
    rw [answer_eq] at hanswer
    exact hasEntries_crash hanswer hgiven
  | itemsReduce =>
    obtain ⟨t, ht, hrows⟩ := hforetells
    obtain ⟨hargument, hgiven⟩ := hseen.text ht
    have hsure : target s.aliases t ∉ doubts := by simpa [isLoose, hargument] using hloose
    exact hasEntries_itemsReduce hrun hgiven fun hsafe => h.rows t r hsafe hsure hrows hne
  | rowCompute =>
    obtain ⟨mode, t, hmode, ht, hsource⟩ := hforetells
    have hgiven := (hseen.text hmode).2
    have hapart : Text.trim mode ≠ "final" := apart_of_mode (hsource.imp And.left And.left)
    have hline := (hasEntries_customCompute hrun hgiven hapart).1
    rcases hsource with ⟨-, hrows⟩ | ⟨hitems, -⟩
    · obtain ⟨hargument, hname⟩ := hseen.text ht
      have hsure : target s.aliases t ∉ doubts := by simpa [isLoose, hargument] using hloose
      exact hasEntries_rowCompute hrun hgiven hapart hname fun hsafe => h.rows t r hsafe hsure hrows hne
    · rw [hitems] at hline
      exact absurd hline (by decide)
  | columnCompute =>
    obtain ⟨mode, t, hmode, ht, hsource⟩ := hforetells
    have hgiven := (hseen.text hmode).2
    have hapart : Text.trim mode ≠ "final" := apart_of_mode (hsource.imp And.left And.left)
    have hline := (hasEntries_customCompute hrun hgiven hapart).1
    rcases hsource with ⟨hjudges, -⟩ | ⟨-, field, hfield, rfl, hzero⟩
    · rw [hjudges] at hline
      exact absurd hline (by decide)
    · rw [isLoose, Bool.or_eq_false_iff, Option.isSome_eq_false_iff, Option.isSome_eq_false_iff,
        Option.isNone_iff_eq_none, Option.isNone_iff_eq_none] at hloose
      have hstart := hseen.absent _ hloose.1
      have hcount := hseen.absent _ hloose.2
      rw [h.schemaField?] at hfield
      refine hasEntries_columnCompute hrun hgiven hapart (hseen.text ht).2 hstart hcount ?_ hzero
      rw [hfield]
      rfl

theorem matrix_of_argument? {ps : List Expr} {ks : List (String × Expr)} {e : Expr}
    (h : Expr.argument? .execByJudge ps ks "matrix" = some e) :
    ps.head? = some e ∨ Table.find? "matrix" ks = some e := by
  cases ps with
  | nil => exact .inr h
  | cons e' ps => exact .inl h

end

/-! ## Expressions -/

/-- Parts of a formula that are safe to name and whose rows are to be relied on. -/
structure Reliable (s : Shapes) (doubts : List String) (parts : List Expr) : Prop where
  safe : ∀ name, .name name ∈ parts → Text.isSafeName name = true
  measures : ∀ e ∈ parts, s.measures doubts e = true

theorem Reliable.mono {s : Shapes} {doubts : List String} {parts more : List Expr} (h : s.Reliable doubts more)
    (hsub : parts ⊆ more) : s.Reliable doubts parts :=
  ⟨fun name hname => h.safe name (hsub hname), fun e he => h.measures e (hsub he)⟩

theorem sound_literal {s : Shapes} {cx : Context} (l : Literal) : s.Sound cx (.literal l) := by
  intro shape v hinfer _
  rw [infer] at hinfer
  cases hinfer
  exact fits_of_rows (.inr rfl) v

theorem sound_name {s : Shapes} {doubts : List String} {cx : Context} (h : s.Knows doubts cx) {name : String}
    (hsafe : Text.isSafeName name = true) (hmeasures : s.measures doubts (.name name) = true) :
    s.Sound cx (.name name) := by
  intro shape v hinfer hv r hr hne
  have hloose := isLoose_eq_false hmeasures hinfer (by simp [hr, hne])
  rw [infer] at hinfer
  cases hinfer
  rw [Context.value_name] at hv
  have hsure : target s.aliases name ∉ doubts := by simpa [isLoose] using hloose
  have hrows : s.rows? name = some r := by
    cases hknown : s.known.get? name with
    | none =>
      rw [hknown] at hr
      cases hr
    | some shape =>
      rw [hknown] at hr
      rw [rows?, hknown]
      exact hr
  obtain ⟨w, hlookup, hentries⟩ := h.rows name r hsafe hsure hrows hne
  rw [hlookup] at hv
  cases hv
  exact hentries

theorem sound_unary {s : Shapes} {cx : Context} (sign : Sign) {e : Expr} (he : s.Sound cx e) :
    s.Sound cx (.unary sign e) := by
  intro shape v hinfer hv r hr hne
  rw [infer] at hinfer
  rw [Context.value, evaluate] at hv
  obtain ⟨w, hw, hv⟩ := bind_eq_ok_iff.1 hv
  -- a sign has no meaning before a list
  rw [answer_eq, Sign.apply, (he shape w hinfer hw r hr hne).number?_eq] at hv
  cases hv

theorem apply_eq_ok_of_list {op : BinaryOp} {a b v : Value} (h : op.apply a b = .ok v)
    (hlist : a.number? = none ∨ b.number? = none) : op = .add := by
  unfold BinaryOp.apply at h
  split at h
  · rename_i ha hb
    rcases hlist with hn | hn
    · rw [hn] at ha
      cases ha
    · rw [hn] at hb
      cases hb
  · split at h
    · rfl
    · rfl
    · cases h

theorem sound_binary {s : Shapes} {doubts : List String} {cx : Context} {op : BinaryOp} {l r : Expr}
    (hl : s.Sound cx l) (hr : s.Sound cx r) (hmeasures : s.measures doubts (.binary op l r) = true) :
    s.Sound cx (.binary op l r) := by
  intro shape v hinfer hv n hn hne
  have hloose := isLoose_eq_false hmeasures hinfer (by simp [hn, hne])
  rw [infer] at hinfer
  obtain ⟨a, ha, hinfer⟩ := bind_eq_ok_iff.1 hinfer
  obtain ⟨b, hb, hinfer⟩ := bind_eq_ok_iff.1 hinfer
  rw [Context.value, evaluate] at hv
  obtain ⟨x, hx, hv⟩ := bind_eq_ok_iff.1 hv
  obtain ⟨y, hy, hv⟩ := bind_eq_ok_iff.1 hv
  rw [answer_eq] at hv
  cases op with
  | add => cases hloose
  | sub =>
    simp only at hinfer
    split at hinfer
    · cases hinfer
      -- one of the two is a list, and lists have no difference
      have hlist : x.number? = none ∨ y.number? = none := by
        rw [Shape.merge, Option.or_eq_some_iff] at hn
        rcases hn with hn | ⟨-, hn⟩
        · exact .inl (hl a x ha hx n hn hne).number?_eq
        · exact .inr (hr b y hb hy n hn hne).number?_eq
      cases apply_eq_ok_of_list hv hlist
    · cases hinfer
  | mul | div | mod =>
    simp only at hinfer
    split at hinfer
    · cases hinfer
    · cases hinfer
      exact absurd (Option.some.inj hn).symm hne

theorem sound_subscript {s : Shapes} {cx : Context} (base index : Expr) : s.Sound cx (.subscript base index) := by
  intro shape v hinfer _
  rw [infer] at hinfer
  obtain ⟨b, -, hinfer⟩ := bind_eq_ok_iff.1 hinfer
  obtain ⟨i, -, hinfer⟩ := bind_eq_ok_iff.1 hinfer
  refine fits_of_rows (.inr ?_) v
  split at hinfer
  · cases hinfer
    rfl
  · split at hinfer <;> cases hinfer <;> rfl

theorem sound_items {s : Shapes} {cx : Context} {e : Expr} {es : List Expr} (he : e = .list es ∨ e = .tuple es) :
    s.Sound cx e := by
  intro shape v hinfer hv r hr _
  rcases he with rfl | rfl
  all_goals
    rw [infer] at hinfer
    rw [Context.value, evaluate] at hv
    obtain ⟨shapes, -, hinfer⟩ := bind_eq_ok_iff.1 hinfer
    obtain ⟨vs, hvs, hv⟩ := bind_eq_ok_iff.1 hv
    cases hinfer
    cases hv
    exact ⟨vs, rfl, (length_evaluateAll hvs).trans (Option.some.inj hr)⟩

theorem sound_dict {s : Shapes} {cx : Context} (es : List (Expr × Expr)) : s.Sound cx (.dict es) := by
  intro shape v hinfer _
  rw [infer] at hinfer
  obtain ⟨-, -, hinfer⟩ := bind_eq_ok_iff.1 hinfer
  cases hinfer
  exact fits_of_rows (.inl rfl) v

mutual

/-- **A sure expression comes to what is found of it**, if what is known of names holds. -/
theorem sound {s : Shapes} {doubts : List String} {cx : Context} (h : s.Knows doubts cx) :
    ∀ e : Expr, s.Reliable doubts e.rowParts → s.Sound cx e
  | .literal l, _ => sound_literal l
  | .name n, hr => by
    rw [Expr.rowParts] at hr
    exact sound_name h (hr.safe n (List.mem_singleton_self _)) (hr.measures _ (List.mem_singleton_self _))
  | .unary sign e, hr => by
    rw [Expr.rowParts] at hr
    exact sound_unary sign (sound h e (hr.mono (List.subset_cons_self _ _)))
  | .binary op l r, hr => by
    rw [Expr.rowParts] at hr
    have hparts := hr.mono (List.subset_cons_self _ _)
    have hl := sound h l (hparts.mono (List.subset_append_left _ _))
    have hr' := sound h r (hparts.mono (List.subset_append_right _ _))
    exact sound_binary hl hr' (hr.measures _ List.mem_cons_self)
  | .call f ps ks, hr => by
    rw [Expr.rowParts] at hr
    refine sound_call h (fun e hf he => ?_) (hr.measures _ List.mem_cons_self)
    have hparts := hr.mono (List.subset_cons_self _ _)
    rw [if_pos hf] at hparts
    subst hf
    rcases matrix_of_argument? he with he | he
    · exact sound_first h ps (hparts.mono (List.subset_append_left _ _)) e he
    · exact sound_matrix h ks (hparts.mono (List.subset_append_right _ _)) e he
  | .subscript b i, _ => sound_subscript b i
  | .list _, _ => sound_items (.inl rfl)
  | .tuple _, _ => sound_items (.inr rfl)
  | .dict es, _ => sound_dict es

theorem sound_first {s : Shapes} {doubts : List String} {cx : Context} (h : s.Knows doubts cx) :
    ∀ es : List Expr, s.Reliable doubts (Expr.rowPartsOfFirst es) → ∀ e, es.head? = some e → s.Sound cx e
  | [], _, e, he => by cases he
  | e :: _, hr, _, he => by
    rw [Expr.rowPartsOfFirst] at hr
    cases he
    exact sound h e hr

theorem sound_matrix {s : Shapes} {doubts : List String} {cx : Context} (h : s.Knows doubts cx) :
    ∀ ks : List (String × Expr), s.Reliable doubts (Expr.rowPartsOfMatrix ks) →
      ∀ e, Table.find? "matrix" ks = some e → s.Sound cx e
  | [], _, e, he => by cases he
  | (k, e) :: ks, hr, e', he => by
    rw [Expr.rowPartsOfMatrix] at hr
    rw [Table.find?] at he
    split at hr
    · rename_i hk
      rw [if_pos hk] at he
      cases he
      exact sound h e hr
    · rename_i hk
      rw [if_neg hk] at he
      exact sound_matrix h ks hr e' he

end

end Shapes
end Scoresheet
