import Scoresheet.Formula.Compile
import Scoresheet.Proofs.Reading
import Scoresheet.Proofs.Lookup
/-!
# Contexts that agree on what a formula reads

Two contexts over the same fields and inputs give a formula the same value when they agree on its names and on the
sheets that its calls reduce (`Context.value_agree`).  A sheet is the only thing that a call reads by a name, and the
name is a value: where it is written down as a text it is among the names that the formula reads.
-/
namespace Scoresheet

/-! ## Agreement -/

/-- The two answers are equal, unless the first is an error and that is excused. -/
def Agree (excused : Prop) {α : Type} (x y : Result α) : Prop := x = y ∨ excused ∧ ∃ e, x = .error e

theorem Agree.refl (excused : Prop) {α : Type} (x : Result α) : Agree excused x x := .inl rfl

theorem Agree.eq_of_ok {excused : Prop} {α : Type} {x y : Result α} (h : Agree excused x y) {a : α} (hx : x = .ok a) :
    y = .ok a := by
  rcases h with rfl | ⟨_, e, rfl⟩
  · exact hx
  · cases hx

theorem Agree.eq {α : Type} {x y : Result α} (h : Agree False x y) : x = y := h.resolve_right fun h => h.1

theorem Agree.bind {excused : Prop} {α β : Type} {x y : Result α} {f g : α → Result β} (h : Agree excused x y)
    (hf : ∀ a, x = .ok a → Agree excused (f a) (g a)) : Agree excused (x >>= f) (y >>= g) := by
  rcases h with rfl | ⟨he, e, rfl⟩
  · cases x with
    | error e => exact .refl _ _
    | ok a => exact hf a rfl
  · exact .inr ⟨he, e, rfl⟩

def agreement (excused : Prop) : Comparison where
  Rel := Agree excused
  ok _ := .refl _ _
  values _ := .refl _ _
  bind := .bind

/-! ## The names that an expression reads -/

namespace Expr

theorem mem_reads {e : Expr} {name : String} : name ∈ e.reads ↔ ∃ t ∈ e.subterms, name ∈ t.ownReads := by
  rw [reads, mem_sortBy, List.mem_eraseDups, List.mem_flatMap]

theorem name_mem_reads {e : Expr} {name : String} (h : .name name ∈ e.subterms) : name ∈ e.reads :=
  mem_reads.2 ⟨_, h, List.mem_singleton_self name⟩

theorem source_mem_reads {e : Expr} {f : Function} {ps : List Expr} {ks : List (String × Expr)} {code : String}
    (h : .call f ps ks ∈ e.subterms) (hf : f.readsSource = true)
    (hsource : sourceArgument? ps ks = some (.literal (.text code))) : code ∈ e.reads := by
  refine mem_reads.2 ⟨_, h, ?_⟩
  rw [ownReads, if_pos hf, hsource]
  exact List.mem_singleton_self code

end Expr

/-! ## The arguments of a call -/

namespace Function

/-- The parameter for the source of a reduction. -/
def sourceParameter : Function → String
  | .itemsReduce => "field_code"
  | _ => "source"

theorem isSourceKey_iff {f : Function} (hf : f.readsSource = true) :
    ∀ k ∈ f.parameters, (k == "source" || k == "field_code") = (k == f.sourceParameter) := by
  revert hf
  cases f <;> decide

theorem parameters_eq_cons {f : Function} (hf : f.readsSource = true) :
    ∃ rest, f.parameters = f.sourceParameter :: rest := by
  cases f with
  | itemsReduce | rowCompute | columnCompute => exact ⟨_, rfl⟩
  | _ => cases hf

end Function

/-- The argument that is written for a parameter: in its position, or as a keyword. -/
def Expr.argument? (f : Function) (ps : List Expr) (ks : List (String × Expr)) (p : String) : Option Expr :=
  (Table.find? p (f.parameters.zip ps)).or (Table.find? p ks)

section

variable {s : Scope Result} {p : String} {v : Value}

theorem evaluateAll_cons_eq_ok {e : Expr} {es : List Expr} {vs : List Value} (h : evaluateAll s (e :: es) = .ok vs) :
    ∃ v rest, evaluate s e = .ok v ∧ evaluateAll s es = .ok rest ∧ vs = v :: rest := by
  rw [evaluateAll] at h
  cases hv : evaluate s e with
  | error err => rw [hv] at h; cases h
  | ok v =>
    cases hrest : evaluateAll s es with
    | error err => rw [hv, hrest] at h; cases h
    | ok rest =>
      rw [hv, hrest] at h
      cases h
      exact ⟨v, rest, rfl, rfl, rfl⟩

theorem evaluateKeywords_cons_eq_ok {k : String} {e : Expr} {ks : List (String × Expr)} {kvs : List (String × Value)}
    (h : evaluateKeywords s ((k, e) :: ks) = .ok kvs) :
    ∃ v rest, evaluate s e = .ok v ∧ evaluateKeywords s ks = .ok rest ∧ kvs = (k, v) :: rest := by
  rw [evaluateKeywords] at h
  cases hv : evaluate s e with
  | error err => rw [hv] at h; cases h
  | ok v =>
    cases hrest : evaluateKeywords s ks with
    | error err => rw [hv, hrest] at h; cases h
    | ok rest =>
      rw [hv, hrest] at h
      cases h
      exact ⟨v, rest, rfl, rfl, rfl⟩

theorem length_evaluateAll : ∀ {es : List Expr} {vs : List Value}, evaluateAll s es = .ok vs → vs.length = es.length
  | [], vs, h => by
    rw [evaluateAll] at h
    cases h
    rfl
  | e :: es, vs, h => by
    obtain ⟨v, rest, -, hrest, rfl⟩ := evaluateAll_cons_eq_ok h
    rw [List.length_cons, List.length_cons, length_evaluateAll hrest]

theorem keys_evaluateKeywords : ∀ {ks : List (String × Expr)} {kvs : List (String × Value)},
    evaluateKeywords s ks = .ok kvs → kvs.map Prod.fst = ks.map Prod.fst
  | [], kvs, h => by
    rw [evaluateKeywords] at h
    cases h
    rfl
  | (k, e) :: ks, kvs, h => by
    obtain ⟨v, rest, -, hrest, rfl⟩ := evaluateKeywords_cons_eq_ok h
    rw [List.map_cons, List.map_cons, keys_evaluateKeywords hrest]

theorem find?_zip_evaluateAll : ∀ {parameters : List String} {es : List Expr} {vs : List Value},
    evaluateAll s es = .ok vs → Table.find? p (parameters.zip vs) = some v →
      ∃ e, Table.find? p (parameters.zip es) = some e ∧ evaluate s e = .ok v
  | [], es, vs, _, hfind => by cases hfind
  | q :: parameters, [], vs, h, hfind => by
    rw [evaluateAll] at h
    cases h
    cases hfind
  | q :: parameters, e :: es, vs, h, hfind => by
    obtain ⟨v', rest, hv, hrest, rfl⟩ := evaluateAll_cons_eq_ok h
    rw [List.zip_cons_cons, Table.find?] at hfind ⊢
    by_cases hq : q = p
    · rw [if_pos hq] at hfind ⊢
      cases hfind
      exact ⟨e, rfl, hv⟩
    · rw [if_neg hq] at hfind ⊢
      exact find?_zip_evaluateAll hrest hfind

theorem find?_evaluated : ∀ {ks : List (String × Expr)} {kvs : List (String × Value)},
    evaluateKeywords s ks = .ok kvs → Table.find? p kvs = some v →
      ∃ e, Table.find? p ks = some e ∧ evaluate s e = .ok v
  | [], kvs, h, hfind => by
    rw [evaluateKeywords] at h
    cases h
    cases hfind
  | (k, e) :: ks, kvs, h, hfind => by
    obtain ⟨v', rest, hv, hrest, rfl⟩ := evaluateKeywords_cons_eq_ok h
    rw [Table.find?] at hfind ⊢
    by_cases hk : k = p
    · rw [if_pos hk] at hfind ⊢
      cases hfind
      exact ⟨e, rfl, hv⟩
    · rw [if_neg hk] at hfind ⊢
      exact find?_evaluated hrest hfind

/-- **What a parameter is given is the value of the argument written for it.** -/
theorem argument_given {f : Function} {ps : List Expr} {ks : List (String × Expr)} {vs : List Value}
    {kvs : List (String × Value)} {args : Arguments} (hps : evaluateAll s ps = .ok vs)
    (hks : evaluateKeywords s ks = .ok kvs) (hbind : Arguments.bind f vs kvs = .ok args)
    (hv : args.given? p = some v) : ∃ e, Expr.argument? f ps ks p = some e ∧ evaluate s e = .ok v := by
  rw [Arguments.given?_bind hbind (Arguments.mem_parameters_of_given? hbind hv)] at hv
  cases hpos : Table.find? p (f.parameters.zip vs) with
  | some w =>
    rw [hpos, Option.some_or] at hv
    cases hv
    obtain ⟨e, he, hval⟩ := find?_zip_evaluateAll hps hpos
    exact ⟨e, by rw [Expr.argument?, he, Option.some_or], hval⟩
  | none =>
    rw [hpos, Option.none_or] at hv
    -- positions are evaluated one by one, so where no value stands in the place no argument does
    have hnone : Table.find? p (f.parameters.zip ps) = none := by
      rw [← Option.not_isSome_iff_eq_none, Arguments.find?_zip_isSome, ← length_evaluateAll hps,
        ← Arguments.find?_zip_isSome, hpos]
      simp
    obtain ⟨e, he, hval⟩ := find?_evaluated hks hv
    exact ⟨e, by rw [Expr.argument?, hnone, Option.none_or, he], hval⟩

/-- A parameter in a position or among the keywords is given. -/
theorem given?_isSome {f : Function} {vs : List Value} {kvs : List (String × Value)} {args : Arguments}
    (hbind : Arguments.bind f vs kvs = .ok args)
    (hp : p ∈ f.parameters.take vs.length ∨ p ∈ kvs.map Prod.fst) : (args.given? p).isSome = true := by
  have hmem : p ∈ f.parameters := by
    rcases hp with hp | hp
    · exact List.mem_of_mem_take hp
    · exact List.mem_of_mem_drop ((Arguments.bind_eq_ok hbind).2.1.2.2 p hp)
  rw [Arguments.given?_bind hbind hmem, Option.isSome_or, Bool.or_eq_true, Arguments.find?_zip_isSome]
  refine hp.imp_right fun hp => ?_
  have hkey : ∀ {l : List (String × Value)}, p ∈ l.map Prod.fst → (Table.find? p l).isSome = true := by
    intro l
    induction l with
    | nil => intro h; cases h
    | cons e l ih =>
      intro h
      rw [Table.find?]
      split
      · rfl
      · rename_i hne
        exact ih ((List.mem_cons.1 h).resolve_left fun he => hne he.symm)
  exact hkey hp

/-- In a call that binds, the argument that counts as the source is the one for the parameter of the source. -/
theorem sourceArgument?_eq {f : Function} (hf : f.readsSource = true) (ps : List Expr) {ks : List (String × Expr)}
    (hkeys : ∀ k ∈ ks.map Prod.fst, k ∈ f.parameters) :
    Expr.sourceArgument? ps ks = Expr.argument? f ps ks f.sourceParameter := by
  obtain ⟨parameters, hparameters⟩ := Function.parameters_eq_cons hf
  cases ps with
  | cons e es => rw [Expr.argument?, hparameters, List.zip_cons_cons, Table.find?, if_pos rfl, Option.some_or]; rfl
  | nil =>
    rw [Expr.sourceArgument?, Expr.argument?, List.zip_nil_right, Table.find?, Option.none_or]
    induction ks with
    | nil => rfl
    | cons k ks ih =>
      rw [List.map_cons, List.forall_mem_cons] at hkeys
      rw [List.find?_cons, Function.isSourceKey_iff hf k.1 hkeys.1, Table.find?]
      by_cases hk : k.1 = f.sourceParameter
      · rw [beq_iff_eq.2 hk, if_pos hk]
        rfl
      · rw [beq_eq_false_iff_ne.2 hk, if_neg hk]
        exact ih hkeys.2

/-- **What a reduction is given as its source is the value of the argument that counts as its source.** -/
theorem source_given {f : Function} (hf : f.readsSource = true) {ps : List Expr} {ks : List (String × Expr)}
    {vs : List Value} {kvs : List (String × Value)} {args : Arguments}
    (hps : evaluateAll s ps = .ok vs) (hks : evaluateKeywords s ks = .ok kvs)
    (hbind : Arguments.bind f vs kvs = .ok args) (hv : args.required f.sourceParameter = .ok v) :
    ∃ src, Expr.sourceArgument? ps ks = some src ∧ evaluate s src = .ok v := by
  obtain ⟨src, hsrc, hval⟩ := argument_given hps hks hbind (Arguments.required_eq_ok_iff.1 hv)
  have hkeys := (Arguments.bind_eq_ok hbind).2.1.2.2
  rw [keys_evaluateKeywords hks] at hkeys
  exact ⟨src, by rw [sourceArgument?_eq hf ps fun k hk => List.mem_of_mem_drop (hkeys k hk), hsrc], hval⟩

end

/-! ## Contexts -/

section

variable {excused : Prop} {cx cx' : Context}

theorem field?_congr {s s' : Schema} (h : s.fields = s'.fields) (code : String) : s.field? code = s'.field? code := by
  rw [Schema.field?, Schema.field?, h]

theorem Context.crashes_congr (h : cx.inputs = cx'.inputs) (code : String) : cx.crashes code = cx'.crashes code := by
  rw [crashes, crashes, h]

/-- A source that is no text means the same sheet in every context. -/
theorem Sheet.ofSource_congr (f : Function) {v : Value} (h : ∀ name, v ≠ .text name) :
    ofSource cx f v = ofSource cx' f v := by
  cases v with
  | text name => exact absurd rfl (h name)
  | null | bool b | number n | list rows | map es => rfl

/-- A source that is a text means the same sheet when the name means the same value and the same code. -/
theorem Sheet.ofSource_text_congr (hfields : cx.schema.fields = cx'.schema.fields) (hinputs : cx.inputs = cx'.inputs)
    (f : Function) {name : String} (hlookup : cx.lookup name = cx'.lookup name)
    (hcode : cx.canonical name = cx'.canonical name) :
    ofSource cx f (.text name) = ofSource cx' f (.text name) := by
  rw [ofSource, ofSource, hlookup, hcode]
  simp only [field?_congr hfields, Context.crashes_congr hinputs]

theorem itemsReduce_agree {args : Arguments}
    (h : ∀ v, args.required "field_code" = .ok v →
      Agree excused (Sheet.ofSource cx .itemsReduce v) (Sheet.ofSource cx' .itemsReduce v)) :
    Agree excused (itemsReduce Dialect.compile cx args) (itemsReduce Dialect.compile cx' args) := by
  unfold itemsReduce
  simp only [answer_eq]
  refine Agree.bind (.refl _ _) fun v hv => ?_
  cases v with
  | text name => exact Agree.bind (h _ hv) fun sheet _ => .refl _ _
  | null | bool b | number n | list rows | map es => exact .refl _ _

theorem customCompute_agree (d : Direction) {args : Arguments}
    (h : ∀ v, args.required "source" = .ok v →
      Agree excused (Sheet.ofSource cx d.function v) (Sheet.ofSource cx' d.function v)) :
    Agree excused (customCompute Dialect.compile cx d args) (customCompute Dialect.compile cx' d args) := by
  unfold customCompute Reduction.ofArguments
  simp only [answer_eq]
  refine Agree.bind (Agree.bind (.refl _ _) fun v hv => ?_) fun r _ => .refl _ _
  exact Agree.bind (h v hv) fun sheet _ => .refl _ _

/-- **Of a context that is being filled, a call reads nothing but the sheet of its source.** -/
theorem Call.run_agree (hfields : cx.schema.fields = cx'.schema.fields) (hinputs : cx.inputs = cx'.inputs)
    {args : Arguments} (h : args.function.readsSource = true → ∀ v,
      args.required args.function.sourceParameter = .ok v →
        Agree excused (Sheet.ofSource cx args.function v) (Sheet.ofSource cx' args.function v)) :
    Agree excused (Call.run Dialect.compile cx args) (Call.run Dialect.compile cx' args) := by
  obtain ⟨f, slots⟩ := args
  cases f with
  | itemsReduce => exact itemsReduce_agree (h rfl)
  | rowCompute => exact customCompute_agree .rows (h rfl)
  | columnCompute => exact customCompute_agree .columns (h rfl)
  | field =>
    refine .inl ?_
    simp only [Call.run, Call.field, field?_congr hfields]
  | crash =>
    refine .inl ?_
    simp only [Call.run, Call.crash, Context.crashes_congr hinputs]
  | sum | avg | min | max | med | float | execByJudge | selectSum | bestN => exact .refl _ _

namespace Context

/-- What an expression comes to in a context. -/
def value (cx : Context) (e : Expr) : Result Value := evaluate (cx.scope Dialect.compile) e

theorem value_name (cx : Context) (name : String) : cx.value (.name name) =
    match cx.lookup name with
    | some v => .ok v
    | none => .error (.formula (.unknownName name)) := by
  rw [value, evaluate]
  rfl

/-- **An expression comes to the same in two contexts that agree on its names and on the sheets of its sources.** -/
theorem value_agree (hfields : cx.schema.fields = cx'.schema.fields) (hinputs : cx.inputs = cx'.inputs) {e : Expr}
    (hname : ∀ name, .name name ∈ e.subterms →
      Agree excused (cx.value (.name name)) (cx'.value (.name name)))
    (hsource : ∀ f ps ks, .call f ps ks ∈ e.subterms → f.readsSource = true → f.Accepts ps.length (ks.map Prod.fst) →
      ∀ src v, Expr.sourceArgument? ps ks = some src → cx.value src = .ok v →
        Agree excused (Sheet.ofSource cx f v) (Sheet.ofSource cx' f v)) :
    Agree excused (cx.value e) (cx'.value e) := by
  refine Comparison.evaluate_compare e (C := agreement excused) ⟨hname, ?_⟩
  intro f ps ks vs kvs hcall hps hks
  refine Agree.bind (.refl _ _) fun args hargs => Call.run_agree hfields hinputs fun hf v hv => ?_
  rw [answer_eq] at hargs
  obtain ⟨rfl, haccepts, -⟩ := Arguments.bind_eq_ok hargs
  rw [length_evaluateAll hps, keys_evaluateKeywords hks] at haccepts
  obtain ⟨src, hsrc, hval⟩ := source_given hf hps hks hargs hv
  exact hsource _ ps ks hcall hf haccepts src v hsrc hval

/-- The sources of the calls that bind are written down as texts, or come to no text. -/
def NamesSources (cx : Context) (e : Expr) : Prop :=
  ∀ f ps ks src, .call f ps ks ∈ e.subterms → f.readsSource = true → f.Accepts ps.length (ks.map Prod.fst) →
    Expr.sourceArgument? ps ks = some src →
      (∃ code, src = .literal (.text code)) ∨ ∀ text, cx.value src ≠ .ok (.text text)

/-- **An expression that names its sources comes to the same where its names and its codes do.**  A code that may not
stand for a source is refused before it is looked up. -/
theorem value_eq_of_names (hfields : cx.schema.fields = cx'.schema.fields) (hinputs : cx.inputs = cx'.inputs)
    {e : Expr} (hsource : cx.NamesSources e)
    (hname : ∀ name, .name name ∈ e.subterms → cx.lookup name = cx'.lookup name)
    (hcode : ∀ code ∈ e.reads, Text.isSafeName code = true →
      cx.lookup code = cx'.lookup code ∧ cx.canonical code = cx'.canonical code) : cx.value e = cx'.value e := by
  refine (value_agree hfields hinputs (fun name hmem => .inl ?_) ?_).eq
  · rw [value_name, value_name, hname name hmem]
  · intro f ps ks hcall hf haccepts src v hsrc hv
    refine .inl ?_
    rcases hsource f ps ks src hcall hf haccepts hsrc with ⟨code, rfl⟩ | htext
    · rw [value, evaluate] at hv
      cases hv
      show Sheet.ofSource cx f (.text code) = Sheet.ofSource cx' f (.text code)
      by_cases hsafe : Text.isSafeName code = true
      · obtain ⟨hlookup, hcanonical⟩ := hcode code (Expr.source_mem_reads hcall hf hsrc) hsafe
        exact Sheet.ofSource_text_congr hfields hinputs f hlookup hcanonical
      · rw [Sheet.ofSource, Sheet.ofSource, if_neg hsafe, if_neg hsafe]
    · exact Sheet.ofSource_congr f fun name hname => htext name (hname ▸ hv)

end Context

end
end Scoresheet
