import Scoresheet.Proofs.Accepting
import Scoresheet.Proofs.Normalizing
import Scoresheet.Proofs.Reducing
/-!
# Short names spelled out

A short name that is nothing else may be replaced by the code it stands for, wherever a formula reads it: as a name,
and as a text that stands for the source of a reduction.  Names follow a table of short names that each stored output
is copied into, sources go to the code itself; both find the same value, the same declaration and the same crash
positions, so every expression comes to the same, or fails in both spellings (`concur_spellOut`).
-/
namespace Scoresheet

open Plan (target)

/-! ## Entries under one key -/

section

variable {α : Type}

/-- An entry with its value changed if it is the one under a key. -/
def atKey (p : String) (g : α → α) (k : String × α) : String × α := if k.1 = p then (k.1, g k.2) else k

@[simp] theorem fst_atKey (p : String) (g : α → α) (k : String × α) : (atKey p g k).1 = k.1 := by
  unfold atKey
  split <;> rfl

theorem find?_map_atKey (p q : String) (g : α → α) : ∀ l : List (String × α),
    Table.find? q (l.map (atKey p g)) = if q = p then (Table.find? q l).map g else Table.find? q l
  | [] => by simp [Table.find?]
  | k :: l => by
    rw [List.map_cons, Table.find?, Table.find?, fst_atKey, find?_map_atKey p q g l]
    by_cases hk : k.1 = q
    · subst hk
      by_cases hp : k.1 = p <;> simp [atKey, hp]
    · simp [hk]

theorem zip_modifyHead (p : String) (g : α → α) (ps : List String) (hp : p ∉ ps) : ∀ vs : List α,
    (p :: ps).zip (vs.modifyHead g) = ((p :: ps).zip vs).map (atKey p g)
  | [] => rfl
  | v :: vs => by
    have hrest : ∀ k ∈ ps.zip vs, atKey p g k = k := by
      rintro ⟨q, v⟩ hk
      have hne : q ≠ p := fun he => hp (he ▸ (List.of_mem_zip hk).1)
      exact if_neg hne
    rw [List.modifyHead_cons, List.zip_cons_cons, List.zip_cons_cons, List.map_cons, atKey, if_pos rfl,
      List.map_congr_left hrest, List.map_id']

end

/-! ## Spelling -/

namespace Expr

/-- A source that is a literal short name, spelled out. -/
def spellSource (short code : String) : Expr → Expr
  | .literal (.text s) => .literal (.text (if s = short then code else s))
  | e => e

mutual

/-- An expression with a short name spelled out: as a name, and as the literal source of a reduction. -/
def spellOut (short code : String) : Expr → Expr
  | .literal l => .literal l
  | .name s => .name (if s = short then code else s)
  | .binary op l r => .binary op (spellOut short code l) (spellOut short code r)
  | .unary sign e => .unary sign (spellOut short code e)
  | .call f ps ks =>
    if f.readsSource then
      .call f ((spellOutAll short code ps).modifyHead (spellSource short code))
        ((spellOutKeywords short code ks).map (atKey f.sourceParameter (spellSource short code)))
    else .call f (spellOutAll short code ps) (spellOutKeywords short code ks)
  | .subscript b i => .subscript (spellOut short code b) (spellOut short code i)
  | .list es => .list (spellOutAll short code es)
  | .tuple es => .tuple (spellOutAll short code es)
  | .dict es => .dict (spellOutEntries short code es)

def spellOutAll (short code : String) : List Expr → List Expr
  | [] => []
  | e :: es => spellOut short code e :: spellOutAll short code es

def spellOutKeywords (short code : String) : List (String × Expr) → List (String × Expr)
  | [] => []
  | (k, e) :: ks => (k, spellOut short code e) :: spellOutKeywords short code ks

def spellOutEntries (short code : String) : List (Expr × Expr) → List (Expr × Expr)
  | [] => []
  | (k, e) :: es => (spellOut short code k, spellOut short code e) :: spellOutEntries short code es

end

end Expr

/-- A value that is the short name as a text, spelled out. -/
def Value.spellOut (short code : String) : Value → Value
  | .text s => .text (if s = short then code else s)
  | v => v

section

variable {short code : String} {s : Scope Result}

theorem Value.spellOut_spellOut (short code : String) (v : Value) :
    (v.spellOut short code).spellOut short code = v.spellOut short code := by
  cases v with
  | text t => by_cases ht : t = short <;> simp [spellOut, ht]
  | null | bool b | number n | list xs | map es => rfl

/-! ## Sources -/

/-- Whichever way a literal source is spelled, its value spells out the same. -/
theorem map_evaluate_spellSource (s : Scope Result) (short code : String) (e : Expr) :
    Value.spellOut short code <$> evaluate s (e.spellSource short code) =
      Value.spellOut short code <$> evaluate s e := by
  unfold Expr.spellSource
  split
  · rename_i t
    rw [evaluate, evaluate]
    exact congrArg Except.ok (Value.spellOut_spellOut short code (.text t))
  · rfl

theorem map_evaluateAll_spellSource (s : Scope Result) (short code : String) (es : List Expr) :
    List.modifyHead (Value.spellOut short code) <$> evaluateAll s (es.modifyHead (Expr.spellSource short code)) =
      List.modifyHead (Value.spellOut short code) <$> evaluateAll s es := by
  cases es with
  | nil => rfl
  | cons e es =>
    have he := map_evaluate_spellSource s short code e
    have hsplit : ∀ e : Expr, List.modifyHead (Value.spellOut short code) <$> evaluateAll s (e :: es) = (do
        let v ← Value.spellOut short code <$> evaluate s e
        let vs ← evaluateAll s es
        return v :: vs) := by
      intro e
      rw [evaluateAll]
      simp only [map_bind, bind_map_left]
      rfl
    rw [List.modifyHead_cons, hsplit, hsplit, he]

theorem map_evaluateKeywords_spellSource (s : Scope Result) (short code p : String) (ks : List (String × Expr)) :
    List.map (atKey p (Value.spellOut short code)) <$>
        evaluateKeywords s (ks.map (atKey p (Expr.spellSource short code))) =
      List.map (atKey p (Value.spellOut short code)) <$> evaluateKeywords s ks := by
  induction ks with
  | nil => rfl
  | cons ke ks hks =>
    obtain ⟨k, e⟩ := ke
    have hsplit : ∀ (e : Expr) (ks : List (String × Expr)),
        List.map (atKey p (Value.spellOut short code)) <$> evaluateKeywords s ((k, e) :: ks) = (do
          let kv ← (fun v => atKey p (Value.spellOut short code) (k, v)) <$> evaluate s e
          let kvs ← List.map (atKey p (Value.spellOut short code)) <$> evaluateKeywords s ks
          return kv :: kvs) := by
      intro e ks
      rw [evaluateKeywords]
      simp only [map_bind, bind_map_left]
      rfl
    rw [List.map_cons, atKey]
    split
    · rename_i hk
      have hkey : (fun v => atKey p (Value.spellOut short code) (k, v)) =
          Prod.mk k ∘ Value.spellOut short code := funext fun v => if_pos hk
      have he := congrArg (fun r => Prod.mk k <$> r) (map_evaluate_spellSource s short code e)
      simp only [Functor.map_map] at he
      rw [hsplit, hsplit, hks, hkey]
      exact congrArg (fun r => r >>= _) he
    · rw [hsplit, hsplit, hks]

/-! ## Evaluation -/

/-- A scope in which both spellings are as good: the short name means what the code means, and a reduction comes to the
same when its source is spelled out. -/
structure Scope.Spells (s : Scope Result) (short code : String) : Prop where
  lookup : s.lookup short = s.lookup code
  call : ∀ f vs kvs, f.readsSource = true → Concur (s.call f vs kvs)
    (s.call f (vs.modifyHead (Value.spellOut short code))
      (kvs.map (atKey f.sourceParameter (Value.spellOut short code))))

namespace Scope.Spells

theorem concur_call (h : s.Spells short code) {f : Function} (hf : f.readsSource = true) (x : Result (List Value))
    (y : Result (List (String × Value))) :
    Concur (do let vs ← x; let kvs ← y; s.call f vs kvs) (do
      let vs ← List.modifyHead (Value.spellOut short code) <$> x
      let kvs ← List.map (atKey f.sourceParameter (Value.spellOut short code)) <$> y
      s.call f vs kvs) := by
  simp only [bind_map_left]
  exact (Concur.refl x).bind fun vs _ => (Concur.refl y).bind fun kvs _ => h.call f vs kvs hf

theorem concur_name (h : s.Spells short code) (n : String) :
    Concur (evaluate s (.name n)) (evaluate s (.name (if n = short then code else n))) := by
  split
  · rename_i hn
    rw [evaluate, evaluate, hn, h.lookup]
    cases s.lookup code with
    | none => exact concur_error _ _
    | some v => exact .refl _
  · exact .refl _

mutual

/-- **Every expression comes to the same in both spellings**, or fails in both. -/
theorem concur_spellOut (h : s.Spells short code) : ∀ e : Expr,
    Concur (evaluate s e) (evaluate s (e.spellOut short code))
  | .literal l => by
    rw [Expr.spellOut]
    exact .refl _
  | .name n => by
    rw [Expr.spellOut]
    exact h.concur_name n
  | .binary op l r => by
    rw [Expr.spellOut, evaluate, evaluate]
    exact (h.concur_spellOut l).bind fun a _ => (h.concur_spellOut r).bind fun b _ => .refl _
  | .unary sign e => by
    rw [Expr.spellOut, evaluate, evaluate]
    exact (h.concur_spellOut e).bind fun v _ => .refl _
  | .call f ps ks => by
    have hps := h.concurAll_spellOut ps
    have hks := h.concurKeywords_spellOut ks
    rw [Expr.spellOut]
    split
    · rename_i hf
      -- both calls are compared with the one whose source is spelled out as a value
      rw [evaluate, evaluate]
      refine (h.concur_call hf _ _).trans (.trans ?_ (h.concur_call hf _ _).symm)
      rw [map_evaluateAll_spellSource, map_evaluateKeywords_spellSource]
      exact (hps.map _).bind fun vs _ => (hks.map _).bind fun kvs _ => .refl _
    · rw [evaluate, evaluate]
      exact hps.bind fun vs _ => hks.bind fun kvs _ => .refl _
  | .subscript b i => by
    rw [Expr.spellOut, evaluate, evaluate]
    exact (h.concur_spellOut b).bind fun base _ => (h.concur_spellOut i).bind fun index _ => .refl _
  | .list es => by
    rw [Expr.spellOut, evaluate, evaluate]
    exact (h.concurAll_spellOut es).bind fun vs _ => .refl _
  | .tuple es => by
    rw [Expr.spellOut, evaluate, evaluate]
    exact (h.concurAll_spellOut es).bind fun vs _ => .refl _
  | .dict es => by
    rw [Expr.spellOut, evaluate, evaluate]
    exact (h.concurEntries_spellOut es []).bind fun entries _ => .refl _

theorem concurAll_spellOut (h : s.Spells short code) : ∀ es : List Expr,
    Concur (evaluateAll s es) (evaluateAll s (Expr.spellOutAll short code es))
  | [] => by
    rw [Expr.spellOutAll]
    exact .refl _
  | e :: es => by
    rw [Expr.spellOutAll, evaluateAll, evaluateAll]
    exact (h.concur_spellOut e).bind fun v _ => (h.concurAll_spellOut es).bind fun vs _ => .refl _

theorem concurKeywords_spellOut (h : s.Spells short code) : ∀ ks : List (String × Expr),
    Concur (evaluateKeywords s ks) (evaluateKeywords s (Expr.spellOutKeywords short code ks))
  | [] => by
    rw [Expr.spellOutKeywords]
    exact .refl _
  | (k, e) :: ks => by
    rw [Expr.spellOutKeywords, evaluateKeywords, evaluateKeywords]
    exact (h.concur_spellOut e).bind fun v _ => (h.concurKeywords_spellOut ks).bind fun rest _ => .refl _

theorem concurEntries_spellOut (h : s.Spells short code) : ∀ (es : List (Expr × Expr)) (done : List (String × Value)),
    Concur (evaluateEntries s done es) (evaluateEntries s done (Expr.spellOutEntries short code es))
  | [], done => by
    rw [Expr.spellOutEntries]
    exact .refl _
  | (k, e) :: es, done => by
    rw [Expr.spellOutEntries, evaluateEntries, evaluateEntries]
    exact (h.concur_spellOut k).bind fun kv _ => (Concur.refl _).bind fun key _ =>
      (h.concur_spellOut e).bind fun v _ => h.concurEntries_spellOut es _

end

end Scope.Spells

end

/-! ## Reductions -/

/-- Arguments that are the same but for the source, which is spelled out. -/
structure Arguments.Spelled (short code : String) (args args' : Arguments) : Prop where
  function : args'.function = args.function
  source : args'.given? args.function.sourceParameter =
    (args.given? args.function.sourceParameter).map (Value.spellOut short code)
  other : ∀ p, p ≠ args.function.sourceParameter → args'.given? p = args.given? p

section

variable {short code : String} {cx : Context} {args args' : Arguments}

/-- A call binds with the source spelled out just when it binds without. -/
theorem Arguments.isOk_bind_spellOut (f : Function) (vs : List Value) (kvs : List (String × Value)) :
    (bind f (vs.modifyHead (Value.spellOut short code))
      (kvs.map (atKey f.sourceParameter (Value.spellOut short code)))).isOk = (bind f vs kvs).isOk := by
  have hkeys : (kvs.map (atKey f.sourceParameter (Value.spellOut short code))).map Prod.fst = kvs.map Prod.fst := by
    rw [List.map_map]
    exact List.map_congr_left fun k _ => fst_atKey _ _ k
  rw [Bool.eq_iff_iff, bind_isOk_iff, bind_isOk_iff, hkeys, List.length_modifyHead]

theorem Arguments.spelled_of_bind {f : Function} (hf : f.readsSource = true) {vs : List Value}
    {kvs : List (String × Value)} (h : bind f vs kvs = .ok args) (h' : bind f
      (vs.modifyHead (Value.spellOut short code)) (kvs.map (atKey f.sourceParameter (Value.spellOut short code))) =
        .ok args') : Spelled short code args args' := by
  obtain ⟨ps, hps⟩ := Function.parameters_eq_cons hf
  have hnodup := f.parameters_nodup
  rw [hps] at hnodup
  -- in positions as among the keywords, the entry for the source is the one that changes
  have hgiven : ∀ p, args'.given? p =
      if p = f.sourceParameter then (args.given? p).map (Value.spellOut short code) else args.given? p := by
    intro p
    by_cases hp : p ∈ f.parameters
    · rw [given?_bind h hp, given?_bind h' hp, hps, zip_modifyHead _ _ ps (List.nodup_cons.1 hnodup).1,
        find?_map_atKey, find?_map_atKey]
      split
      · cases Table.find? p ((f.sourceParameter :: ps).zip vs) <;> rfl
      · rfl
    · have hnone : args.given? p = none := Option.eq_none_iff_forall_not_mem.2 fun v hv =>
        hp (mem_parameters_of_given? h hv)
      have hnone' : args'.given? p = none := Option.eq_none_iff_forall_not_mem.2 fun v hv =>
        hp (mem_parameters_of_given? h' hv)
      rw [hnone, hnone']
      split <;> rfl
  obtain rfl := (bind_eq_ok h).1
  exact ⟨(bind_eq_ok h').1, (hgiven _).trans (if_pos rfl), fun p hp => (hgiven p).trans (if_neg hp)⟩

namespace Arguments.Spelled

theorem get?_eq (h : Spelled short code args args') {p : String} (hp : p ≠ args.function.sourceParameter) :
    args.get? p = args'.get? p := by
  rw [get?, get?, h.other p hp]

theorem int?_eq (h : Spelled short code args args') {p : String} (hp : p ≠ args.function.sourceParameter) :
    args.int? p = args'.int? p := by
  rw [int?, int?, h.get?_eq hp]

theorem window_eq (h : Spelled short code args args') (hf : args.function.readsSource = true) :
    Window.ofArguments args = Window.ofArguments args' := by
  have hstart : "start" ≠ args.function.sourceParameter := by
    revert hf
    cases args.function <;> decide
  have hcount : "count" ≠ args.function.sourceParameter := by
    revert hf
    cases args.function <;> decide
  rw [Window.ofArguments, Window.ofArguments, h.int?_eq hstart, h.int?_eq hcount]

/-- What follows the source of a call may see it in either spelling. -/
theorem concur_required (h : Spelled short code args args') {α : Type} {f g : Value → Result α}
    (hfg : ∀ v, Concur (f v) (g (v.spellOut short code))) :
    Concur (args.required args.function.sourceParameter >>= f)
      (args'.required args.function.sourceParameter >>= g) := by
  rw [required, required, h.source]
  cases args.given? args.function.sourceParameter with
  | none => exact concur_error _ _
  | some v => exact hfg v

end Arguments.Spelled

theorem Stage.concur_ofArguments {level post : String} (fallback : Option Int)
    (h : ∀ p ∈ [level ++ "_select", level ++ "_n", level ++ "_agg", post], args.get? p = args'.get? p) :
    Concur (Stage.ofArguments Dialect.compile args level fallback post)
      (Stage.ofArguments Dialect.compile args' level fallback post) := by
  have hselect := h (level ++ "_select") (by simp)
  have hcount := h (level ++ "_n") (by simp)
  have hname := h (level ++ "_agg") (by simp)
  have hpost := h post (by simp)
  unfold Stage.ofArguments
  simp only [answer_eq, Arguments.int?, hcount, hpost]
  exact (Arguments.concur_textOr hselect _).bind fun _ _ => (Arguments.concur_textOr hname _).bind fun _ _ => .refl _

/-- The source of a call may be given in either spelling. -/
def Context.Resolves (cx : Context) (short code : String) : Prop :=
  ∀ f v, Concur (Sheet.ofSource cx f v) (Sheet.ofSource cx f (v.spellOut short code))

namespace Arguments.Spelled

theorem concur_itemsReduce (h : Spelled short code args args') (hf : args.function = .itemsReduce)
    (hcx : cx.Resolves short code) :
    Concur (itemsReduce Dialect.compile cx args) (itemsReduce Dialect.compile cx args') := by
  have hsource : args.function.sourceParameter = "field_code" := by rw [hf]; rfl
  have hget : ∀ p, p ≠ "field_code" → args.get? p = args'.get? p := fun p hp => h.get?_eq (hsource ▸ hp)
  have hrequired := @h.concur_required
  rw [hsource] at hrequired
  have hlimit : args.int? "limit_items" = args'.int? "limit_items" := h.int?_eq (hsource ▸ by decide)
  unfold itemsReduce
  simp only [answer_eq, ← h.window_eq (by rw [hf]; rfl), hlimit]
  refine hrequired fun v => ?_
  cases v with
  | text name =>
    refine (hcx .itemsReduce (.text name)).bind fun sheet _ => ?_
    refine (concur_textOr (hget "item_expr" (by decide)) _).bind fun item _ => (Concur.refl _).bind fun change _ => ?_
    exact (concur_textOr (hget "agg" (by decide)) _).bind fun name _ => .refl _
  | null | bool b | number n | list xs | map es => exact concur_error _ _

theorem concur_customCompute (h : Spelled short code args args') {d : Direction} (hd : args.function = d.function)
    (hcx : cx.Resolves short code) :
    Concur (customCompute Dialect.compile cx d args) (customCompute Dialect.compile cx d args') := by
  have hsource : args.function.sourceParameter = "source" := by rw [hd]; cases d <;> rfl
  have hget : ∀ p, p ≠ "source" → args.get? p = args'.get? p := fun p hp => h.get?_eq (hsource ▸ hp)
  have hrequired := @h.concur_required
  rw [hsource] at hrequired
  have hcount : args.int? "n" = args'.int? "n" := h.int?_eq (hsource ▸ by decide)
  have hinner : ∀ p ∈ [d.inner ++ "_select", d.inner ++ "_n", d.inner ++ "_agg", "post_agg_expr"],
      args.get? p = args'.get? p := fun p hp => hget p (by revert p; cases d <;> decide)
  have houter : ∀ p ∈ [d.outer ++ "_select", d.outer ++ "_n", d.outer ++ "_agg", "post_final_expr"],
      args.get? p = args'.get? p := fun p hp => hget p (by revert p; cases d <;> decide)
  have hmode : Concur ((args.textOr "return_mode" "final").map Text.trim)
      ((args'.textOr "return_mode" "final").map Text.trim) :=
    (concur_textOr (hget "return_mode" (by decide)) _).map Text.trim
  unfold customCompute Reduction.ofArguments
  simp only [answer_eq, ← h.window_eq (by rw [hd]; cases d <;> rfl), ← hcount]
  refine Concur.bind (hrequired fun v => (hcx d.function v).bind fun sheet _ => ?_) fun r _ => .refl _
  refine (concur_textOr (hget "item_expr" (by decide)) _).bind fun item _ => (Concur.refl _).bind fun change _ => ?_
  refine (concur_textOr (hget "select_on" (by decide)) _).bind fun selectOn _ => (Concur.refl _).bind fun judged _ => ?_
  refine (concur_textOr (hget "agg_on" (by decide)) _).bind fun aggOn _ => (Concur.refl _).bind fun counted _ => ?_
  refine (Stage.concur_ofArguments _ hinner).bind fun inner _ => ?_
  refine (Stage.concur_ofArguments _ houter).bind fun outer _ => ?_
  exact hmode.bind fun mode _ => .refl _

/-- **A reduction comes to the same in both spellings of its source**, or fails in both. -/
theorem concur_run (h : Spelled short code args args') (hf : args.function.readsSource = true)
    (hcx : cx.Resolves short code) : Concur (Call.run Dialect.compile cx args) (Call.run Dialect.compile cx args') := by
  rw [Call.run, Call.run, h.function]
  cases hfunction : args.function with
  | itemsReduce => exact h.concur_itemsReduce hfunction hcx
  | rowCompute => exact h.concur_customCompute hfunction hcx
  | columnCompute => exact h.concur_customCompute hfunction hcx
  | _ => rw [hfunction] at hf; cases hf

end Arguments.Spelled

/-! ## Contexts -/

namespace Context

/-- A short name that is nothing else: no input, no output and not the parameters, for a code that is no short name. -/
structure Abbreviates (cx : Context) (short code : String) : Prop where
  safe : Text.isSafeName short = true
  codeSafe : Text.isSafeName code = true
  stands : cx.aliases.get? short = some code
  input : cx.inputs.get? short = none
  output : cx.outputs.get? short = none
  params : short ≠ "params"
  plain : cx.aliases.get? code = none

namespace Abbreviates

theorem lookup_eq (h : cx.Abbreviates short code) (ht : cx.Tracks) : cx.lookup short = cx.lookup code := by
  have hmeaning : cx.meaning short = none := by
    rw [meaning, h.output, base?, if_neg h.params, h.input]
    rfl
  have hplain : cx.aliases.contains code = true → cx.meaning code = none := by
    rw [Table.contains, h.plain]
    exact fun hc => by cases hc
  rw [Context.lookup_eq ht fun _ => hmeaning, Context.lookup_eq ht hplain, target, target, h.stands, h.plain]
  rfl

theorem canonical_eq (h : cx.Abbreviates short code) : cx.canonical short = cx.canonical code := by
  have hplain : cx.aliases.contains code = true → cx.outputs.get? code = none := by
    rw [Table.contains, h.plain]
    exact fun hc => by cases hc
  rw [Context.canonical_eq fun _ => h.output, Context.canonical_eq hplain, target, target, h.stands, h.plain]
  rfl

theorem resolves (h : cx.Abbreviates short code) (ht : cx.Tracks) : cx.Resolves short code := by
  intro f v
  cases v with
  | text name =>
    rw [Value.spellOut]
    split
    · rename_i hname
      rw [hname, Sheet.ofSource, Sheet.ofSource, if_pos h.safe, if_pos h.codeSafe, h.lookup_eq ht, h.canonical_eq]
      cases cx.lookup code with
      | none => exact concur_error _ _
      | some v => exact .refl _
    · exact .refl _
  | null | bool b | number n | list xs | map es => exact .refl _

theorem spells (h : cx.Abbreviates short code) (ht : cx.Tracks) : (cx.scope Dialect.compile).Spells short code := by
  refine ⟨h.lookup_eq ht, fun f vs kvs hf => ?_⟩
  show Concur (answer (Arguments.bind f vs kvs) >>= Call.run Dialect.compile cx)
    (answer (Arguments.bind f _ _) >>= Call.run Dialect.compile cx)
  rw [answer_eq, answer_eq]
  have hok := @Arguments.isOk_bind_spellOut short code f vs kvs
  cases hargs : Arguments.bind f vs kvs with
  | error e =>
    rw [hargs] at hok
    cases hargs' : Arguments.bind f (vs.modifyHead (Value.spellOut short code))
        (kvs.map (atKey f.sourceParameter (Value.spellOut short code))) with
    | error e' => exact concur_error e e'
    | ok args' => rw [hargs'] at hok; cases hok
  | ok args =>
    rw [hargs] at hok
    obtain ⟨args', hargs'⟩ := exists_ok hok
    rw [hargs']
    have hspelled := Arguments.spelled_of_bind hf hargs hargs'
    obtain rfl := (Arguments.bind_eq_ok hargs).1
    exact hspelled.concur_run hf (h.resolves ht)

end Abbreviates
end Context

end

/-- **A short name that is nothing else may be spelled out**, after any outputs: it means what its code means, and every
expression comes to the same with the code in its place, as a name or as the literal source of a reduction, or fails in
both spellings. -/
theorem spellOut_transparent {s : Schema} {inputs : Table Value} {aliases : Table String} {l : List (String × Value)}
    {short code : String} (hsafe : Text.isSafeName short = true) (hcode : Text.isSafeName code = true)
    (hshort : aliases.get? short = some code) (hinput : inputs.get? short = none) (hstored : short ∉ l.map Prod.fst)
    (hparams : short ≠ "params") (hplain : aliases.get? code = none) :
    let cx := (Context.start s inputs aliases).storeAll l
    cx.lookup short = cx.lookup code ∧ ∀ e : Expr, Concur (cx.value e) (cx.value (e.spellOut short code)) := by
  intro cx
  have ht : cx.Tracks := Context.tracks_storeAll l (Context.tracks_start s inputs aliases)
  have haliases : cx.aliases = aliases := Context.storeAll_aliases l _
  have hinputs : cx.inputs = inputs := Context.storeAll_inputs l _
  have houtput : cx.outputs.get? short = none := Context.outputs_storeAll_of_notMem l _ hstored
  have h : cx.Abbreviates short code :=
    ⟨hsafe, hcode, haliases ▸ hshort, hinputs ▸ hinput, houtput, hparams, haliases ▸ hplain⟩
  exact ⟨h.lookup_eq ht, (h.spells ht).concur_spellOut⟩

theorem spellOut_transparent_matrix : ∃ (s : Schema) (inputs : Table Value) (aliases : Table String)
    (l : List (String × Value)) (e : Expr), Text.isSafeName "m" = true ∧ Text.isSafeName "M" = true ∧
    aliases.get? "m" = some "M" ∧ inputs.get? "m" = none ∧ "m" ∉ l.map Prod.fst ∧ "m" ≠ "params" ∧
    aliases.get? "M" = none ∧
    let cx := (Context.start s inputs aliases).storeAll l
    cx.lookup "m" = cx.lookup "M" ∧ (cx.value e).isOk = true ∧ Expr.name "m" ∈ e.subterms ∧
      Expr.name "m" ∉ (e.spellOut "m" "M").subterms ∧ Concur (cx.value e) (cx.value (e.spellOut "m" "M")) := by
  let f : Field := ⟨"M", none, some "matrix", some "judge_x_item", none, none, none, some ⟨some 2⟩, some ⟨some 2⟩,
    some true, some "m", .empty⟩
  let s : Schema := ⟨.empty, [f], [], none⟩
  let raw : Table Value := .ofList [("M", .list [.list [.number 1, .number 5], .list [.number 3]]),
    ("__crash__M", .list [.number 2])]
  let e : Expr := .binary .add (.call .rowCompute [.literal (.text "m")] [("col_agg", .literal (.text "max"))])
    (.call .sum [.name "m"] [])
  have hsafe : Text.isSafeName "m" = true := by decide +kernel
  have hcode : Text.isSafeName "M" = true := by decide +kernel
  have hshort : s.aliases.get? "m" = some "M" := by decide +kernel
  have hplain : s.aliases.get? "M" = none := by decide +kernel
  have hinput : ((normalize s.fields raw).get? "m").isNone = true := by decide +kernel
  obtain ⟨hlookup, hvalue⟩ := @spellOut_transparent s (normalize s.fields raw) s.aliases [("T", .number 7)] "m" "M"
    hsafe hcode hshort (Option.isNone_iff_eq_none.1 hinput) (by decide) (by decide) hplain
  have hok : (((Context.start s (normalize s.fields raw) s.aliases).storeAll [("T", .number 7)]).value e).isOk =
      true := by
    decide +kernel
  refine ⟨s, normalize s.fields raw, s.aliases, [("T", .number 7)], e, hsafe, hcode, hshort,
    Option.isNone_iff_eq_none.1 hinput, by decide, by decide, hplain, hlookup, hok, ?_, ?_, hvalue e⟩
  · simp [e, Expr.subterms, Expr.subtermsOfAll]
  · simp [e, Expr.spellOut, Expr.spellOutAll, Expr.spellOutKeywords, Expr.spellSource, Function.readsSource,
      Expr.subterms, Expr.subtermsOfAll, Expr.subtermsOfKeywords, atKey]

end Scoresheet
