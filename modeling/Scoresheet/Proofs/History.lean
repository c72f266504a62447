import Scoresheet.Proofs.Accepting
import Scoresheet.Scorer
/-!
# Sessions: what a library changes

A session looks texts up in a library before it compiles them, and the library goes from one sheet to the next.  A
library that starts empty is faithful at every point: what it keeps for a text is what the text compiles to.  From a
faithful library a session comes to what scoring without a library comes to, whether it succeeds or fails, and leaves a
faithful library that has kept every entry (`Follows`).  So what was asked for before changes no answer
(`score_after_history`).
-/
namespace Scoresheet

/-! ## Faithful libraries -/

namespace Library

/-- No text has two entries, and what is kept for a text is what it compiles to. -/
structure Faithful (lib : Library) : Prop where
  nodup : (lib.entries.map Prod.fst).Nodup
  compile_eq : ∀ d source e, ((d, source), e) ∈ lib.entries → d.compile source = .ok e

theorem faithful_empty : Faithful empty := ⟨List.nodup_nil, fun d source e h => by cases h⟩

variable {lib : Library} {d : Dialect} {source : String}

theorem mem_of_find? {e : Expr} (h : lib.find? d source = some e) : ((d, source), e) ∈ lib.entries := by
  unfold find? at h
  obtain ⟨⟨key, e⟩, hfind, rfl⟩ := Option.map_eq_some_iff.1 h
  have hkey : key = (d, source) := by simpa using List.find?_some hfind
  subst hkey
  exact List.mem_of_find?_eq_some hfind

theorem notMem_of_find? (h : lib.find? d source = none) : (d, source) ∉ lib.entries.map Prod.fst := by
  unfold find? at h
  intro hmem
  obtain ⟨x, hx, hkey⟩ := List.mem_map.1 hmem
  have := List.find?_eq_none.1 (Option.map_eq_none_iff.1 h) x hx
  simp [hkey] at this

/-- A text that does not compile leaves the library as it is. -/
theorem compile_of_error {fault : Error} (hlib : lib.Faithful) (h : d.compile source = .error fault) :
    lib.compile d source = (.error fault, lib) := by
  unfold compile
  cases hfind : lib.find? d source with
  | some e =>
    have := hlib.compile_eq d source e (mem_of_find? hfind)
    rw [h] at this
    cases this
  | none => simp only [h]

/-- **A faithful library answers as the dialect does**, and stays faithful. -/
theorem Faithful.compile (hlib : lib.Faithful) (d : Dialect) (source : String) :
    (lib.compile d source).1 = d.compile source ∧ (lib.compile d source).2.Faithful ∧
      lib.entries <:+ (lib.compile d source).2.entries := by
  cases h : d.compile source with
  | error fault =>
    rw [compile_of_error hlib h]
    exact ⟨rfl, hlib, List.suffix_refl _⟩
  | ok e =>
    unfold Library.compile
    cases hfind : lib.find? d source with
    | some e' =>
      have := hlib.compile_eq d source e' (mem_of_find? hfind)
      rw [h] at this
      exact ⟨this.symm, hlib, List.suffix_refl _⟩
    | none =>
      simp only [h]
      refine ⟨trivial, ⟨List.nodup_cons.2 ⟨notMem_of_find? hfind, hlib.nodup⟩, fun d' source' e' hmem => ?_⟩,
        List.suffix_cons _ _⟩
      rcases List.mem_cons.1 hmem with heq | hmem
      · cases heq
        exact h
      · exact hlib.compile_eq d' source' e' hmem

end Library

/-! ## Sessions that follow plain answers -/

namespace Session

/-- From any faithful library the session comes to the answer, and leaves a faithful library with all entries kept. -/
def Follows {α : Type} (x : Session α) (r : Result α) : Prop :=
  ∀ lib : Library, lib.Faithful → (x.run.run lib).1 = r ∧ (x.run.run lib).2.Faithful ∧
    lib.entries <:+ (x.run.run lib).2.entries

variable {α β : Type}

theorem follows_pure (a : α) : Follows (pure a) (.ok a) := fun _ hlib => ⟨rfl, hlib, List.suffix_refl _⟩

theorem follows_throw (e : Error) : Follows (throw e : Session α) (.error e) := fun _ hlib =>
  ⟨rfl, hlib, List.suffix_refl _⟩

theorem follows_answer (r : Result α) : Follows (answer r) r := by
  cases r with
  | error e => exact follows_throw e
  | ok a => exact follows_pure a

theorem follows_compile (d : Dialect) (source : String) : Follows (compile d source) (d.compile source) :=
  fun _ hlib => hlib.compile d source

theorem run_bind (x : Session α) (f : α → Session β) (lib : Library) :
    (x >>= f).run.run lib =
      match x.run.run lib with
      | (.ok a, lib') => (f a).run.run lib'
      | (.error e, lib') => (.error e, lib') := by
  simp only [bind, ExceptT.bind, ExceptT.bindCont, ExceptT.run, ExceptT.mk, StateT.run, StateT.bind]
  cases x lib with
  | mk r lib' => cases r <;> rfl

theorem run_tryCatch (x : Session α) (f : Error → Session α) (lib : Library) :
    (tryCatch x f).run.run lib =
      match x.run.run lib with
      | (.ok a, lib') => (.ok a, lib')
      | (.error e, lib') => (f e).run.run lib' := by
  simp only [tryCatch, tryCatchThe, MonadExceptOf.tryCatch, ExceptT.tryCatch, ExceptT.run, ExceptT.mk, StateT.run,
    bind, StateT.bind]
  cases x lib with
  | mk r lib' => cases r <;> rfl

theorem Follows.bind {x : Session α} {r : Result α} {f : α → Session β} {g : α → Result β} (h : Follows x r)
    (hf : ∀ a, Follows (f a) (g a)) : Follows (x >>= f) (r >>= g) := by
  intro lib hlib
  obtain ⟨hr, hlib', hkept⟩ := h lib hlib
  rw [run_bind]
  cases hx : x.run.run lib with
  | mk r' lib' =>
    rw [hx] at hr hlib' hkept
    dsimp only at hr hlib' hkept
    subst hr
    cases r' with
    | error e => exact ⟨rfl, hlib', hkept⟩
    | ok a =>
      obtain ⟨hr, hlib'', hkept'⟩ := hf a lib' hlib'
      exact ⟨hr, hlib'', hkept.trans hkept'⟩

theorem Follows.map {x : Session α} {r : Result α} (h : Follows x r) (f : α → β) : Follows (f <$> x) (f <$> r) := by
  rw [← bind_pure_comp, ← bind_pure_comp]
  exact h.bind fun a => follows_pure (f a)

/-- An error that is put into another one. -/
theorem Follows.within {x : Session α} {r : Result α} (h : Follows x r) (f : Error → Error) :
    Follows (tryCatch x fun e => throw (f e)) (tryCatch r fun e => throw (f e)) := by
  intro lib hlib
  obtain ⟨hr, hlib', hkept⟩ := h lib hlib
  rw [run_tryCatch]
  cases hx : x.run.run lib with
  | mk r' lib' =>
    rw [hx] at hr hlib' hkept
    dsimp only at hr hlib' hkept
    subst hr
    cases r' <;> exact ⟨rfl, hlib', hkept⟩

theorem follows_foldlM {f : β → α → Session β} {g : β → α → Result β} (h : ∀ b a, Follows (f b a) (g b a)) :
    ∀ (l : List α) (b : β), Follows (l.foldlM f b) (l.foldlM g b)
  | [], b => by
    rw [List.foldlM_nil, List.foldlM_nil]
    exact follows_pure b
  | a :: l, b => by
    rw [List.foldlM_cons, List.foldlM_cons]
    exact (h b a).bind fun b' => follows_foldlM h l b'

/-! ## Evaluation -/

/-- Two scopes that mean the same by names, and one's calls follow the other's. -/
structure FollowsIn (s : Scope Session) (s' : Scope Result) : Prop where
  lookup : s.lookup = s'.lookup
  call : ∀ f vs kvs, Follows (s.call f vs kvs) (s'.call f vs kvs)

variable {s : Scope Session} {s' : Scope Result}

mutual

theorem follows_evaluate (h : FollowsIn s s') : ∀ e : Expr, Follows (evaluate s e) (evaluate s' e)
  | .literal l => by
    rw [evaluate, evaluate]
    exact follows_pure _
  | .name n => by
    rw [evaluate, evaluate, h.lookup]
    cases s'.lookup n with
    | some v => exact follows_pure v
    | none => exact follows_throw _
  | .binary op l r => by
    rw [evaluate, evaluate]
    refine (follows_evaluate h l).bind fun a => (follows_evaluate h r).bind fun b => ?_
    rw [answer_eq]
    exact follows_answer _
  | .unary sign e => by
    rw [evaluate, evaluate]
    refine (follows_evaluate h e).bind fun v => ?_
    rw [answer_eq]
    exact follows_answer _
  | .call f ps ks => by
    rw [evaluate, evaluate]
    exact (follows_evaluateAll h ps).bind fun vs => (follows_evaluateKeywords h ks).bind fun kvs => h.call f vs kvs
  | .subscript b i => by
    rw [evaluate, evaluate]
    refine (follows_evaluate h b).bind fun base => (follows_evaluate h i).bind fun index => ?_
    rw [answer_eq]
    exact follows_answer _
  | .list es => by
    rw [evaluate, evaluate]
    exact (follows_evaluateAll h es).bind fun vs => follows_pure _
  | .tuple es => by
    rw [evaluate, evaluate]
    exact (follows_evaluateAll h es).bind fun vs => follows_pure _
  | .dict es => by
    rw [evaluate, evaluate]
    exact (follows_evaluateEntries h es []).bind fun entries => follows_pure _

theorem follows_evaluateAll (h : FollowsIn s s') :
    ∀ es : List Expr, Follows (evaluateAll s es) (evaluateAll s' es)
  | [] => by
    rw [evaluateAll, evaluateAll]
    exact follows_pure _
  | e :: es => by
    rw [evaluateAll, evaluateAll]
    exact (follows_evaluate h e).bind fun v => (follows_evaluateAll h es).bind fun vs => follows_pure _

theorem follows_evaluateKeywords (h : FollowsIn s s') :
    ∀ ks : List (String × Expr), Follows (evaluateKeywords s ks) (evaluateKeywords s' ks)
  | [] => by
    rw [evaluateKeywords, evaluateKeywords]
    exact follows_pure _
  | (k, e) :: ks => by
    rw [evaluateKeywords, evaluateKeywords]
    exact (follows_evaluate h e).bind fun v => (follows_evaluateKeywords h ks).bind fun rest => follows_pure _

theorem follows_evaluateEntries (h : FollowsIn s s') :
    ∀ (es : List (Expr × Expr)) (done : List (String × Value)),
      Follows (evaluateEntries s done es) (evaluateEntries s' done es)
  | [], done => by
    rw [evaluateEntries, evaluateEntries]
    exact follows_pure _
  | (k, e) :: es, done => by
    rw [evaluateEntries, evaluateEntries]
    refine (follows_evaluate h k).bind fun kv => ?_
    rw [answer_eq]
    exact (follows_answer _).bind fun key => (follows_evaluate h e).bind fun v => follows_evaluateEntries h es _

end

/-! ## Calls -/

theorem follows_stage (args : Arguments) (level : String) (fallback : Option Int) (post : String) :
    Follows (Stage.ofArguments compile args level fallback post)
      (Stage.ofArguments Dialect.compile args level fallback post) := by
  unfold Stage.ofArguments
  simp only [answer_eq]
  refine (follows_answer _).bind fun select => (follows_answer _).bind fun aggregate => ?_
  -- what follows the expression is the same with one and without
  have hrest : ∀ change : Option Expr, Follows (do
      let criterion ← answer ((Criterion.ofName select ((args.int? (level ++ "_n")).or fallback)).mapError .selection)
      let aggregate ← answer ((Aggregate.ofName aggregate).mapError .selection)
      pure ⟨criterion, aggregate, change⟩ : Session Stage) (do
      let criterion ← (Criterion.ofName select ((args.int? (level ++ "_n")).or fallback)).mapError .selection
      let aggregate ← (Aggregate.ofName aggregate).mapError .selection
      pure ⟨criterion, aggregate, change⟩) := fun change =>
    (follows_answer _).bind fun criterion => (follows_answer _).bind fun aggregate => follows_pure _
  split
  · exact (follows_pure none).bind hrest
  · exact ((follows_compile .aggregate _).map some).bind hrest
  · exact follows_throw _

theorem follows_reduction (cx : Context) (d : Direction) (args : Arguments) :
    Follows (Reduction.ofArguments compile cx d args) (Reduction.ofArguments Dialect.compile cx d args) := by
  unfold Reduction.ofArguments
  simp only [answer_eq]
  refine (follows_answer _).bind fun source => (follows_answer _).bind fun sheet => ?_
  refine (follows_answer _).bind fun item => (follows_compile .item item).bind fun change => ?_
  refine (follows_answer _).bind fun selectOn => (follows_answer _).bind fun judged => ?_
  refine (follows_answer _).bind fun aggOn => (follows_answer _).bind fun counted => ?_
  refine (follows_stage _ _ _ _).bind fun inner => (follows_stage _ _ _ _).bind fun outer => ?_
  refine (follows_answer _).bind fun mode => ?_
  split
  · exact follows_throw _
  · exact follows_pure _

theorem follows_customCompute (cx : Context) (d : Direction) (args : Arguments) :
    Follows (customCompute compile cx d args) (customCompute Dialect.compile cx d args) := by
  unfold customCompute
  refine (follows_reduction cx d args).bind fun r => ?_
  rw [answer_eq]
  exact follows_answer _

theorem follows_itemsReduce (cx : Context) (args : Arguments) :
    Follows (itemsReduce compile cx args) (itemsReduce Dialect.compile cx args) := by
  unfold itemsReduce
  simp only [answer_eq]
  refine (follows_answer _).bind fun source => ?_
  cases source with
  | text name =>
    refine (follows_answer _).bind fun sheet => (follows_answer _).bind fun item => ?_
    refine (follows_compile .item item).bind fun change => (follows_answer _).bind fun name => ?_
    exact (follows_answer _).bind fun aggregate => (follows_answer _).bind fun results => follows_pure _
  | null | bool b | number n | list xs | map es => exact follows_throw _

theorem follows_call (cx : Context) (args : Arguments) :
    Follows (Call.run compile cx args) (Call.run Dialect.compile cx args) := by
  unfold Call.run
  simp only [answer_eq]
  cases args.function with
  | itemsReduce => exact follows_itemsReduce cx args
  | rowCompute => exact follows_customCompute cx .rows args
  | columnCompute => exact follows_customCompute cx .columns args
  | sum | avg | min | max | med | float | execByJudge | selectSum | bestN | field | crash => exact follows_answer _

/-- **A session gives an expression the value that it has without a library.** -/
theorem follows_value (cx : Context) (e : Expr) :
    Follows (evaluate (cx.scope compile) e) (evaluate (cx.scope Dialect.compile) e) := by
  refine follows_evaluate ⟨rfl, fun f vs kvs => ?_⟩ e
  simp only [Context.scope, answer_eq]
  exact (follows_answer _).bind fun args => follows_call cx args

/-! ## Sheets -/

theorem follows_advance (cx : Context) (node : Node) :
    Follows (Scorer.advance compile cx node) (Scorer.advance Dialect.compile cx node) := by
  unfold Scorer.advance
  exact ((follows_value cx node.expr).within _).bind fun v => follows_pure _

/-- **A session scores a sheet as it is scored without a library.** -/
theorem follows_score (sc : Scorer) (raw : Table Value) : Follows (sc.scoreWith compile raw) (sc.score raw) := by
  unfold Scorer.score Scorer.scoreWith Scorer.run
  exact (follows_foldlM follows_advance _ _).bind fun cx => follows_pure _

/-! ## Histories -/

/-- What a scorer is asked for. -/
inductive Request where
  | score (raw : Table Value)
  | normalize (raw : Table Value)

/-- The library after a request.  Bringing inputs into shape compiles nothing. -/
def serve (sc : Scorer) (lib : Library) : Request → Library
  | .score raw => (score lib sc raw).2
  | .normalize _ => lib

/-- The library after some requests to a new scorer. -/
def served (sc : Scorer) (history : List Request) : Library := history.foldl (serve sc) .empty

theorem faithful_serve (sc : Scorer) {lib : Library} (hlib : lib.Faithful) (q : Request) :
    (serve sc lib q).Faithful ∧ lib.entries <:+ (serve sc lib q).entries := by
  cases q with
  | score raw => exact (follows_score sc raw lib hlib).2
  | normalize raw => exact ⟨hlib, List.suffix_refl _⟩

theorem faithful_foldl_serve (sc : Scorer) : ∀ (history : List Request) {lib : Library}, lib.Faithful →
    (history.foldl (serve sc) lib).Faithful ∧ lib.entries <:+ (history.foldl (serve sc) lib).entries
  | [], _, hlib => ⟨hlib, List.suffix_refl _⟩
  | q :: history, lib, hlib => by
    obtain ⟨hnext, hkept⟩ := faithful_serve sc hlib q
    obtain ⟨hlast, hkept'⟩ := faithful_foldl_serve sc history hnext
    exact ⟨hlast, hkept.trans hkept'⟩

theorem faithful_served (sc : Scorer) (history : List Request) : (served sc history).Faithful :=
  (faithful_foldl_serve sc history Library.faithful_empty).1

/-- **What a scorer was asked for before changes no answer.**  After any requests, answered or failed, a sheet comes to
what it comes to with a new scorer, which is what it comes to without a library.  All along each entry of the library is
what its text compiles to and stays there, and a text that does not compile adds none. -/
theorem score_after_history (sc : Scorer) (history : List Request) (raw : Table Value) :
    (score (served sc history) sc raw).1 = (score .empty sc raw).1 ∧
    (score (served sc history) sc raw).1 = sc.score raw ∧
    (served sc history).Faithful ∧
    (∀ later, (served sc history).entries <:+ (served sc (history ++ later)).entries) ∧
    ∀ d source fault, d.compile source = .error fault →
      (served sc history).compile d source = (.error fault, served sc history) := by
  have hlib := faithful_served sc history
  have hscore := (follows_score sc raw _ hlib).1
  refine ⟨hscore.trans (follows_score sc raw _ Library.faithful_empty).1.symm, hscore, hlib, fun later => ?_, ?_⟩
  · rw [served, served, List.foldl_append]
    exact (faithful_foldl_serve sc later hlib).2
  · intro d source fault h
    exact Library.compile_of_error hlib h

/-- A formula that compiles an item expression and then divides by the sum of a field. -/
def dividing : Schema where
  params := .empty
  fields := [⟨"E", none, some "number", none, none, none, none, none, none, none, none, .empty⟩]
  computed := [⟨"TOTAL", none, some "row_custom_compute([[1, 2]], item_expr='x * 2') / E", none, .empty⟩]
  ui := none

/-- The one input of that schema. -/
def divisor (n : Nat) : Table Value := .ofList [("E", .number (.ofNat n))]

theorem score_after_history_division : ∃ sc history raw d source fault, Scorer.ofSchema dividing = .ok sc ∧
    history = [.score (divisor 0), .normalize (divisor 3)] ∧ (sc.score (divisor 0)).isOk = false ∧
    (served sc history).size = 1 ∧ (sc.score raw).isOk = true ∧
    (score (served sc history) sc raw).1 = (score .empty sc raw).1 ∧ d.compile source = .error fault ∧
    (served sc history).compile d source = (.error fault, served sc history) := by
  let history : List Request := [.score (divisor 0), .normalize (divisor 3)]
  have hrun : (Scorer.ofSchema dividing).toOption.map (fun sc =>
      ((sc.score (divisor 0)).isOk, (served sc history).size, (sc.score (divisor 3)).isOk)) =
        some (false, 1, true) := by decide +kernel
  obtain ⟨sc, hsc, hrun⟩ := Option.map_eq_some_iff.1 hrun
  simp only [Prod.mk.injEq] at hrun
  obtain ⟨hfail, hsize, hok⟩ := hrun
  have hbad : (Dialect.item.compile "y").isOk = false := by decide +kernel
  obtain ⟨hscore, -, -, -, hcompile⟩ := score_after_history sc history (divisor 3)
  cases hfault : Dialect.item.compile "y" with
  | ok e =>
    rw [hfault] at hbad
    cases hbad
  | error fault =>
    exact ⟨sc, history, divisor 3, .item, "y", fault, toOption_eq_some_iff.1 hsc, rfl, hfail, hsize, hok, hscore,
      hfault, hcompile _ _ _ hfault⟩

end Session
end Scoresheet
