import Scoresheet.Proofs.Restricting
/-!
# Calls that blame only values

A call whose arguments are in order (`Arguments.Sound`) fails for no other reason than the values that it was given: an
operation that they do not have, a division by zero, a selection that there is none of.  The expressions that a call
compiles see numbers under the names of their dialect and nothing else, so once compiled they never fail on a name.
-/
namespace Scoresheet

/-! ## Answers with a postcondition -/

/-- An answer with a property, or an error about values. -/
def Yields {α : Type} (P : α → Prop) (r : Result α) : Prop := (∀ a, r = .ok a → P a) ∧ Clean r

theorem Yields.bind {α β : Type} {P : α → Prop} {Q : β → Prop} {r : Result α} {f : α → Result β} (h : Yields P r)
    (hf : ∀ a, P a → Yields Q (f a)) : Yields Q (r >>= f) := by
  cases hr : r with
  | error e => exact ⟨fun _ hb => (by cases hb), clean_error (h.2 e hr)⟩
  | ok a => exact hf a (h.1 a hr)

theorem yields_ok {α : Type} {P : α → Prop} {a : α} (h : P a) : Yields P (.ok a : Result α) :=
  ⟨fun _ hb => (by cases hb; exact h), clean_ok a⟩

theorem yields_error {α : Type} {P : α → Prop} {e : Error} (h : e.concernsValues = true) :
    Yields P (.error e : Result α) :=
  ⟨fun _ hb => (by cases hb), clean_error h⟩

theorem Clean.yields {α : Type} {r : Result α} (h : Clean r) : Yields (fun _ => True) r := ⟨fun _ _ => trivial, h⟩

theorem Clean.mapM {α β : Type} {f : α → Result β} (h : ∀ a, Clean (f a)) : ∀ l : List α, Clean (l.mapM f)
  | [] => by
    rw [List.mapM_nil]
    exact clean_ok _
  | a :: l => by
    rw [List.mapM_cons]
    exact (h a).bind fun b _ => (Clean.mapM h l).bind fun bs _ => clean_ok _

theorem clean_selection {α : Type} (r : Except SelectionFault α) : Clean (r.mapError Error.selection) := by
  cases r with
  | error fault => exact clean_error rfl
  | ok a => exact clean_ok a

/-! ## Expressions -/

/-- Equal answers that blame nothing but values. -/
def blame : Comparison where
  Rel x y := x = y ∧ Clean x
  ok a := ⟨rfl, clean_ok a⟩
  values h := ⟨rfl, clean_error h⟩
  bind := by
    rintro α β x y f g ⟨rfl, h⟩ hf
    cases x with
    | error e => exact ⟨rfl, clean_error (h e rfl)⟩
    | ok a => exact hf a rfl

theorem clean_evaluate {s : Scope Result} {e : Expr}
    (hname : ∀ n, .name n ∈ e.subterms → (s.lookup n).isSome = true)
    (hcall : ∀ f ps ks vs kvs, .call f ps ks ∈ e.subterms → evaluateAll s ps = .ok vs →
      evaluateKeywords s ks = .ok kvs → Clean (s.call f vs kvs)) : Clean (evaluate s e) := by
  have hholds : blame.Holds s s e.subterms := by
    refine ⟨fun n hn => ⟨rfl, ?_⟩, fun f ps ks vs kvs hc hvs hkvs => ⟨rfl, hcall f ps ks vs kvs hc hvs hkvs⟩⟩
    rw [evaluate]
    obtain ⟨v, hv⟩ := Option.isSome_iff_exists.1 (hname n hn)
    rw [hv]
    exact clean_ok v
  exact (Comparison.evaluate_compare e hholds).2

theorem Cell.clean_changed {e : Expr} (he : Dialect.item.Has e) (c : Cell) : Clean (c.changed e) :=
  (calculates_of_item he _ _).outcome.clean

/-- An aggregate expression, if there is any. -/
def HasAggregate (change : Option Expr) : Prop := ∀ e, change = some e → Dialect.aggregate.Has e

/-- What changes the aggregate of a stage is an aggregate expression. -/
def Stage.Sound (st : Stage) : Prop := HasAggregate st.post

theorem Stage.clean_reduce {st : Stage} (h : st.Sound) (judged counted : List Score) :
    Clean (st.reduce judged counted) := by
  unfold reduce
  dsimp only
  split
  · exact clean_ok _
  · rename_i e he
    split
    · exact clean_ok _
    · exact (calculates_of_aggregate (h e he) _).outcome.clean

/-- The expressions of a reduction are in their dialects. -/
structure Reduction.Sound (r : Reduction) : Prop where
  change : Dialect.item.Has r.change
  inner : r.inner.Sound
  outer : r.outer.Sound

theorem Reduction.clean_run {r : Reduction} (h : r.Sound) : Clean r.run := by
  have hline : ∀ cells, Clean (r.line cells) := fun cells =>
    (Clean.mapM (Cell.clean_changed h.change) cells).bind fun changed _ => Stage.clean_reduce h.inner _ _
  refine (Clean.mapM hline _).bind fun results _ => ?_
  split
  · exact clean_ok _
  · exact (Stage.clean_reduce h.outer results results).bind fun final _ => clean_ok _

/-! ## Arguments -/

/-- The parameters that must be given. -/
def Function.required : Function → List String
  | .selectSum | .bestN => []
  | f => f.parameters.take 1

/-- The parameters that hold an expression, each with its dialect. -/
def expressionParameters : List (String × Dialect) :=
  [("item_expr", .item), ("post_agg_expr", .aggregate), ("post_final_expr", .aggregate)]

/-- The arguments of a call are in order: what must be given is given, a source that is a text names something that may
be named, and texts that are expressions compile. -/
structure Arguments.Sound (cx : Context) (args : Arguments) : Prop where
  required : ∀ p ∈ args.function.required, (args.given? p).isSome = true
  source : args.function.readsSource = true → ∀ name, args.given? args.function.sourceParameter = some (.text name) →
    Text.isSafeName name = true ∧ (cx.lookup name).isSome = true
  compiles : ∀ p ∈ expressionParameters, ∀ text, args.given? p.1 = some (.text text) →
    (p.2.compile text).isOk = true

section

variable {cx : Context} {args : Arguments}

theorem Arguments.clean_required {p : String} (h : (args.given? p).isSome = true) : Clean (args.required p) := by
  obtain ⟨v, hv⟩ := Option.isSome_iff_exists.1 h
  rw [Arguments.required, hv]
  exact clean_ok v

theorem Arguments.given?_of_get? {p : String} {v : Value} (h : args.get? p = some v) : args.given? p = some v :=
  (Option.filter_eq_some_iff.1 h).1

/-- A text argument is the one given or the default. -/
theorem Arguments.yields_textOr (args : Arguments) (p default : String) :
    Yields (fun text => text = default ∨ args.given? p = some (.text text)) (args.textOr p default) := by
  rw [textOr]
  split
  · exact yields_ok (.inl rfl)
  · rename_i text hget
    exact yields_ok (.inr (given?_of_get? hget))
  · exact yields_error rfl

theorem Arguments.clean_code {p : String} (h : (args.given? p).isSome = true) : Clean (args.code p) := by
  rw [code]
  refine (clean_required h).bind fun v _ => ?_
  cases v with
  | text text => exact clean_ok _
  | null | bool b | number n | list xs | map es => exact clean_error rfl

theorem clean_numbersOf (f : Function) (v : Value) : Clean (numbersOf f v) := by
  cases v with
  | null => exact clean_ok _
  | bool b | number n | list xs => exact clean_ok _
  | text s | map es => exact clean_error rfl

theorem yields_compile {d : Dialect} {text : String} (h : (d.compile text).isOk = true) :
    Yields d.Has (d.compile text) := by
  obtain ⟨e, he⟩ := exists_ok h
  rw [he]
  exact yields_ok (Dialect.fault?_of_compile he)

theorem Sheet.clean_rowsOf (f : Function) (v : Value) : Clean (rowsOf f v) := by
  cases v with
  | null | list xs => exact clean_ok _
  | bool b | number n | text s | map es => exact clean_error rfl

/-- A source blames only values when the name that it may be means something. -/
theorem Sheet.clean_ofSource {f : Function} {v : Value}
    (h : ∀ name, v = .text name → Text.isSafeName name = true ∧ (cx.lookup name).isSome = true) :
    Clean (ofSource cx f v) := by
  cases v with
  | text name =>
    obtain ⟨hsafe, hsome⟩ := h name rfl
    obtain ⟨w, hw⟩ := Option.isSome_iff_exists.1 hsome
    rw [ofSource, if_pos hsafe, hw]
    exact (clean_rowsOf f w).bind fun rows _ => clean_ok _
  | list rows => exact (clean_rowsOf f (.list rows)).bind fun rows _ => clean_ok _
  | null | bool b | number n | map es => exact clean_error rfl

theorem Arguments.Sound.yields_source (h : args.Sound cx) (hf : args.function.readsSource = true) :
    Yields (fun v => Clean (Sheet.ofSource cx args.function v)) (args.required args.function.sourceParameter) := by
  have hgiven : (args.given? args.function.sourceParameter).isSome = true := by
    refine h.required _ ?_
    obtain ⟨f, slots⟩ := args
    cases f with
    | itemsReduce | rowCompute | columnCompute => exact List.mem_singleton_self _
    | _ => cases hf
  refine ⟨fun v hv => Sheet.clean_ofSource ?_, Arguments.clean_required hgiven⟩
  rintro name rfl
  exact h.source hf name (Arguments.required_eq_ok_iff.1 hv)

theorem Arguments.Sound.yields_item (h : args.Sound cx) :
    Yields (fun text => Yields Dialect.item.Has (Dialect.item.compile text)) (args.textOr "item_expr" "x") := by
  have htext := args.yields_textOr "item_expr" "x"
  refine ⟨fun text ht => yields_compile ?_, htext.2⟩
  rcases htext.1 text ht with rfl | hgiven
  · decide +kernel
  · exact h.compiles ("item_expr", .item) (by simp [expressionParameters]) text hgiven

/-- The stage of a call has its expression in the dialect of aggregates. -/
theorem Arguments.Sound.yields_stage (h : args.Sound cx) (level : String) (fallback : Option Int) {post : String}
    (hpost : (post, Dialect.aggregate) ∈ expressionParameters) :
    Yields Stage.Sound (Stage.ofArguments Dialect.compile args level fallback post) := by
  unfold Stage.ofArguments
  simp only [answer_eq]
  refine (args.yields_textOr _ _).bind fun select _ => (args.yields_textOr _ _).bind fun aggregate _ => ?_
  -- what follows the expression is the same with one and without
  have hrest : ∀ change : Option Expr, HasAggregate change → Yields Stage.Sound (do
      let criterion ← (Criterion.ofName select ((args.int? (level ++ "_n")).or fallback)).mapError Error.selection
      let aggregate ← (Aggregate.ofName aggregate).mapError Error.selection
      pure ⟨criterion, aggregate, change⟩) := fun change hchange =>
    (clean_selection _).yields.bind fun criterion _ => (clean_selection _).yields.bind fun aggregate _ =>
      yields_ok hchange
  split
  · have hnone : Yields HasAggregate (pure none : Result (Option Expr)) := yields_ok fun e he => by cases he
    exact hnone.bind hrest
  · rename_i source hget
    have hsome : Yields HasAggregate (some <$> Dialect.aggregate.compile source) := by
      obtain ⟨e, he⟩ := exists_ok (h.compiles _ hpost source (Arguments.given?_of_get? hget))
      rw [he]
      refine yields_ok fun e' he' => ?_
      cases he'
      exact Dialect.fault?_of_compile he
    exact hsome.bind hrest
  · exact yields_error rfl

/-- **The reduction that a call asks for has its expressions in their dialects.** -/
theorem Arguments.Sound.yields_reduction (h : args.Sound cx) {d : Direction} (hd : args.function = d.function) :
    Yields Reduction.Sound (Reduction.ofArguments Dialect.compile cx d args) := by
  have hsource := h.yields_source (by rw [hd]; cases d <;> rfl)
  rw [hd, show d.function.sourceParameter = "source" by cases d <;> rfl] at hsource
  unfold Reduction.ofArguments
  simp only [answer_eq]
  refine hsource.bind fun source hsheet => hsheet.yields.bind fun sheet _ => ?_
  refine h.yields_item.bind fun item hitem => hitem.bind fun change hchange => ?_
  refine (args.yields_textOr _ _).bind fun selectOn _ => (clean_selection _).yields.bind fun judged _ => ?_
  refine (args.yields_textOr _ _).bind fun aggOn _ => (clean_selection _).yields.bind fun counted _ => ?_
  refine (h.yields_stage _ _ (by simp [expressionParameters])).bind fun inner hinner => ?_
  refine (h.yields_stage _ _ (by simp [expressionParameters])).bind fun outer houter => ?_
  refine ((args.yields_textOr _ _).2.map _).yields.bind fun mode _ => ?_
  split
  · exact yields_error rfl
  · exact yields_ok ⟨hchange, hinner, houter⟩

theorem Arguments.Sound.clean_customCompute (h : args.Sound cx) {d : Direction} (hd : args.function = d.function) :
    Clean (customCompute Dialect.compile cx d args) := by
  unfold customCompute
  simp only [answer_eq]
  obtain ⟨hsound, hclean⟩ := h.yields_reduction hd
  exact hclean.bind fun r hr => Reduction.clean_run (hsound r hr)

theorem Arguments.Sound.clean_itemsReduce (h : args.Sound cx) (hf : args.function = .itemsReduce) :
    Clean (itemsReduce Dialect.compile cx args) := by
  have hsource := h.yields_source (by rw [hf]; rfl)
  rw [hf] at hsource
  unfold itemsReduce
  simp only [answer_eq]
  refine (hsource.bind (Q := fun _ => True) fun v hsheet => ?_).2
  cases v with
  | text name =>
    refine hsheet.yields.bind fun sheet _ => h.yields_item.bind fun item hitem => hitem.bind fun change hchange => ?_
    refine (args.yields_textOr _ _).bind fun name _ => (clean_selection _).yields.bind fun aggregate _ => ?_
    refine Clean.yields (Clean.bind (Clean.mapM (fun cells => ?_) _) fun results _ => clean_ok _)
    exact (Clean.mapM (Cell.clean_changed hchange) cells).bind fun marks _ => clean_ok _
  | null | bool b | number n | list xs | map es => exact yields_error rfl

/-- **A call with its arguments in order blames only values.** -/
theorem Arguments.Sound.clean_run (h : args.Sound cx) : Clean (Call.run Dialect.compile cx args) := by
  have hfirst : ∀ p, args.function.required = [p] → (args.given? p).isSome = true := fun p hp =>
    h.required p (hp ▸ List.mem_singleton_self p)
  have haggregate : ∀ a, args.function.required = ["values"] → Clean (Call.aggregate a args) := fun a hp =>
    (Arguments.clean_required (hfirst _ hp)).bind fun v _ => (clean_numbersOf _ v).bind fun numbers _ => clean_ok _
  unfold Call.run
  simp only [answer_eq]
  split <;> rename_i hf
  · exact haggregate .sum (by rw [hf]; rfl)
  · exact haggregate .mean (by rw [hf]; rfl)
  · exact haggregate .least (by rw [hf]; rfl)
  · exact haggregate .greatest (by rw [hf]; rfl)
  · exact haggregate .median (by rw [hf]; rfl)
  · exact (Arguments.clean_required (hfirst _ (by rw [hf]; rfl))).map _
  · refine (Arguments.clean_required (hfirst "matrix" (by rw [hf]; rfl))).bind fun matrix _ => ?_
    cases matrix with
    | null | list rows => exact clean_ok _
    | bool b | number n | text s | map es => exact clean_error rfl
  · refine (clean_numbersOf _ _).bind fun scores _ => ?_
    refine (args.yields_textOr _ _).2.bind fun name _ => ?_
    exact (clean_selection _).bind fun criterion _ => clean_ok _
  · exact (clean_numbersOf _ _).bind fun scores _ => clean_ok _
  · exact (Arguments.clean_code (hfirst _ (by rw [hf]; rfl))).bind fun code _ => clean_ok _
  · exact (Arguments.clean_code (hfirst _ (by rw [hf]; rfl))).bind fun code _ => clean_ok _
  · exact h.clean_itemsReduce hf
  · exact h.clean_customCompute (d := .rows) hf
  · exact h.clean_customCompute (d := .columns) hf

end
end Scoresheet
