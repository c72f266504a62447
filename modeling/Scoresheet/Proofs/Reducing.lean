import Scoresheet.Proofs.Agreeing
/-!
# Reductions judge by judge

`items_reduce` takes every judge's marks as they come and aggregates them.  `row_custom_compute` sends them through a
stage that selects, aggregates and perhaps changes the aggregate; with nothing but an aggregate asked for the stage
selects everything and changes nothing, so the two come to the same (`reduceItems_concurs`).  They blame different
functions where they fail, so their answers are compared up to what an error says (`Concur`).
-/
namespace Scoresheet

/-! ## Answers up to their errors -/

/-- Two answers concur: they are the same value, or both are errors. -/
def Concur {α : Type} (x y : Result α) : Prop := x.toOption = y.toOption

section

variable {α β : Type} {x y : Result α}

theorem Concur.refl (x : Result α) : Concur x x := rfl

theorem concur_error (e e' : Error) : Concur (.error e : Result α) (.error e') := rfl

theorem concur_iff : Concur x y ↔ (∃ a, x = .ok a ∧ y = .ok a) ∨ ∃ e e', x = .error e ∧ y = .error e' := by
  rw [Concur]
  cases x <;> cases y <;> simp [Except.toOption, eq_comm]

theorem Concur.bind {f g : α → Result β} (h : Concur x y) (hf : ∀ a, x = .ok a → Concur (f a) (g a)) :
    Concur (x >>= f) (y >>= g) := by
  obtain ⟨a, rfl, rfl⟩ | ⟨e, e', rfl, rfl⟩ := concur_iff.1 h
  · exact hf a rfl
  · exact concur_error e e'

theorem Concur.map (h : Concur x y) (f : α → β) : Concur (f <$> x) (f <$> y) := by
  obtain ⟨a, rfl, rfl⟩ | ⟨e, e', rfl, rfl⟩ := concur_iff.1 h
  · exact .refl _
  · exact concur_error e e'

end

/-- A text argument is the same for every function that is given the same value. -/
theorem Arguments.concur_textOr {args args' : Arguments} {p p' : String} (h : args.get? p = args'.get? p')
    (default : String) : Concur (args.textOr p default) (args'.textOr p' default) := by
  rw [textOr, textOr, ← h]
  split
  · exact .refl _
  · exact .refl _
  · exact concur_error _ _

/-- The rows of a value are the same for every function. -/
theorem Sheet.concur_rowsOf (f f' : Function) (v : Value) : Concur (rowsOf f v) (rowsOf f' v) := by
  cases v with
  | null | list rows => exact .refl _
  | bool b | number n | text s | map es => exact concur_error _ _

/-- A source means the same sheet for every function. -/
theorem Sheet.concur_ofSource (cx : Context) (f f' : Function) (v : Value) :
    Concur (ofSource cx f v) (ofSource cx f' v) := by
  cases v with
  | text name =>
    rw [ofSource, ofSource]
    split
    · cases cx.lookup name with
      | none => exact concur_error _ _
      | some v => exact (concur_rowsOf f f' v).bind fun rows _ => .refl _
    · exact concur_error _ _
  | list rows => exact (concur_rowsOf f f' (.list rows)).bind fun rows _ => .refl _
  | null | bool b | number n | map es => exact concur_error _ _

/-! ## A stage that only aggregates -/

/-- Without a count every entry is picked, in the order given. -/
theorem Criterion.pick_all_none {α β : Type} [Mark α] (key : β → α) (xs : List β) : (all none).pick key xs = xs := by
  cases xs with
  | nil => rfl
  | cons x xs => simp [pick, countOf]

/-- The stage that aggregates every mark. -/
def Stage.ofAggregate (a : Aggregate) : Stage := ⟨.all none, a, none⟩

theorem Stage.reduce_ofAggregate (a : Aggregate) (marks : List Score) :
    (ofAggregate a).reduce marks marks = .ok (a.apply marks) := by
  simp only [ofAggregate, reduce, Criterion.pick_all_none]
  rw [List.map_snd_zip (Nat.le_refl _)]

/-- Each judge's changed marks, aggregated. -/
def Sheet.aggregateRows (sheet : Sheet) (w : Window) (change : Expr) (a : Aggregate) : Result (List Score) :=
  (sheet.rowLines w).mapM fun cells => return a.apply (← cells.mapM (Cell.changed change))

/-- **A reduction of changed marks that keeps the rows apart and only aggregates them.** -/
theorem Reduction.run_ofAggregate (sheet : Sheet) (change : Expr) (a : Aggregate) (outer : Stage) (w : Window) :
    Reduction.run ⟨.rows, sheet, change, .changed, .changed, .ofAggregate a, outer, true, w⟩ =
      Value.ofScores <$> sheet.aggregateRows w change a := by
  have hline : ∀ cells, line ⟨.rows, sheet, change, .changed, .changed, .ofAggregate a, outer, true, w⟩ cells =
      (return a.apply (← cells.mapM (Cell.changed change)) : Result Score) := fun cells =>
    bind_congr fun changed => Stage.reduce_ofAggregate a changed
  rw [run, lines, funext hline]
  rfl

/-! ## The two calls -/

/-- What both calls come to, given the sheet and the texts for the change and for the aggregate. -/
def marksByJudge (sheet : Result Sheet) (item name : Result String) (w : Window) : Result (List Score) := do
  let sheet ← sheet
  let change ← item >>= Dialect.item.compile
  let a ← name >>= fun name => (Aggregate.ofName name).mapError .selection
  sheet.aggregateRows w change a

theorem Concur.marksByJudge {sheet sheet' : Result Sheet} {item item' name name' : Result String}
    (hsheet : Concur sheet sheet') (hitem : Concur item item') (hname : Concur name name') (w : Window) :
    Concur (marksByJudge sheet item name w) (Scoresheet.marksByJudge sheet' item' name' w) :=
  hsheet.bind fun _ _ => (hitem.bind fun _ _ => .refl _).bind fun _ _ => (hname.bind fun _ _ => .refl _).bind
    fun _ _ => .refl _

theorem itemsReduce_eq_marksByJudge (cx : Context) {args : Arguments} {source : String}
    (h : args.required "field_code" = .ok (.text source)) : itemsReduce Dialect.compile cx args =
      Value.ofScores <$> marksByJudge (Sheet.ofSource cx .itemsReduce (.text source)) (args.textOr "item_expr" "x")
        (args.textOr "agg" "sum") ⟨(Window.ofArguments args).start,
          (Window.ofArguments args).count.or ((args.int? "limit_items").map Int.toNat)⟩ := by
  unfold itemsReduce marksByJudge
  simp only [answer_eq, h, map_bind, bind_assoc]
  rfl

section

variable (source item aggregate start count : Value)

/-- The arguments of `items_reduce` by position and with a window, whose length has two names. -/
def itemsArguments (length limit : Option Value) : Arguments :=
  ⟨.itemsReduce, [("field_code", some source), ("item_expr", some item), ("agg", some aggregate),
    ("limit_items", limit), ("start", some start), ("count", length)]⟩

/-- The arguments of `row_custom_compute` that ask for an aggregate of each judge's changed marks. -/
def rowArguments : Arguments :=
  ⟨.rowCompute, [("source", some source), ("item_expr", some item), ("row_select", none), ("row_n", none),
    ("row_agg", some aggregate), ("col_select", none), ("col_n", none), ("col_agg", none), ("n", none),
    ("select_on", none), ("agg_on", none), ("post_agg_expr", none), ("post_final_expr", none), ("start", some start),
    ("count", some count), ("return_mode", some (.text "by_judge"))]⟩

theorem customCompute_eq_marksByJudge (cx : Context) :
    let args := rowArguments source item aggregate start count
    customCompute Dialect.compile cx .rows args =
      Value.ofScores <$> marksByJudge (Sheet.ofSource cx .rowCompute source) (args.textOr "item_expr" "x")
        (args.textOr "row_agg" "sum") (Window.ofArguments args) := by
  intro args
  -- what is not given leaves the stage with everything selected and nothing changed
  have hinner : (Stage.ofArguments Dialect.compile args "row" none "post_agg_expr" : Result Stage) = (do
      let name ← args.textOr "row_agg" "sum"
      let a ← (Aggregate.ofName name).mapError .selection
      return .ofAggregate a) := by
    unfold Stage.ofArguments
    simp only [answer_eq]
    rfl
  have hreduction : (Reduction.ofArguments Dialect.compile cx .rows args : Result Reduction) = (do
      let sheet ← Sheet.ofSource cx .rowCompute source
      let item ← args.textOr "item_expr" "x"
      let change ← Dialect.item.compile item
      let inner ← Stage.ofArguments Dialect.compile args "row" none "post_agg_expr"
      return ⟨.rows, sheet, change, .changed, .changed, inner, .ofAggregate .sum, true, Window.ofArguments args⟩) := by
    unfold Reduction.ofArguments
    simp only [answer_eq]
    rfl
  rw [customCompute, hreduction, hinner, marksByJudge]
  simp only [answer_eq, map_bind, bind_assoc, pure_bind, Reduction.run_ofAggregate]

end

namespace Context

variable (cx : Context) (source : String) (item aggregate start count : Value)

/-- A call of `items_reduce` by position and with a window, whose length stands under the name `limit`. -/
def reduceItems (limit : String) : Result Value :=
  (cx.scope Dialect.compile).call .itemsReduce [.text source, item, aggregate] [("start", start), (limit, count)]

/-- A call of `row_custom_compute` with a window that asks for an aggregate of each judge's changed marks. -/
def computeRows : Result Value :=
  (cx.scope Dialect.compile).call .rowCompute [.text source]
    [("item_expr", item), ("row_agg", aggregate), ("start", start), ("count", count), ("return_mode", .text "by_judge")]

theorem reduceItems_limit :
    cx.reduceItems source item aggregate start count "limit_items" =
      cx.reduceItems source item aggregate start count "count" := by
  let args := itemsArguments (.text source) item aggregate start (some count) none
  show itemsReduce Dialect.compile cx (itemsArguments (.text source) item aggregate start none (some count)) =
    itemsReduce Dialect.compile cx args
  have hlength : ((none : Option Nat).or ((args.int? "count").map Int.toNat)) =
      ((args.int? "count").map Int.toNat).or none := by
    rw [Option.none_or, Option.or_none]
  rw [itemsReduce_eq_marksByJudge cx rfl, itemsReduce_eq_marksByJudge cx rfl]
  exact congrArg (fun length => Value.ofScores <$> marksByJudge _ (args.textOr "item_expr" "x")
    (args.textOr "agg" "sum") ⟨(Window.ofArguments args).start, length⟩) hlength

/-- **Reducing items is computing rows** that are kept apart and only aggregated: both calls come to the same list of
marks, or both fail.  The length of the window may stand under either of its names. -/
theorem reduceItems_concurs :
    ((∃ marks, cx.reduceItems source item aggregate start count "count" = .ok (.ofScores marks) ∧
        cx.computeRows source item aggregate start count = .ok (.ofScores marks)) ∨
      ∃ e e', cx.reduceItems source item aggregate start count "count" = .error e ∧
        cx.computeRows source item aggregate start count = .error e') ∧
    cx.reduceItems source item aggregate start count "limit_items" =
      cx.reduceItems source item aggregate start count "count" := by
  refine ⟨?_, cx.reduceItems_limit source item aggregate start count⟩
  let args := itemsArguments (.text source) item aggregate start (some count) none
  let args' := rowArguments (.text source) item aggregate start count
  have hitems : cx.reduceItems source item aggregate start count "count" = Value.ofScores <$>
      marksByJudge (Sheet.ofSource cx .itemsReduce (.text source)) (args.textOr "item_expr" "x")
        (args.textOr "agg" "sum") (Window.ofArguments args') := by
    have hwindow : (⟨(Window.ofArguments args).start, (Window.ofArguments args).count.or none⟩ : Window) =
        Window.ofArguments args' := by
      rw [Option.or_none]
      rfl
    have hsource : args.required "field_code" = .ok (.text source) := rfl
    exact (itemsReduce_eq_marksByJudge cx hsource).trans (congrArg _ (congrArg _ hwindow))
  have hrows : cx.computeRows source item aggregate start count = Value.ofScores <$>
      marksByJudge (Sheet.ofSource cx .rowCompute (.text source)) (args'.textOr "item_expr" "x")
        (args'.textOr "row_agg" "sum") (Window.ofArguments args') :=
    customCompute_eq_marksByJudge (.text source) item aggregate start count cx
  have hitem : args.get? "item_expr" = args'.get? "item_expr" := rfl
  have hname : args.get? "agg" = args'.get? "row_agg" := rfl
  have hmarks := Concur.marksByJudge (Sheet.concur_ofSource cx .itemsReduce .rowCompute (.text source))
    (Arguments.concur_textOr hitem "x") (Arguments.concur_textOr hname "sum") (Window.ofArguments args')
  rw [hitems, hrows]
  obtain ⟨marks, h, h'⟩ | ⟨e, e', h, h'⟩ := concur_iff.1 hmarks
  · exact .inl ⟨marks, by rw [h]; rfl, by rw [h']; rfl⟩
  · exact .inr ⟨e, e', by rw [h]; rfl, by rw [h']; rfl⟩

end Context
end Scoresheet
