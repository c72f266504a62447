import Scoresheet.Call
import Scoresheet.Proofs.Counting
import Scoresheet.Proofs.Evaluating
import Scoresheet.Proofs.Positions
import Scoresheet.Proofs.Ranges
/-!
# Calls stay in range

Whatever a function is called with, its arguments are bound, or refused, without a slot that is not there
(`Guarded.stays_bind`), and it is run without an operation out of its range (`Guarded.stays_run`).  Stages select by one
list of marks and aggregate another one; both come from the same cells, so every position of the one is a position of
the other.
-/
namespace Scoresheet
namespace Guarded

/-! ## Slots by position -/

/-- A keyword put into the slot of its parameter. -/
def bindKeyword (f : Function) (slots : List (Option Value)) (keyword : String × Value) :
    Guarded (List (Option Value)) :=
  match f.parameters.idxOf? keyword.1 with
  | none => throw (.formula (.unexpectedKeyword f keyword.1))
  | some i => do
    match ← within slots[i]? with
    | some _ => throw (.formula (.boundTwice f keyword.1))
    | none => within (write slots i (some keyword.2))

/-- The positional arguments in the first slots. -/
def fill (f : Function) (positional : List Value) : List (Option Value) :=
  positional.map some ++ List.replicate (f.parameters.length - positional.length) none

/-- What a parameter is bound to. -/
def readSlot (f : Function) (slots : List (Option Value)) (parameter : String) : Option (Option Value) :=
  match f.parameters.idxOf? parameter with
  | none => some none
  | some i => slots[i]?

/-- The arguments of a call of `f`, each read from its slot. -/
def bind (f : Function) (positional : List Value) (keywords : List (String × Value)) : Guarded Arguments :=
  if f.parameters.length < positional.length then throw (.formula (.tooManyArguments f positional.length))
  else do
    let slots ← keywords.foldlM (bindKeyword f) (fill f positional)
    return ⟨f, f.parameters.zip (← within (f.parameters.mapM (readSlot f slots)))⟩

theorem slot?_zip (p : String) : ∀ {ps : List String} {slots : List (Option Value)}, ps.length = slots.length →
    Slots.slot? (ps.zip slots) p = (ps.idxOf? p).bind fun i => slots[i]?
  | [], [], _ => rfl
  | q :: ps, slot :: slots, h => by
    rw [List.zip_cons_cons, Slots.slot?_cons, slot?_zip p (by simpa using h), List.idxOf?_cons]
    by_cases hq : q = p
    · simp [hq]
    · simp only [if_neg hq, beq_iff_eq]
      cases ps.idxOf? p <;> rfl

theorem set_zip (p : String) (v : Value) : ∀ {ps : List String} {slots : List (Option Value)} {i : Nat}, ps.Nodup →
    ps.idxOf? p = some i → Slots.set (ps.zip slots) p v = ps.zip (slots.set i (some v))
  | [], _, _, _, h => by cases h
  | q :: ps, [], i, _, _ => rfl
  | q :: ps, slot :: slots, i, hnodup, h => by
    obtain ⟨hnot, hps⟩ := List.nodup_cons.1 hnodup
    rw [List.idxOf?_cons] at h
    by_cases hq : q = p
    · subst hq
      -- no other parameter has the name
      have hrest : Slots.set (ps.zip slots) q v = ps.zip slots := by
        refine (List.map_congr_left fun s hs => ?_).trans (List.map_id _)
        have hne : s.1 ≠ q := fun he => hnot (he ▸ (List.of_mem_zip hs).1)
        simp [hne]
      rw [if_pos (by simp)] at h
      cases h
      rw [Slots.set] at hrest ⊢
      rw [List.zip_cons_cons, List.map_cons, hrest, List.set_cons_zero, List.zip_cons_cons]
      simp
    · rw [if_neg (by simpa using hq)] at h
      obtain ⟨j, hj, rfl⟩ := Option.map_eq_some_iff.1 h
      have hrest := @set_zip p v ps slots j hps hj
      rw [Slots.set] at hrest ⊢
      rw [List.zip_cons_cons, List.map_cons, hrest, List.set_cons_succ, List.zip_cons_cons]
      simp [hq]

theorem fill_zip : ∀ (ps : List String) (vs : List Value), vs.length ≤ ps.length →
    Slots.fill ps vs = ps.zip (vs.map some ++ List.replicate (ps.length - vs.length) none)
  | [], vs, _ => by simp [Slots.fill]
  | p :: ps, [], _ => by
    rw [Slots.fill, fill_zip ps [] (Nat.zero_le _)]
    simp [List.replicate_succ]
  | p :: ps, v :: vs, h => by
    rw [Slots.fill, fill_zip ps vs (by simpa using h)]
    simp

/-- A keyword comes to the same by position as by name. -/
theorem bindKeyword_zip {f : Function} {slots : List (Option Value)} (h : slots.length = f.parameters.length)
    (keyword : String × Value) :
    (∃ e, Stays (bindKeyword f slots keyword) (.error e) ∧
      Arguments.bindKeyword f (f.parameters.zip slots) keyword = .error e) ∨
    ∃ slots', slots'.length = f.parameters.length ∧ Stays (bindKeyword f slots keyword) (.ok slots') ∧
      Arguments.bindKeyword f (f.parameters.zip slots) keyword = .ok (f.parameters.zip slots') := by
  unfold bindKeyword Arguments.bindKeyword
  rw [slot?_zip keyword.1 h.symm]
  cases hi : f.parameters.idxOf? keyword.1 with
  | none => exact .inl ⟨_, stays_throw _, rfl⟩
  | some i =>
    obtain ⟨hlt, -, -⟩ := List.idxOf?_eq_some_iff.1 hi
    rw [← h] at hlt
    have hslot : slots[i]? = some slots[i] := List.getElem?_eq_getElem hlt
    rw [Option.bind_some, hslot]
    cases hvalue : slots[i] with
    | some v =>
      rw [hvalue] at hslot
      exact .inl ⟨_, (stays_within hslot).bind_ok (stays_throw _), rfl⟩
    | none =>
      have hwrite : write slots i (some keyword.2) = some (slots.set i (some keyword.2)) := if_pos hlt
      refine .inr ⟨slots.set i (some keyword.2), by rw [List.length_set, h], ?_, ?_⟩
      · rw [hvalue] at hslot
        exact (stays_within hslot).bind_ok (stays_within hwrite)
      · exact congrArg Except.ok (set_zip _ _ f.parameters_nodup hi)

theorem foldlM_bindKeyword_zip {f : Function} : ∀ (keywords : List (String × Value)) {slots : List (Option Value)},
    slots.length = f.parameters.length →
      (∃ e, Stays (keywords.foldlM (bindKeyword f) slots) (.error e) ∧
        keywords.foldlM (Arguments.bindKeyword f) (f.parameters.zip slots) = .error e) ∨
      ∃ slots', slots'.length = f.parameters.length ∧ Stays (keywords.foldlM (bindKeyword f) slots) (.ok slots') ∧
        keywords.foldlM (Arguments.bindKeyword f) (f.parameters.zip slots) = .ok (f.parameters.zip slots')
  | [], slots, h => .inr ⟨slots, h, stays_pure slots, rfl⟩
  | keyword :: keywords, slots, h => by
    rw [List.foldlM_cons, List.foldlM_cons]
    rcases bindKeyword_zip h keyword with ⟨e, hstays, he⟩ | ⟨slots', hslots', hstays, hok⟩
    · rw [he]
      exact .inl ⟨e, hstays.bind_error _, rfl⟩
    · rw [hok]
      rcases foldlM_bindKeyword_zip keywords hslots' with ⟨e, hrest, he⟩ | ⟨slots'', hslots'', hrest, hok'⟩
      · exact .inl ⟨e, hstays.bind_ok hrest, he⟩
      · exact .inr ⟨slots'', hslots'', hstays.bind_ok hrest, hok'⟩

/-- Each slot is read by the position of its parameter. -/
theorem mapM_readSlot {f : Function} {slots : List (Option Value)} (h : slots.length = f.parameters.length) :
    f.parameters.mapM (readSlot f slots) = some slots := by
  have hread : ∀ i (hi : i < f.parameters.length), readSlot f slots f.parameters[i] = some slots[i] := by
    intro i hi
    have hplace : f.parameters.idxOf? f.parameters[i] = some i := by
      refine List.idxOf?_eq_some_iff.2 ⟨hi, rfl, fun j hj heq => ?_⟩
      exact absurd ((List.Nodup.getElem_inj_iff f.parameters_nodup).1 heq) (by omega)
    rw [readSlot, hplace]
    exact List.getElem?_eq_getElem (h ▸ hi)
  have hall : f.parameters.mapM (readSlot f slots) =
      some (f.parameters.map fun p => (readSlot f slots p).getD none) := by
    refine mapM_eq fun p hp => ?_
    obtain ⟨i, hi, rfl⟩ := List.getElem_of_mem hp
    rw [hread i hi]
    rfl
  rw [hall]
  refine congrArg some (List.ext_getElem (by simp [h]) fun i hi hi' => ?_)
  rw [List.getElem_map, hread i (h ▸ hi')]
  rfl

/-- **Arguments are bound by position as they are by name.** -/
theorem stays_bind (f : Function) (positional : List Value) (keywords : List (String × Value)) :
    Stays (bind f positional keywords) (Arguments.bind f positional keywords) := by
  unfold bind Arguments.bind
  by_cases hmany : f.parameters.length < positional.length
  · rw [if_pos hmany, if_pos hmany]
    exact stays_throw _
  · rw [if_neg hmany, if_neg hmany, fill_zip _ _ (by omega)]
    have hfill : (fill f positional).length = f.parameters.length := by
      rw [fill, List.length_append, List.length_map, List.length_replicate]
      omega
    rcases foldlM_bindKeyword_zip keywords hfill with ⟨e, hstays, he⟩ | ⟨slots, hslots, hstays, hok⟩
    · rw [fill] at he
      rw [he]
      exact hstays.bind_error _
    · rw [fill] at hok
      rw [hok]
      exact hstays.bind_ok ((stays_within (mapM_readSlot hslots)).bind_ok (stays_pure _))

/-! ## Expressions over numbers -/

/-- A scope of numbers without calls. -/
def numbers (names : List (String × Score)) : Scope Guarded where
  lookup := (Scope.ofNumbers names).lookup
  call f vs kvs := answer ((Scope.ofNumbers names).call f vs kvs)

def evaluateNumber (e : Expr) (names : List (String × Score)) : Guarded Score := do
  let v ← evaluate (numbers names) e
  match v.number? with
  | some n => pure n
  | none => throw (.type (.notANumber v.kind))

theorem stays_evaluateNumber (e : Expr) (names : List (String × Score)) :
    Stays (evaluateNumber e names) (Scoresheet.evaluateNumber e names) := by
  have hscope : StaysIn (numbers names) (Scope.ofNumbers names) :=
    ⟨rfl, fun f vs kvs => stays_answer ((Scope.ofNumbers names).call f vs kvs)⟩
  have hvalue := stays_evaluate hscope e
  unfold evaluateNumber Scoresheet.evaluateNumber
  cases hv : Scoresheet.evaluate (Scope.ofNumbers names) e with
  | error err =>
    rw [hv] at hvalue
    exact hvalue.bind_error _
  | ok v =>
    rw [hv] at hvalue
    refine hvalue.bind_ok ?_
    dsimp only
    cases v.number? with
    | none => exact stays_throw _
    | some n => exact stays_pure n

/-! ## Reductions -/

/-- One level of a reduction: the marks in `counted` at the positions that are picked by the marks in `judged`. -/
def reduce (st : Stage) (judged counted : List Score) : Guarded Score := do
  let places ← within (indices st.criterion judged)
  let picked ← within (readAll counted places)
  let result ← within (aggregate st.aggregate picked)
  match st.post with
  | none => pure result
  | some e => if picked.isEmpty then pure result else evaluateNumber e [("m", result)]

/-- **Positions of the marks that are judged are positions of those that count.** -/
theorem stays_reduce (st : Stage) {judged counted : List Score} (h : judged.length = counted.length) :
    Stays (reduce st judged counted) (st.reduce judged counted) := by
  have hread : readAll counted (st.criterion.pick (markAt judged) (List.range judged.length)) =
      some ((st.criterion.pick Prod.fst (judged.zip counted)).map Prod.snd) := by
    rw [pick_zip st.criterion h]
    exact readAll_eq fun i hi => h ▸ List.mem_range.1 (st.criterion.pick_subset (markAt judged) _ hi)
  refine (stays_within (indices_eq st.criterion judged)).bind_ok ((stays_within hread).bind_ok ?_)
  refine (stays_within (aggregate_eq st.aggregate _)).bind_ok ?_
  unfold Stage.reduce
  dsimp only
  cases st.post with
  | none => exact stays_pure _
  | some e =>
    dsimp only
    split
    · exact stays_pure _
    · exact stays_evaluateNumber _ _

def changed (e : Expr) (c : Cell) : Guarded Score :=
  evaluateNumber e [("x", c.mark), ("i", Score.ofNat (c.item + 1))]

def lines (d : Direction) (s : Sheet) (w : Window) : Option (List (List Cell)) :=
  match d with
  | .rows => rowLines s w
  | .columns => columnLines s w

/-- One line reduced by the inner stage. -/
def line (r : Reduction) (cells : List Cell) : Guarded Score := do
  let changed ← cells.mapM (changed r.change)
  let raw := cells.map Cell.mark
  reduce r.inner (r.judged.choose changed raw) (r.counted.choose changed raw)

def reduction (r : Reduction) : Guarded Value := do
  let lines ← within (lines r.direction r.sheet r.window)
  let results ← lines.mapM (line r)
  if r.apart then return .ofScores results
  else
    let final ← reduce r.outer results results
    return .number final

theorem stays_changed (e : Expr) (cells : List Cell) :
    Stays (cells.mapM (changed e)) (cells.mapM (Cell.changed e)) :=
  Stays.mapM fun _ _ => stays_evaluateNumber _ _

theorem stays_line (r : Reduction) (cells : List Cell) : Stays (line r cells) (r.line cells) := by
  refine (stays_changed r.change cells).bind fun changed hchanged => stays_reduce r.inner ?_
  have hlength : changed.length = (cells.map Cell.mark).length := by
    rw [List.length_map, length_of_mapM hchanged]
  cases r.judged <;> cases r.counted <;> simp [Basis.choose, hlength]

theorem lines_eq (d : Direction) (s : Sheet) (w : Window) : lines d s w = some (d.lines s w) := by
  cases d with
  | rows => exact rowLines_eq s w
  | columns => exact columnLines_eq s w

theorem stays_reduction (r : Reduction) : Stays (reduction r) r.run := by
  refine (stays_within (lines_eq r.direction r.sheet r.window)).bind_ok ?_
  refine (Stays.mapM fun cells _ => stays_line r cells).bind fun results _ => ?_
  split
  · exact stays_pure _
  · exact (stays_reduce r.outer rfl).bind fun final _ => stays_pure _

/-! ## Functions -/

/-- The compiler, which has no guards: it takes characters and tokens from the front of a list, never by position. -/
def compile (d : Dialect) (source : String) : Guarded Expr := answer (d.compile source)

def aggregateCall (a : Aggregate) (args : Arguments) : Guarded Value := do
  let v ← answer (args.required "values")
  let numbers ← answer (numbersOf args.function v)
  return .number (← within (aggregate a numbers))

def execByJudge (args : Arguments) : Guarded Value := do
  let matrix ← answer (args.required "matrix")
  let rows ← answer (match matrix with
    | .null => Except.ok []
    | .list rows => Except.ok rows
    | v => Except.error (Error.type (.elementMatrixExpected args.function v.kind)))
  let crashes := ((args.get? "crash").map Value.scores).getD []
  let elements ← within (elements (.ofList (((args.get? "params").bind Value.entries?).getD [])))
  let scores ← within (rows.zipIdx.mapM fun (row, judge) =>
    execution elements ((crashes[judge]?.map Score.toInt).getD 0) row.scores)
  return .ofScores scores

def selectSum (args : Arguments) : Guarded Value := do
  let scores ← answer (numbersOf args.function ((args.get? "scores").getD .null))
  let count := ((args.int? "n_valid").filter fun k => k != 0).getD 1
  let name ← answer (args.textOr "criteria" "totes")
  let criterion ← answer ((Criterion.ofName name (some count)).mapError .selection)
  return .number (Score.sum (← within (select criterion scores)))

theorem stays_aggregateCall (a : Aggregate) (args : Arguments) :
    Stays (aggregateCall a args) (Call.aggregate a args) := by
  refine (stays_answer _).bind fun v _ => (stays_answer _).bind fun numbers _ => ?_
  exact (stays_within (aggregate_eq a numbers)).bind_ok (stays_pure _)

theorem stays_execByJudge (args : Arguments) : Stays (execByJudge args) (Call.execByJudge args) := by
  refine (stays_answer _).bind fun matrix _ => ?_
  have hrows : ∀ rows : List Value, Stays (do
      let elements ← within (elements (.ofList (((args.get? "params").bind Value.entries?).getD [])))
      let scores ← within (rows.zipIdx.mapM fun (row, judge) => execution elements
        ((((((args.get? "crash").map Value.scores).getD [])[judge]?).map Score.toInt).getD 0) row.scores)
      return Value.ofScores scores)
      (.ok (Value.ofScores (rows.zipIdx.map fun (row, judge) => Routine.execution
        (Schema.elements (.ofList (((args.get? "params").bind Value.entries?).getD [])))
        ((((((args.get? "crash").map Value.scores).getD [])[judge]?).map Score.toInt).getD 0) row.scores))) := fun rows =>
    (stays_within (elements_eq _)).bind_ok <|
      (stays_within (mapM_eq fun row _ => execution_eq _ _ _)).bind_ok (stays_pure _)
  cases matrix with
  | null => exact hrows []
  | list rows => exact hrows rows
  | _ => exact stays_throw _

theorem stays_selectSum (args : Arguments) : Stays (selectSum args) (Call.selectSum args) := by
  refine (stays_answer _).bind fun scores _ => (stays_answer _).bind fun name _ => ?_
  refine (stays_answer _).bind fun criterion _ => ?_
  exact (stays_within (select_eq criterion scores)).bind_ok (stays_pure _)

/-- The sheet that the source argument of a call means. -/
def ofSource (cx : Context) (f : Function) : Value → Guarded Sheet
  | .text name =>
    if Text.isSafeName name then
      match cx.lookup name with
      | none => throw (.formula (.unknownSource f name))
      | some v => do
        let rows ← answer (Sheet.rowsOf f v)
        let code := cx.canonical name
        let declared := ((← within ((cx.schema.field? code).mapM itemCount))).getD 0
        return ⟨rows, if declared = 0 then min (Sheet.widest rows) maxItems else declared, cx.crashes code⟩
    else throw (.formula (.unsafeSource f name))
  | v => answer (Sheet.ofSource cx f v)

theorem stays_ofSource (cx : Context) (f : Function) (v : Value) : Stays (ofSource cx f v) (Sheet.ofSource cx f v) := by
  cases v with
  | text name =>
    have hcount : ∀ field : Option Field, field.mapM itemCount = some (field.map Field.itemCount) := by
      intro field
      cases field with
      | none => rfl
      | some field => exact congrArg (Option.map some) (itemCount_eq field)
    simp only [ofSource, Sheet.ofSource]
    by_cases hsafe : Text.isSafeName name = true
    · rw [if_pos hsafe, if_pos hsafe]
      cases cx.lookup name with
      | none => exact stays_throw _
      | some v =>
        refine (stays_answer _).bind fun rows _ => ?_
        exact (stays_within (hcount _)).bind_ok (stays_pure _)
    · rw [if_neg hsafe, if_neg hsafe]
      exact stays_throw _
  | null | bool b | number n | list rows | map es =>
    simp only [ofSource]
    exact stays_answer _

/-- The reduction that a call of `row_custom_compute` or `column_custom_compute` asks for. -/
def ofArguments (cx : Context) (d : Direction) (args : Arguments) : Guarded Reduction := do
  let source ← answer (args.required "source")
  let sheet ← ofSource cx d.function source
  let item ← answer (args.textOr "item_expr" "x")
  let change ← compile .item item
  let selectOn ← answer (args.textOr "select_on" "expr")
  let judged ← answer ((Basis.ofName "select_on" selectOn).mapError .selection)
  let aggOn ← answer (args.textOr "agg_on" "expr")
  let counted ← answer ((Basis.ofName "agg_on" aggOn).mapError .selection)
  let inner ← Stage.ofArguments compile args d.inner (args.int? "n") "post_agg_expr"
  let outer ← Stage.ofArguments compile args d.outer none "post_final_expr"
  let mode ← answer ((args.textOr "return_mode" "final").map Text.trim)
  if mode != "final" && mode != d.perLine then
    throw (.selection (.returnMode d.function d.perLine mode))
  return ⟨d, sheet, change, judged, counted, inner, outer, mode != "final", Window.ofArguments args⟩

def customCompute (cx : Context) (d : Direction) (args : Arguments) : Guarded Value := do
  reduction (← ofArguments cx d args)

def itemsReduce (cx : Context) (args : Arguments) : Guarded Value := do
  let source ← answer (args.required "field_code")
  match source with
  | .text _ => pure ()
  | v => throw (.type (.codeExpected .itemsReduce v.kind))
  let sheet ← ofSource cx .itemsReduce source
  let item ← answer (args.textOr "item_expr" "x")
  let change ← compile .item item
  let name ← answer (args.textOr "agg" "sum")
  let aggregate ← answer ((Aggregate.ofName name).mapError .selection)
  let given := Window.ofArguments args
  let window : Window := ⟨given.start, given.count.or ((args.int? "limit_items").map Int.toNat)⟩
  let lines ← within (rowLines sheet window)
  let results ← lines.mapM fun cells => do
    within (Guarded.aggregate aggregate (← cells.mapM (changed change)))
  return .ofScores results

/-- The value of a call with its arguments bound.  The functions that are left have no operation with a range. -/
def run (cx : Context) (args : Arguments) : Guarded Value :=
  match args.function with
  | .sum => aggregateCall .sum args
  | .avg => aggregateCall .mean args
  | .min => aggregateCall .least args
  | .max => aggregateCall .greatest args
  | .med => aggregateCall .median args
  | .execByJudge => execByJudge args
  | .selectSum => selectSum args
  | .itemsReduce => itemsReduce cx args
  | .rowCompute => customCompute cx .rows args
  | .columnCompute => customCompute cx .columns args
  | _ => answer (Call.run Dialect.compile cx args)

theorem stays_stage (args : Arguments) (level : String) (fallback : Option Int) (post : String) :
    Stays (Stage.ofArguments compile args level fallback post)
      (Stage.ofArguments Dialect.compile args level fallback post) := by
  unfold Stage.ofArguments
  simp only [answer_eq]
  refine (stays_answer _).bind fun select _ => (stays_answer _).bind fun aggregate _ => ?_
  -- what follows the expression is the same with one and without
  have hrest : ∀ change : Option Expr, Stays (do
      let criterion ← answer ((Criterion.ofName select ((args.int? (level ++ "_n")).or fallback)).mapError .selection)
      let aggregate ← answer ((Aggregate.ofName aggregate).mapError .selection)
      pure ⟨criterion, aggregate, change⟩ : Guarded Stage) (do
      let criterion ← (Criterion.ofName select ((args.int? (level ++ "_n")).or fallback)).mapError .selection
      let aggregate ← (Aggregate.ofName aggregate).mapError .selection
      pure ⟨criterion, aggregate, change⟩) := fun change =>
    (stays_answer _).bind fun criterion _ => (stays_answer _).bind fun aggregate _ => stays_pure _
  split
  · exact (stays_pure none).bind fun change _ => hrest change
  · exact ((stays_answer _).map some).bind fun change _ => hrest change
  · exact stays_throw _

theorem stays_ofArguments (cx : Context) (d : Direction) (args : Arguments) :
    Stays (ofArguments cx d args) (Reduction.ofArguments Dialect.compile cx d args) := by
  unfold ofArguments Reduction.ofArguments
  simp only [answer_eq]
  refine (stays_answer _).bind fun source _ => (stays_ofSource cx d.function source).bind fun sheet _ => ?_
  refine (stays_answer _).bind fun item _ => (stays_answer _).bind fun change _ => ?_
  refine (stays_answer _).bind fun selectOn _ => (stays_answer _).bind fun judged _ => ?_
  refine (stays_answer _).bind fun aggOn _ => (stays_answer _).bind fun counted _ => ?_
  refine (stays_stage _ _ _ _).bind fun inner _ => (stays_stage _ _ _ _).bind fun outer _ => ?_
  refine (stays_answer _).bind fun mode _ => ?_
  split
  · exact stays_throw _
  · exact stays_pure _

theorem stays_customCompute (cx : Context) (d : Direction) (args : Arguments) :
    Stays (customCompute cx d args) (Scoresheet.customCompute Dialect.compile cx d args) := by
  refine (stays_ofArguments cx d args).bind fun r _ => ?_
  rw [answer_eq]
  exact stays_reduction r

theorem stays_itemsReduce (cx : Context) (args : Arguments) :
    Stays (itemsReduce cx args) (Scoresheet.itemsReduce Dialect.compile cx args) := by
  unfold itemsReduce Scoresheet.itemsReduce
  simp only [answer_eq]
  refine (stays_answer _).bind fun source _ => ?_
  cases source with
  | text name =>
    refine (stays_ofSource cx _ _).bind fun sheet _ => (stays_answer _).bind fun item _ => ?_
    refine (stays_answer _).bind fun change _ => (stays_answer _).bind fun name _ => ?_
    refine (stays_answer _).bind fun aggregate _ => (stays_within (rowLines_eq _ _)).bind_ok ?_
    refine (Stays.mapM fun cells _ => ?_).bind fun results _ => stays_pure _
    exact (stays_changed change cells).bind fun changed _ => stays_within (aggregate_eq aggregate changed)
  | null | bool b | number n | list xs | map es => exact stays_throw _

/-- **A function is run in range, whatever its arguments are.** -/
theorem stays_run (cx : Context) (args : Arguments) : Stays (run cx args) (Call.run Dialect.compile cx args) := by
  unfold run Call.run
  simp only [answer_eq]
  cases args.function with
  | sum | avg | min | max | med => exact stays_aggregateCall _ args
  | execByJudge => exact stays_execByJudge args
  | selectSum => exact stays_selectSum args
  | itemsReduce => exact stays_itemsReduce cx args
  | rowCompute => exact stays_customCompute cx .rows args
  | columnCompute => exact stays_customCompute cx .columns args
  | float | bestN | field | crash => exact stays_answer _

/-! ## Formulas -/

/-- The scope of a context. -/
def scope (cx : Context) : Scope Guarded where
  lookup := cx.lookup
  call f positional keywords := do run cx (← bind f positional keywords)

/-- **A formula is evaluated in range in every context.** -/
theorem stays_value (cx : Context) (e : Expr) :
    Stays (evaluate (scope cx) e) (Scoresheet.evaluate (cx.scope Dialect.compile) e) := by
  refine stays_evaluate ⟨rfl, fun f vs kvs => ?_⟩ e
  simp only [Context.scope, answer_eq]
  exact (stays_bind f vs kvs).bind fun args _ => stays_run cx args

end Guarded
end Scoresheet
