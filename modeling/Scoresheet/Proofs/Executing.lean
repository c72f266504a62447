import Scoresheet.Proofs.Canonical
import Scoresheet.Proofs.Crashing
import Scoresheet.Proofs.Reducing
import Scoresheet.Proofs.Referring
import Scoresheet.Proofs.Reordering
import Scoresheet.Proofs.Rounding
/-!
# Execution scores and reductions of one matrix

`exec_by_judge` and `items_reduce` each cut a row where its judge saw a crash, fill it up, and sum what is left.  Where
a matrix is declared for deductions (`Field.Deducts`), both take the same marks in the same order: the bounds of the
field are those of a deduction, and its items are the elements of a routine (`Sheet.take_deductions_eq_judgeMarks`).  So
a judge's execution score is worked out from the judge's sum (`execution_eq_itemSums`).
-/
namespace Scoresheet

/-! ## Deductions -/

namespace Score

variable {a z : Score}

/-- Every number compares with both zeros in the same way. -/
theorem order_of_isZero (h : z.isZero = true) (a : Score) : a.order z = a.order 0 := by
  have hzero : z.toFloat.toModel.unpack.compare (.zero .positive) = some .eq := beq_iff_eq.1 h
  obtain ⟨s, hs⟩ : ∃ s, z.toFloat.toModel.unpack = .zero s := by
    revert hzero
    cases z.toFloat.toModel.unpack with
    | zero s => exact fun _ => ⟨s, rfl⟩
    | notANumber => exact fun h => nomatch h
    | infinity s => cases s <;> exact fun h => nomatch h
    | finite s m e hm => cases s <;> exact fun h => nomatch h
  rw [order, order, hs]
  show _ = a.toFloat.toModel.unpack.compare (.zero .positive)
  cases a.toFloat.toModel.unpack with
  | notANumber => rfl
  | infinity t | zero t | finite t m e hm => cases t <;> rfl

theorem lt_congr_of_isZero (h : z.isZero = true) (a : Score) : a.lt z = a.lt 0 := by
  rw [Bool.eq_iff_iff, lt_iff_order, lt_iff_order, order_of_isZero h]

/-- The larger one of a number and zero is not below zero. -/
theorem max_lt_zero (h : z.isZero = true) (a : Score) : (Score.max a z).lt 0 = false := by
  by_cases hz : a.isNaN = true ∨ a.lt z = true
  · rw [max_of_isNaN_or_lt hz, ← lt_congr_of_isZero h, lt_self]
  · rw [not_or, Bool.not_eq_true, Bool.not_eq_true] at hz
    rw [max_of_not hz.1 hz.2, ← lt_congr_of_isZero h, hz.2]

end Score

/-- A field for deductions: a matrix of marks between zero and ten, with an item for each element of a routine. -/
structure Field.Deducts (f : Field) (elements : Nat) : Prop where
  layout : f.layout = .matrix
  lower : ∃ z, f.lower = some z ∧ z.isZero = true
  upper : f.upper = some 10
  items : f.itemCount = elements

/-- A mark that counts as it is when it is deducted. -/
def Score.IsDeduction (x : Score) : Prop := Score.clamp 0 10 x = x

/-- **The bounds of the field are those of a deduction.** -/
theorem Field.Deducts.isDeduction_cell {f : Field} {elements : Nat} (h : f.Deducts elements) (v : Value) :
    (f.cell v).IsDeduction := by
  obtain ⟨z, hlower, hz⟩ := h.lower
  have hten : (10 : Score).lt 0 = false := by decide +kernel
  rw [cell, clamp, hlower, h.upper]
  dsimp only
  have hmax := Score.max_lt_zero hz v.toScore
  generalize Score.max v.toScore z = y at hmax
  rw [Score.IsDeduction, Score.clamp]
  by_cases hy : y.isNaN = true ∨ (10 : Score).lt y = true
  · rw [Score.min_of_isNaN_or_lt hy, hten, Score.lt_self]
    rfl
  · rw [not_or, Bool.not_eq_true, Bool.not_eq_true] at hy
    rw [Score.min_of_not hy.1 hy.2, hmax, hy.2]
    rfl

namespace Routine

theorem counted_le (elements : Nat) (crash : Int) : counted elements crash ≤ elements := by
  unfold counted
  split <;> omega

/-- A crash position counts the same after it has been a score: one that is rounded lies beyond every routine. -/
theorem counted_toInt_ofInt {elements : Nat} {crash : Int} (helements : elements ≤ maxItems) (h : -2 ^ 63 ≤ crash)
    (h' : crash < 2 ^ 63) : counted elements (Score.ofInt crash).toInt = counted elements crash := by
  unfold maxItems at helements
  by_cases hneg : crash < 0
  · have hread := Score.toInt_ofInt_neg h hneg
    rw [counted, counted, if_neg (by omega), if_neg (by omega)]
  · by_cases hsmall : crash < 2 ^ 53
    · rw [Score.toInt_ofInt (by omega) hsmall]
    · have hread := Score.le_toInt_ofInt (c := crash) (by omega) (by omega)
      rw [counted, counted, if_pos (by omega), if_pos (by omega)]
      omega

/-- Of deductions those that count are the first marks of the row, and zero where it has none. -/
theorem take_deductions {elements k : Nat} (hk : k ≤ elements) {row : List Score} (h : ∀ x ∈ row, x.IsDeduction) :
    (deductions elements row).take k = (List.range k).map fun i => row[i]?.getD 0 := by
  rw [deductions, ← List.map_take, List.take_range, Nat.min_eq_left hk]
  refine List.map_congr_left fun i _ => ?_
  cases hi : row[i]? with
  | none => decide +kernel
  | some x => exact h x (List.mem_of_getElem? hi)

end Routine

/-! ## Sheets -/

/-- The window of all items. -/
def Window.whole : Window := ⟨0, none⟩

namespace Sheet

variable {s : Sheet}

/-- **A judge's items are the elements that count**, in the same order. -/
theorem itemsFor_whole (s : Sheet) (judge : Nat) :
    s.itemsFor .whole judge = List.range (Routine.counted s.items (s.crashes[judge]?.getD 0)) := by
  have hfirst : s.first .whole = 0 := Nat.zero_min _
  have hstop : s.stopFor .whole judge = Routine.counted s.items (s.crashes[judge]?.getD 0) := by
    unfold stopFor Routine.counted
    rw [Nat.min_comm]
    rfl
  rw [itemsFor, hfirst, hstop, Nat.sub_zero, List.range_eq_range']

/-- A judge's marks, up to the crash. -/
def judgeMarks (s : Sheet) (judge : Nat) : List Score :=
  ((s.itemsFor .whole judge).map (s.cell judge)).map Cell.mark

/-- The sum of a judge's marks. -/
def judgeSum (s : Sheet) (judge : Nat) : Score := Aggregate.sum.apply (s.judgeMarks judge)

/-- A judge's crash position as it is read from an argument: it has been a score. -/
def crashArgument (s : Sheet) (judge : Nat) : Int := ((s.crashes.map Score.ofInt)[judge]?.map Score.toInt).getD 0

/-- A sum of no marks is zero, and one that starts at negative zero comes to the same once it is deducted. -/
theorem sub_apply_sum_div {marks : List Score} {n : Nat} (h : marks.length = n) (k : Nat) :
    Score.ofNat (min n k) - Score.sum marks / 10 = Score.ofNat (min n k) - Aggregate.sum.apply marks / 10 := by
  subst h
  cases marks with
  | nil =>
    rw [List.length_nil, Nat.zero_min]
    decide +kernel
  | cons x xs => rfl

section

variable (hitems : s.items ≤ maxItems) (hcrashes : ∀ c ∈ s.crashes, -2 ^ 63 ≤ c ∧ c < 2 ^ 63)

include hitems hcrashes

theorem counted_crashArgument (judge : Nat) :
    Routine.counted s.items (s.crashArgument judge) = (s.itemsFor .whole judge).length := by
  rw [itemsFor_whole, List.length_range, crashArgument, List.getElem?_map, Option.map_map]
  cases hc : s.crashes[judge]? with
  | none => rfl
  | some c =>
    obtain ⟨hlow, hhigh⟩ := hcrashes c (List.mem_of_getElem? hc)
    exact Routine.counted_toInt_ofInt hitems hlow hhigh

/-- **Both count the same marks in the same order.** -/
theorem take_deductions_eq_judgeMarks {judge : Nat} {row : List Score} (hrow : s.rows[judge]? = some row)
    (h : ∀ x ∈ row, x.IsDeduction) :
    (Routine.deductions s.items row).take (Routine.counted s.items (s.crashArgument judge)) = s.judgeMarks judge := by
  rw [Routine.take_deductions (Routine.counted_le _ _) h, counted_crashArgument hitems hcrashes, judgeMarks,
    itemsFor_whole, List.length_range, List.map_map]
  refine List.map_congr_left fun i _ => ?_
  rw [Function.comp_apply, cell, hrow]
  rfl

/-- **An execution score from a judge's sum.** -/
theorem execution_eq_judgeSum {judge : Nat} {row : List Score} (hrow : s.rows[judge]? = some row)
    (h : ∀ x ∈ row, x.IsDeduction) : Routine.execution s.items (s.crashArgument judge) row =
      Score.ofNat (min (s.itemsFor .whole judge).length 10) - s.judgeSum judge / 10 := by
  have hlength : (s.judgeMarks judge).length = (s.itemsFor .whole judge).length := by
    rw [judgeMarks, List.length_map, List.length_map]
  have hmarks := take_deductions_eq_judgeMarks hitems hcrashes hrow h
  have hcounted := counted_crashArgument hitems hcrashes judge
  rw [hcounted] at hmarks
  simp only [Routine.execution, hcounted, hmarks]
  exact sub_apply_sum_div hlength 10

theorem executions_eq_judgeSums (h : ∀ row ∈ s.rows, ∀ x ∈ row, x.IsDeduction) :
    (s.rows.zipIdx.map fun r => Routine.execution s.items (s.crashArgument r.2) r.1) =
      ((List.range s.rows.length).map s.judgeSum).zipIdx.map fun (r, j) =>
        Score.ofNat (min (s.itemsFor .whole j).length 10) - r / 10 := by
  refine List.ext_getElem (by simp) fun judge hj hj' => ?_
  have hlt : judge < s.rows.length := by simpa using hj
  have hrow : s.rows[judge]? = some s.rows[judge] := List.getElem?_eq_getElem hlt
  simpa using execution_eq_judgeSum hitems hcrashes hrow (h _ (List.getElem_mem hlt))

end

/-- Without an item expression a reduction sums each judge's marks. -/
theorem aggregateRows_name (s : Sheet) :
    s.aggregateRows .whole (.name "x") .sum = .ok ((List.range s.rows.length).map s.judgeSum) := by
  have hchanged : Cell.changed (.name "x") = fun c => (pure c.mark : Result Score) := rfl
  have hline : ∀ cells : List Cell, cells.mapM (Cell.changed (.name "x")) = (pure (cells.map Cell.mark) : Result _) :=
    fun cells => by rw [hchanged, List.mapM_pure]
  simp only [aggregateRows, hline, pure_bind, List.mapM_pure, rowLines, List.map_map]
  rfl

end Sheet

/-! ## Contexts -/

/-- A name that an output or a short name never hides: it is neither a computed code nor a short name. -/
def Schema.IsPlain (s : Schema) (name : String) : Prop :=
  s.aliases.get? name = none ∧ name ∉ s.computed.map (·.code)

section

variable {s : Schema} {raw : Table Value} {code : String}

/-- Of several fields of a code one is the last. -/
theorem exists_last_of_code {fields : List Field} (h : ∃ f ∈ fields, f.code = code) :
    ∃ before f after, fields = before ++ f :: after ∧ f.code = code ∧ ∀ g ∈ after, g.code ≠ code := by
  have hsome : (fields.reverse.find? fun f => f.code = code).isSome = true := by simpa using h
  obtain ⟨f, hfind⟩ := Option.isSome_iff_exists.1 hsome
  obtain ⟨hf, after, before, hsplit, hafter⟩ := List.find?_eq_some_iff_append.1 hfind
  refine ⟨before.reverse, f, after.reverse, ?_, of_decide_eq_true hf, fun g hg => ?_⟩
  · rw [← List.reverse_inj, hsplit]
    simp
  · simpa using hafter g (List.mem_reverse.1 hg)

/-- The input under the code of such a field is a matrix of deductions, whatever was entered. -/
theorem exists_deductions (hsafe : Text.isSafeName code = true) (hfield : ∃ f ∈ s.fields, f.code = code)
    {elements : Nat} (hdeducts : ∀ f ∈ s.fields, f.code = code → f.Deducts elements) (raw : Table Value) :
    ∃ rows, (normalize s.fields raw).get? code = some (.ofMatrix rows) ∧ ∀ row ∈ rows, ∀ x ∈ row, x.IsDeduction := by
  have hempty : code.isEmpty = false := by
    rw [Bool.eq_false_iff, Ne, String.isEmpty_iff]
    rintro rfl
    exact absurd hsafe (by decide)
  -- of several fields of the code the last one writes the input
  obtain ⟨before, f, after, hfields, rfl, hafter⟩ := exists_last_of_code hfield
  have hlast := hdeducts f (by simp [hfields]) rfl
  have hkey : ∀ g ∈ after, f.code ≠ g.code ∧ (g.tracksCrash = true → f.code ≠ crashKey g.code) := by
    refine fun g hg => ⟨(hafter g hg).symm, fun _ he => ?_⟩
    have hnone := crashCode?_eq_none_of_isSafeName hsafe
    rw [he, crashCode?_crashKey] at hnone
    cases hnone
  have hinput : (normalize s.fields raw).get? f.code = some (f.normal ((raw.get? f.code).getD .null)) := by
    rw [hfields, get?_normalize_append hkey, Field.get?_contribute_code hempty]
  refine ⟨_, hinput.trans (congrArg some (Field.normal_matrix hlast.layout _)), fun row hrow x hx => ?_⟩
  obtain ⟨v, -, rfl⟩ := List.mem_map.1 hrow
  obtain ⟨w, -, rfl⟩ := List.mem_map.1 hx
  exact hlast.isDeduction_cell w

namespace Context

/-- The sum of each judge's items. -/
def itemSums (code : String) : Expr := .call .itemsReduce [.literal (.text code)] []

theorem value_itemSums (cx : Context) (code : String) : cx.value (itemSums code) =
    Value.ofScores <$> (Sheet.ofSource cx .itemsReduce (.text code) >>= fun sheet =>
      sheet.aggregateRows .whole (.name "x") .sum) := by
  have hx : Dialect.item.compile "x" = .ok (.name "x") := by
    have hid : Text.isIdentifier "x" = true := by decide
    rw [Dialect.compile, Text.allBlank_of_isIdentifier hid, if_neg Bool.false_ne_true, parse_of_isIdentifier hid]
    rfl
  let args : Arguments := ⟨.itemsReduce, [("field_code", some (.text code)), ("item_expr", none), ("agg", none),
    ("limit_items", none), ("start", none), ("count", none)]⟩
  have hcall : cx.value (itemSums code) = itemsReduce Dialect.compile cx args := by
    rw [value, itemSums, evaluate]
    simp only [evaluateAll, evaluateKeywords, evaluate, pure_bind]
    rfl
  have hsource : args.required "field_code" = .ok (.text code) := rfl
  rw [hcall, itemsReduce_eq_marksByJudge cx hsource, marksByJudge]
  refine congrArg (Value.ofScores <$> ·) (bind_congr fun sheet => ?_)
  show Dialect.item.compile "x" >>= _ = _
  rw [hx]
  rfl

theorem crashes_bounds (cx : Context) (code : String) : ∀ c ∈ cx.crashes code, -2 ^ 63 ≤ c ∧ c < 2 ^ 63 := by
  intro c hc
  unfold crashes at hc
  split at hc
  · obtain ⟨v, -, rfl⟩ := List.mem_map.1 hc
    exact v.toScore.toInt_bounds
  · cases hc

variable {cx : Context} {l : List (String × Value)}

/-- Such a name means the parameters or an input, whichever outputs of computed codes are stored. -/
theorem lookup_of_isPlain (hcx : cx = (start s (normalize s.fields raw) s.aliases).storeAll l)
    (hl : ∀ e ∈ l, e.1 ∈ s.computed.map (·.code)) {name : String} (h : s.IsPlain name) :
    cx.lookup name = base? s (normalize s.fields raw) name ∧ cx.canonical name = name := by
  have houtputs : cx.outputs.get? name = none := by
    have hnot : name ∉ l.map Prod.fst := by
      intro hmem
      obtain ⟨e, he, rfl⟩ := List.mem_map.1 hmem
      exact h.2 (hl e he)
    rw [hcx, outputs_storeAll_of_notMem l _ hnot]
    rfl
  have haliases : cx.aliases.get? name = none := by
    rw [hcx, storeAll_aliases]
    exact h.1
  have hshortcuts : cx.shortcuts.get? name = none := by
    have htracks : cx.Tracks := hcx ▸ tracks_storeAll l (tracks_start s _ s.aliases)
    rw [htracks, haliases]
    rfl
  constructor
  · rw [lookup, houtputs, hshortcuts, hcx, storeAll_schema, storeAll_inputs]
    rfl
  · rw [canonical, Table.contains, houtputs, haliases]
    rfl

/-- A call of `crash` and one of the parameters have what an execution score reads beside the matrix. -/
theorem value_execution_ofMatrix {rows : List (List Score)} (hmatrix : cx.lookup code = some (.ofMatrix rows))
    (hparams : cx.lookup "params" = some (.map s.params.entries)) :
    cx.value (execution code code) = .ok (.ofScores (rows.zipIdx.map fun r => Routine.execution
      (Schema.elements s.params) (((((cx.crashes code).map Score.ofInt)[r.2]?).map Score.toInt).getD 0) r.1)) := by
  have htable : Table.ofList s.params.entries = s.params := Table.ofList_eq s.params.sorted
  rw [value_execution, value_name, value_name, hmatrix, hparams]
  refine (execByJudge_ofMatrix (cx.crashes code) rows (.map s.params.entries)).trans ?_
  show Except.ok (Value.ofScores (rows.zipIdx.map fun r => Routine.execution
    (Schema.elements (.ofList s.params.entries)) _ r.1)) = _
  rw [htable]

end Context

/-- A code for deductions: a safe name that nothing else has, of fields for deductions only. -/
structure Schema.HasDeductions (s : Schema) (code : String) : Prop where
  safe : Text.isSafeName code = true
  plain : s.IsPlain code
  params : s.IsPlain "params"
  field : ∃ f ∈ s.fields, f.code = code
  deducts : ∀ f ∈ s.fields, f.code = code → f.Deducts (Schema.elements s.params)

theorem Schema.elements_pos (params : Table Value) : 0 < Schema.elements params := by
  unfold Schema.elements
  dsimp only
  omega

namespace Schema.HasDeductions

theorem itemCount_eq (h : s.HasDeductions code) :
    ((s.field? code).map Field.itemCount).getD 0 = Schema.elements s.params := by
  obtain ⟨f, hf, hcode⟩ := h.field
  have hsome : (s.field? code).isSome = true := List.find?_isSome.2 ⟨f, hf, by simpa using hcode⟩
  obtain ⟨g, hg⟩ := Option.isSome_iff_exists.1 hsome
  have hcode : g.code = code := by simpa using List.find?_some hg
  rw [hg, Option.map_some, Option.getD_some]
  exact (h.deducts g (List.mem_of_find?_eq_some hg) hcode).items

/-- The sheet of such a code has an item for each element. -/
theorem ofSource_eq (h : s.HasDeductions code) {cx : Context} (hschema : cx.schema = s) {rows : List (List Score)}
    (hlookup : cx.lookup code = some (.ofMatrix rows)) (hcanonical : cx.canonical code = code) :
    Sheet.ofSource cx .itemsReduce (.text code) = .ok ⟨rows, Schema.elements s.params, cx.crashes code⟩ := by
  have hpos := elements_pos s.params
  simp only [Sheet.ofSource, if_pos h.safe, hlookup, Sheet.rowsOf_ofMatrix, hcanonical, hschema, h.itemCount_eq,
    if_neg (Nat.ne_of_gt hpos)]
  rfl

end Schema.HasDeductions

/-- **An execution score is what a sum of items leaves of its base.**  At every point of scoring, and whatever was
entered, both calls over the matrix come to one number per judge; a judge's execution score is a point for each item of
the judge, at most ten, less a tenth of the judge's sum; and the marks deducted are those summed, in the same order.  A
field that has the name of the parameters cannot be referred to, and both calls fail. -/
theorem execution_eq_itemSums (h : s.HasDeductions code) (raw : Table Value) {l : List (String × Value)}
    (hl : ∀ e ∈ l, e.1 ∈ s.computed.map (·.code)) {cx : Context}
    (hcx : cx = (Context.start s (normalize s.fields raw) s.aliases).storeAll l) :
    (code = "params" ∧ ∃ e e', cx.value (Context.itemSums code) = .error e ∧
      cx.value (Context.execution code code) = .error e') ∨
    ∃ sheet sums, Sheet.ofSource cx .itemsReduce (.text code) = .ok sheet ∧
      cx.value (.name code) = .ok (.ofMatrix sheet.rows) ∧
      cx.value (Context.itemSums code) = .ok (.ofScores sums) ∧
      cx.value (Context.execution code code) = .ok (.ofScores (sums.zipIdx.map fun (r, j) =>
        Score.ofNat (min (sheet.itemsFor .whole j).length 10) - r / 10)) ∧
      ∀ judge row, sheet.rows[judge]? = some row →
        (Routine.deductions (Schema.elements s.params) row).take
          (Routine.counted (Schema.elements s.params) (sheet.crashArgument judge)) = sheet.judgeMarks judge := by
  obtain ⟨hlookup, hcanonical⟩ := Context.lookup_of_isPlain hcx hl h.plain
  have hparams := (Context.lookup_of_isPlain hcx hl h.params).1
  rw [Context.base?, if_pos rfl] at hparams
  by_cases hcode : code = "params"
  · subst hcode
    rw [Context.base?, if_pos rfl] at hlookup
    refine .inl ⟨rfl, .type (.itemMatrixExpected .itemsReduce (Value.map s.params.entries).kind),
      .type (.elementMatrixExpected .execByJudge (Value.map s.params.entries).kind), ?_, ?_⟩
    · rw [Context.value_itemSums, Sheet.ofSource, if_pos h.safe, hlookup]
      rfl
    · rw [Context.value_execution, Context.value_name, hlookup]
      rfl
  · right
    rw [Context.base?, if_neg hcode] at hlookup
    obtain ⟨rows, hinput, hrows⟩ := exists_deductions h.safe h.field h.deducts raw
    rw [hinput] at hlookup
    let sheet : Sheet := ⟨rows, Schema.elements s.params, cx.crashes code⟩
    have hschema : cx.schema = s := by
      rw [hcx, Context.storeAll_schema]
      rfl
    have hsheet : Sheet.ofSource cx .itemsReduce (.text code) = .ok sheet :=
      h.ofSource_eq hschema hlookup hcanonical
    have hitems : sheet.items ≤ maxItems := elements_le s.params
    have hcrashes := cx.crashes_bounds code
    refine ⟨sheet, (List.range sheet.rows.length).map sheet.judgeSum, hsheet, ?_, ?_, ?_, fun judge row hrow => ?_⟩
    · rw [Context.value_name, hlookup]
    · rw [Context.value_itemSums, hsheet]
      exact congrArg (Value.ofScores <$> ·) sheet.aggregateRows_name
    · rw [Context.value_execution_ofMatrix hlookup hparams]
      exact congrArg (fun scores => Except.ok (Value.ofScores scores))
        (sheet.executions_eq_judgeSums hitems hcrashes hrows)
    · exact Sheet.take_deductions_eq_judgeMarks hitems hcrashes hrow (hrows row (List.mem_of_getElem? hrow))

theorem execution_eq_itemSums_crash : ∃ (s : Schema) (raw : Table Value) (cx : Context) (sheet : Sheet)
    (sums : List Score), s.HasDeductions "E" ∧ cx = (Context.start s (normalize s.fields raw) s.aliases).storeAll
      [("T", .number 3)] ∧ cx.crashes "E" = [3, 1, 0] ∧
    Sheet.ofSource cx .itemsReduce (.text "E") = .ok sheet ∧
    cx.value (Context.itemSums "E") = .ok (.ofScores sums) ∧
    cx.value (Context.execution "E" "E") = .ok (.ofScores (sums.zipIdx.map fun (r, j) =>
      Score.ofNat (min (sheet.itemsFor .whole j).length 10) - r / 10)) := by
  let f : Field := ⟨"E", none, some "matrix", some "judge_x_element", none, some 0, some 10, some ⟨some 3⟩,
    some ⟨some 4⟩, some true, none, .empty⟩
  let s : Schema := ⟨.ofList [("n_elements", .number 4)], [f], [⟨"T", none, some "1 + 2", none, .empty⟩], none⟩
  let raw : Table Value := .ofList [("E", .list [.list [.number 4, .number 99, .number 5], .list [.number 7], .null]),
    ("__crash__E", .list [.number 3, .number 1])]
  have h : s.HasDeductions "E" := by
    refine ⟨by decide, ⟨by decide +kernel, by decide⟩, ⟨by decide +kernel, by decide⟩, ⟨f, List.mem_cons_self, rfl⟩, ?_⟩
    intro g hg _
    obtain rfl := List.mem_singleton.1 hg
    exact ⟨by decide +kernel, ⟨0, rfl, by decide +kernel⟩, rfl, by decide +kernel⟩
  obtain ⟨hcode, -⟩ | ⟨sheet, sums, hsheet, -, hsums, hscores, -⟩ := execution_eq_itemSums h raw
    (l := [("T", .number 3)]) (by decide) rfl
  · exact absurd hcode (by decide)
  · exact ⟨s, raw, _, sheet, sums, h, rfl, by decide +kernel, hsheet, hsums, hscores⟩

end

end Scoresheet
