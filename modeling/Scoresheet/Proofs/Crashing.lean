import Scoresheet.Proofs.Normalizing
import Scoresheet.Proofs.Running
import Scoresheet.Proofs.Whole
/-!
# Marks after a crash

What a judge entered from the item of a crash on changes no reduction of the matrix and no execution score.  Windows
leave such cells out of every line (`rowLines_eq`, `columnLines_eq`), and an execution score counts no element from
the crash on (`execution_congr`).  Both find the crash positions under the same key, so two contexts whose inputs
differ in such cells only agree on every call over the matrix (`eq_after_crash`).
-/
namespace Scoresheet

open Plan (target)

/-! ## Marks -/

/-- Whether a cell counts: its judge saw no crash, or one at a later item. -/
def Counts (crashes : List Int) (judge item : Nat) : Prop :=
  crashes[judge]?.getD 0 ≤ 0 ∨ (item : Int) < crashes[judge]?.getD 0 - 1

/-- Marks of the same form that differ in cells only that do not count. -/
structure AlikeUntil (crashes : List Int) (rows rows' : List (List Score)) : Prop where
  widths : rows.map List.length = rows'.map List.length
  marks : ∀ j i, Counts crashes j i → (rows[j]?.getD [])[i]? = (rows'[j]?.getD [])[i]?

namespace AlikeUntil

variable {crashes : List Int} {rows rows' : List (List Score)}

theorem length_eq (h : AlikeUntil crashes rows rows') : rows.length = rows'.length := by
  have hlength := congrArg List.length h.widths
  simpa using hlength

theorem widest_eq (h : AlikeUntil crashes rows rows') : Sheet.widest rows = Sheet.widest rows' := by
  have hwidest : ∀ rows : List (List Score), Sheet.widest rows = (rows.map List.length).foldl max 0 := by
    intro rows
    rw [Sheet.widest, List.foldl_map]
  rw [hwidest, hwidest, h.widths]

/-- A cell that does not count may hold any mark. -/
theorem set {j i : Nat} (h : ¬ Counts crashes j i) (rows : List (List Score)) (x : Score) :
    AlikeUntil crashes rows (rows.modify j fun row => row.set i x) := by
  constructor
  · refine List.ext_getElem? fun k => ?_
    rw [List.getElem?_map, List.getElem?_map, List.getElem?_modify]
    by_cases hk : j = k <;> cases rows[k]? <;> simp [hk]
  · intro k n hcounts
    rw [List.getElem?_modify]
    by_cases hk : j = k
    · subst hk
      have hn : i ≠ n := fun he => h (he ▸ hcounts)
      cases rows[j]? with
      | none => simp
      | some row => simp [hn]
    · cases rows[k]? <;> simp [hk]

end AlikeUntil

/-! ## Sheets -/

namespace Sheet

theorem counts_of_mem_itemsFor {s : Sheet} {w : Window} {judge item : Nat} (h : item ∈ s.itemsFor w judge) :
    Counts s.crashes judge item := by
  rw [itemsFor, List.mem_range'_1] at h
  have hstop : item < s.stopFor w judge := by omega
  rw [Counts]
  unfold stopFor at hstop
  dsimp only at hstop
  split at hstop
  · right
    omega
  · left
    omega

/-- Two sheets of a panel that differ in cells only that do not count. -/
structure Alike (s s' : Sheet) : Prop where
  items : s.items = s'.items
  crashes : s.crashes = s'.crashes
  rows : AlikeUntil s.crashes s.rows s'.rows

namespace Alike

variable {s s' : Sheet}

theorem itemsOf_eq (h : s.Alike s') (w : Window) : s.itemsOf w = s'.itemsOf w := by
  simp only [itemsOf, first, stop, h.items]

theorem itemsFor_eq (h : s.Alike s') (w : Window) (judge : Nat) : s.itemsFor w judge = s'.itemsFor w judge := by
  simp only [itemsFor, first, stopFor, stop, h.items, h.crashes]

theorem cell_eq (h : s.Alike s') {w : Window} {judge item : Nat} (hitem : item ∈ s.itemsFor w judge) :
    s.cell judge item = s'.cell judge item := by
  rw [cell, cell, h.rows.marks judge item (counts_of_mem_itemsFor hitem)]

theorem rowLines_eq (h : s.Alike s') (w : Window) : s.rowLines w = s'.rowLines w := by
  rw [rowLines, rowLines, ← h.rows.length_eq]
  refine List.map_congr_left fun judge _ => ?_
  rw [← h.itemsFor_eq w judge]
  exact List.map_congr_left fun item hitem => h.cell_eq hitem

theorem columnLines_eq (h : s.Alike s') (w : Window) : s.columnLines w = s'.columnLines w := by
  rw [columnLines, columnLines, ← h.itemsOf_eq w, ← h.rows.length_eq]
  refine List.map_congr_left fun item _ => ?_
  simp only [← h.itemsFor_eq w]
  refine List.map_congr_left fun judge hjudge => ?_
  have hitem : item ∈ s.itemsFor w judge := List.contains_iff_mem.1 (List.mem_filter.1 hjudge).2
  exact h.cell_eq hitem

theorem lines_eq (h : s.Alike s') (d : Direction) (w : Window) : d.lines s w = d.lines s' w := by
  cases d with
  | rows => exact h.rowLines_eq w
  | columns => exact h.columnLines_eq w

end Alike
end Sheet

@[simp] theorem Sheet.rowsOf_ofMatrix (f : Function) (rows : List (List Score)) :
    rowsOf f (.ofMatrix rows) = .ok rows := by
  rw [Value.ofMatrix, rowsOf, List.map_map]
  have hrow : ∀ row ∈ rows, (Value.ofScores row).scores = id row := fun row _ => Value.scores_ofScores row
  exact congrArg Except.ok ((List.map_congr_left hrow).trans (List.map_id rows))

/-! ## Reductions -/

section

variable {cx cx' : Context} {args : Arguments} {v : Value} {sheet sheet' : Sheet}

/-- A reduction reads its sheet line by line. -/
theorem Reduction.run_congr {r : Reduction} (h : r.sheet.Alike sheet') :
    r.run = ({ r with sheet := sheet' } : Reduction).run := by
  have hlines := h.lines_eq r.direction r.window
  simp only [run, lines, hlines]
  rfl

/-- Two sources that mean the same, or sheets that differ in cells only that do not count. -/
def SourcesAlike (x y : Result Sheet) : Prop :=
  x = y ∨ ∃ sheet sheet', x = pure sheet ∧ y = pure sheet' ∧ sheet.Alike sheet'

theorem itemsReduce_eq (hv : args.required "field_code" = pure v)
    (h : SourcesAlike (Sheet.ofSource cx .itemsReduce v) (Sheet.ofSource cx' .itemsReduce v)) :
    (itemsReduce Dialect.compile cx args : Result Value) = itemsReduce Dialect.compile cx' args := by
  unfold itemsReduce
  simp only [answer_eq, hv, pure_bind]
  rcases h with heq | ⟨sheet, sheet', hsheet, hsheet', halike⟩
  · rw [heq]
  · simp only [hsheet, hsheet', pure_bind, halike.rowLines_eq]

theorem customCompute_eq (d : Direction) (hv : args.required "source" = pure v)
    (h : SourcesAlike (Sheet.ofSource cx d.function v) (Sheet.ofSource cx' d.function v)) :
    (customCompute Dialect.compile cx d args : Result Value) = customCompute Dialect.compile cx' d args := by
  unfold customCompute Reduction.ofArguments
  simp only [answer_eq, hv, pure_bind]
  rcases h with heq | ⟨sheet, sheet', hsheet, hsheet', halike⟩
  · rw [heq]
  · simp only [hsheet, hsheet', pure_bind, bind_assoc]
    -- nothing that is read between the sheet and the reduction looks at the sheet
    iterate 9 refine bind_congr fun _ => ?_
    split
    · rfl
    · exact Reduction.run_congr halike

/-- A reduction reads nothing of a context but its source. -/
theorem Call.run_eq (hf : args.function.readsSource = true)
    (hv : args.required args.function.sourceParameter = pure v)
    (h : SourcesAlike (Sheet.ofSource cx args.function v) (Sheet.ofSource cx' args.function v)) :
    (run Dialect.compile cx args : Result Value) = run Dialect.compile cx' args := by
  obtain ⟨f, slots⟩ := args
  cases f with
  | itemsReduce => exact itemsReduce_eq hv h
  | rowCompute => exact customCompute_eq .rows hv h
  | columnCompute => exact customCompute_eq .columns hv h
  | _ => cases hf

end

/-! ## Execution scores -/

namespace Routine

theorem execution_congr {elements : Nat} {crash : Int} {given given' : List Score}
    (h : ∀ i < counted elements crash, given[i]? = given'[i]?) :
    execution elements crash given = execution elements crash given' := by
  have htake : (deductions elements given).take (counted elements crash) =
      (deductions elements given').take (counted elements crash) := by
    refine List.ext_getElem? fun i => ?_
    rw [List.getElem?_take, List.getElem?_take]
    split
    · rename_i hi
      simp only [deductions, List.getElem?_map]
      by_cases hlt : i < elements
      · rw [List.getElem?_range hlt, Option.map_some, Option.map_some, h i hi]
      · rw [List.getElem?_eq_none (List.length_range ▸ Nat.le_of_not_lt hlt)]
        rfl
    · rfl
  simp only [execution, htake]

/-- **An execution score counts no element from the crash on.** -/
theorem counts_of_lt_counted {crashes : List Int} {judge elements i : Nat} (helements : elements ≤ maxItems)
    (h : i < counted elements (((crashes.map Score.ofInt)[judge]?.map Score.toInt).getD 0)) :
    Counts crashes judge i := by
  rw [Counts]
  rw [List.getElem?_map, Option.map_map] at h
  cases hc : crashes[judge]? with
  | none => exact .inl (Int.le_refl 0)
  | some c =>
    rw [hc, Option.map_some, Option.getD_some, Function.comp_apply, counted] at h
    rw [Option.getD_some]
    by_cases hpos : 0 < c
    · right
      by_cases hmax : c ≤ maxItems
      · rw [Score.toInt_ofInt (Int.le_of_lt hpos) (by unfold maxItems at hmax; omega), if_pos hpos] at h
        omega
      · split at h <;> omega
    · left
      omega

end Routine

theorem elements_le (params : Table Value) : Schema.elements params ≤ maxItems := by
  unfold Schema.elements maxItems
  dsimp only
  omega

/-- Two meanings that are the same, or matrices that differ in cells only that do not count. -/
def LooksAlike (crashes : List Int) (v v' : Option Value) : Prop :=
  v = v' ∨ ∃ rows rows', v = some (.ofMatrix rows) ∧ v' = some (.ofMatrix rows') ∧ AlikeUntil crashes rows rows'

namespace LooksAlike

variable {crashes : List Int} {v v' w w' : Option Value}

theorem or_left (h : LooksAlike crashes v v') (hw : w = w') : LooksAlike crashes (w.or v) (w'.or v') := by
  subst hw
  cases w with
  | none => simpa using h
  | some _ => exact .inl rfl

theorem or_right (h : LooksAlike crashes v v') (hw : w = w') : LooksAlike crashes (v.or w) (v'.or w') := by
  rcases h with rfl | ⟨rows, rows', rfl, rfl, halike⟩
  · exact .inl (by rw [hw])
  · exact .inr ⟨rows, rows', rfl, rfl, halike⟩

theorem entries?_eq (h : LooksAlike crashes v v') : v.bind Value.entries? = v'.bind Value.entries? := by
  rcases h with rfl | ⟨rows, rows', rfl, rfl, -⟩
  · rfl
  · rfl

end LooksAlike

/-- The arguments of the call for execution scores. -/
def executionArguments (crashes : List Int) (matrix params : Value) : Arguments :=
  ⟨.execByJudge, [("matrix", some matrix), ("crash", some (.ofScores (crashes.map Score.ofInt))),
    ("params", some params)]⟩

theorem execByJudge_ofMatrix (crashes : List Int) (rows : List (List Score)) (params : Value) :
    Call.execByJudge (executionArguments crashes (.ofMatrix rows) params) = .ok (.ofScores (rows.zipIdx.map fun r =>
      Routine.execution (Schema.elements (.ofList (params.entries?.getD [])))
        (((crashes.map Score.ofInt)[r.2]?.map Score.toInt).getD 0) r.1)) := by
  have hparams : ((executionArguments crashes (.ofMatrix rows) params).get? "params").bind Value.entries? =
      params.entries? := by
    cases params <;> rfl
  have hcrash : (executionArguments crashes (.ofMatrix rows) params).get? "crash" =
      some (.ofScores (crashes.map Score.ofInt)) := rfl
  have hmatrix : (executionArguments crashes (.ofMatrix rows) params).required "matrix" = pure (.ofMatrix rows) := rfl
  simp only [Call.execByJudge, hparams, hcrash, hmatrix, Option.map_some, Option.getD_some, Value.scores_ofScores]
  simp only [Value.ofMatrix, pure_bind]
  show Except.ok (Value.ofScores _) = Except.ok (Value.ofScores _)
  rw [List.zipIdx_map, List.map_map]
  simp only [Function.comp_def, Prod.map, Value.scores_ofScores, id]

theorem execByJudge_eq_of_alike {crashes : List Int} {rows rows' : List (List Score)}
    (h : AlikeUntil crashes rows rows') (params : Value) :
    Call.execByJudge (executionArguments crashes (.ofMatrix rows) params) =
      Call.execByJudge (executionArguments crashes (.ofMatrix rows') params) := by
  rw [execByJudge_ofMatrix, execByJudge_ofMatrix]
  refine congrArg (fun scores => Except.ok (Value.ofScores scores)) (List.ext_getElem? fun judge => ?_)
  rw [List.getElem?_map, List.getElem?_map, List.getElem?_zipIdx, List.getElem?_zipIdx]
  have hmarks := h.marks judge
  have hlength := h.length_eq
  cases hrow : rows[judge]? with
  | none =>
    rw [List.getElem?_eq_none_iff] at hrow
    have hnone : rows'[judge]? = none := List.getElem?_eq_none_iff.2 (hlength ▸ hrow)
    rw [hnone]
  | some row =>
    have hlt : judge < rows'.length := hlength ▸ (List.getElem?_eq_some_iff.1 hrow).1
    have hrow' : rows'[judge]? = some rows'[judge] := List.getElem?_eq_getElem hlt
    rw [hrow, hrow', Option.getD_some, Option.getD_some] at hmarks
    rw [hrow', Option.map_some, Option.map_some, Option.map_some, Option.map_some, Nat.zero_add]
    refine congrArg some (Routine.execution_congr fun i hi => hmarks i ?_)
    exact Routine.counts_of_lt_counted (elements_le _) hi

/-- Of the parameters execution scores see nothing but entries. -/
theorem execByJudge_entries (crashes : List Int) (matrix params : Value) :
    Call.execByJudge (executionArguments crashes matrix params) =
      Call.execByJudge (executionArguments crashes matrix (.map (params.entries?.getD []))) := by
  cases params <;> rfl

theorem execByJudge_eq {crashes : List Int} {matrix matrix' params params' : Value}
    (hmatrix : LooksAlike crashes (some matrix) (some matrix')) (hparams : params.entries? = params'.entries?) :
    Call.execByJudge (executionArguments crashes matrix params) =
      Call.execByJudge (executionArguments crashes matrix' params') := by
  rw [execByJudge_entries crashes matrix params, execByJudge_entries crashes matrix' params', hparams]
  rcases hmatrix with heq | ⟨rows, rows', hrows, hrows', halike⟩
  · rw [Option.some.inj heq]
  · rw [Option.some.inj hrows, Option.some.inj hrows']
    exact execByJudge_eq_of_alike halike _

/-! ## Contexts -/

/-- Inputs that differ in the matrix of one code only, and there in cells only that do not count. -/
structure DifferAfterCrash (crashes : List Int) (code : String) (inputs inputs' : Table Value) : Prop where
  other : ∀ k, k ≠ code → inputs.get? k = inputs'.get? k
  own : LooksAlike crashes (inputs.get? code) (inputs'.get? code)

namespace Context

/-- Two contexts over such inputs, with the same outputs under the names in question. -/
structure AlikeUntilCrash (code : String) (names : List String) (cx cx' : Context) : Prop where
  safe : Text.isSafeName code = true
  schema : cx.schema = cx'.schema
  aliases : cx.aliases = cx'.aliases
  apart : cx.aliases.get? code = none
  tracks : cx.Tracks
  tracks' : cx'.Tracks
  inputs : DifferAfterCrash (cx.crashes code) code cx.inputs cx'.inputs
  outputs : ∀ k ∈ names, cx.outputs.get? k = cx'.outputs.get? k

namespace AlikeUntilCrash

variable {code : String} {names : List String} {cx cx' : Context}

theorem crashes_eq (h : AlikeUntilCrash code names cx cx') (k : String) : cx.crashes k = cx'.crashes k := by
  have hne : crashKey k ≠ code := by
    rintro rfl
    have hnone := crashCode?_eq_none_of_isSafeName h.safe
    rw [crashCode?_crashKey] at hnone
    cases hnone
  rw [crashes, crashes, h.inputs.other _ hne]

theorem base?_eq (h : AlikeUntilCrash code names cx cx') {k : String} (hk : k ≠ code) :
    base? cx.schema cx.inputs k = base? cx'.schema cx'.inputs k := by
  rw [base?, base?, h.schema, h.inputs.other k hk]

theorem meaning_alike (h : AlikeUntilCrash code names cx cx') {k : String} (hk : k ∈ names) :
    LooksAlike (cx.crashes code) (cx.meaning k) (cx'.meaning k) := by
  rw [meaning, meaning]
  refine LooksAlike.or_left ?_ (h.outputs k hk)
  by_cases hcode : k = code
  · subst hcode
    rw [base?, base?, h.schema]
    split
    · exact .inl rfl
    · exact h.inputs.own
  · exact .inl (h.base?_eq hcode)

/-- **A name looks the same** in both contexts but for cells that do not count. -/
theorem lookup_alike (h : AlikeUntilCrash code names cx cx') {name : String} (hname : name ∈ names)
    (htarget : target cx.aliases name ∈ names) :
    LooksAlike (cx.crashes code) (cx.lookup name) (cx'.lookup name) := by
  rw [target] at htarget
  cases ha : cx.aliases.get? name with
  | none =>
    have hself : target cx.aliases name = name := by rw [target, ha, Option.getD_none]
    have hself' : target cx'.aliases name = name := by rw [← h.aliases, hself]
    rw [lookup_eq h.tracks fun hc => ?_, lookup_eq h.tracks' fun hc => ?_, hself, hself']
    · exact h.meaning_alike hname
    · rw [← h.aliases, Table.contains, ha] at hc
      cases hc
    · rw [Table.contains, ha] at hc
      cases hc
  | some c =>
    have hne : name ≠ code := by
      rintro rfl
      rw [h.apart] at ha
      cases ha
    rw [ha, Option.getD_some] at htarget
    rw [lookup, lookup, h.tracks name, h.tracks' name, ← h.aliases, ha, Option.bind_some, Option.bind_some]
    exact ((h.meaning_alike htarget).or_left (h.outputs name hname)).or_right (h.base?_eq hne)

/-- The sheet of the matrix under a name for it is the same but for cells that do not count. -/
theorem ofSource_alike (h : AlikeUntilCrash code names cx cx') (f : Function) {name : String} (hname : name ∈ names)
    (htarget : target cx.aliases name = code) (hcode : code ∈ names) :
    SourcesAlike (Sheet.ofSource cx f (.text name)) (Sheet.ofSource cx' f (.text name)) := by
  have hcanonical : cx.canonical name = cx'.canonical name := by
    rw [canonical, canonical, Table.contains, Table.contains, h.outputs name hname, h.aliases]
  have hlookup := h.lookup_alike hname (htarget ▸ hcode)
  have hcrashes := h.crashes_eq
  simp only [Sheet.ofSource, ← hcanonical, ← h.schema, ← hcrashes]
  by_cases hsafe : Text.isSafeName name = true
  · rw [if_pos hsafe, if_pos hsafe]
    cases hout : cx.outputs.get? name with
    | some v =>
      -- an output of that name counts before the matrix, and both contexts have the same one
      have hout' : cx'.outputs.get? name = some v := by rw [← h.outputs name hname, hout]
      rw [lookup, lookup, hout, hout']
      exact .inl rfl
    | none =>
      have hown : cx.canonical name = code := by
        rw [canonical, Table.contains, hout]
        exact htarget
      rw [hown]
      rcases hlookup with hlookup | ⟨rows, rows', hrows, hrows', halike⟩
      · rw [hlookup]
        exact .inl rfl
      · rw [hrows, hrows']
        simp only [Sheet.rowsOf_ofMatrix]
        exact .inr ⟨_, _, rfl, rfl, by rw [halike.widest_eq], rfl, halike⟩
  · rw [if_neg hsafe, if_neg hsafe]
    exact .inl rfl

/-- **A reduction of the matrix comes to the same**, value or error, whatever its other arguments are. -/
theorem call_eq (h : AlikeUntilCrash code names cx cx') {f : Function} (hf : f.readsSource = true) {vs : List Value}
    {kvs : List (String × Value)} {name : String} (hname : name ∈ names) (htarget : target cx.aliases name = code)
    (hcode : code ∈ names)
    (hsource : ∀ args, Arguments.bind f vs kvs = .ok args → args.given? f.sourceParameter = some (.text name)) :
    (cx.scope Dialect.compile).call f vs kvs = ((cx'.scope Dialect.compile).call f vs kvs : Result Value) := by
  show answer (Arguments.bind f vs kvs) >>= Call.run Dialect.compile cx =
    (answer (Arguments.bind f vs kvs) >>= Call.run Dialect.compile cx' : Result Value)
  rw [answer_eq]
  cases hargs : Arguments.bind f vs kvs with
  | error e => rfl
  | ok args =>
    show (Call.run Dialect.compile cx args : Result Value) = Call.run Dialect.compile cx' args
    have hgiven := Arguments.required_eq_ok_iff.2 (hsource args hargs)
    obtain rfl := (Arguments.bind_eq_ok hargs).1
    exact Call.run_eq hf hgiven (h.ofSource_alike args.function hname htarget hcode)

end AlikeUntilCrash

/-- The execution scores of a matrix: the first argument is a name for it, the crashes are those of its code. -/
def execution (name code : String) : Expr :=
  .call .execByJudge [.name name, .call .crash [.literal (.text code)] [], .name "params"] []

theorem value_execution (cx : Context) (name code : String) : cx.value (execution name code) = (do
    let matrix ← cx.value (.name name)
    let params ← cx.value (.name "params")
    Call.execByJudge (executionArguments (cx.crashes code) matrix params)) := by
  have hcrash : evaluate (cx.scope Dialect.compile) (.call .crash [.literal (.text code)] []) =
      (pure (.ofScores ((cx.crashes code).map Score.ofInt)) : Result Value) := by
    simp only [evaluate, evaluateAll, evaluateKeywords, pure_bind]
    rfl
  rw [value, execution, evaluate]
  simp only [evaluateAll, evaluateKeywords, hcrash, bind_assoc, pure_bind]
  refine bind_congr fun matrix => bind_congr fun params => ?_
  exact answer_eq (Call.execByJudge (executionArguments (cx.crashes code) matrix params))

/-- Two names that look alike may be read in the same place. -/
theorem bind_value_name_eq {cx cx' : Context} {crashes : List Int} {name : String}
    (h : LooksAlike crashes (cx.lookup name) (cx'.lookup name)) {f g : Value → Result Value}
    (hfg : ∀ v v', LooksAlike crashes (some v) (some v') → f v = g v') :
    cx.value (.name name) >>= f = cx'.value (.name name) >>= g := by
  rw [value_name, value_name]
  rcases h with heq | ⟨rows, rows', hrows, hrows', halike⟩
  · rw [heq]
    cases cx'.lookup name with
    | none => rfl
    | some v => exact hfg v v (.inl rfl)
  · rw [hrows, hrows']
    exact hfg _ _ (.inr ⟨rows, rows', rfl, rfl, halike⟩)

/-- **The execution scores of the matrix are the same**, value or error. -/
theorem AlikeUntilCrash.value_execution_eq {code : String} {names : List String} {cx cx' : Context}
    (h : AlikeUntilCrash code names cx cx') {name : String} (hname : name ∈ names)
    (htarget : target cx.aliases name ∈ names) (hparams : "params" ∈ names)
    (hparamsTarget : target cx.aliases "params" ∈ names) :
    cx.value (execution name code) = cx'.value (execution name code) := by
  rw [value_execution, value_execution, ← h.crashes_eq code]
  refine bind_value_name_eq (h.lookup_alike hname htarget) fun matrix matrix' hmatrix => ?_
  refine bind_value_name_eq (h.lookup_alike hparams hparamsTarget) fun params params' hentries => ?_
  exact execByJudge_eq hmatrix hentries.entries?_eq

end Context

/-- **Marks from a crash on change nothing**: over inputs that differ in such marks of one matrix, and with any outputs
stored that agree on the names in question, every reduction of the matrix comes to the same, and so do its execution
scores.  The source may be the matrix's code or a short name for it. -/
theorem eq_after_crash {s : Schema} {aliases : Table String} {code name : String} {inputs inputs' : Table Value}
    {l l' : List (String × Value)} {cx cx' : Context} (hcx : cx = (Context.start s inputs aliases).storeAll l)
    (hcx' : cx' = (Context.start s inputs' aliases).storeAll l') (hsafe : Text.isSafeName code = true)
    (hapart : aliases.get? code = none) (hname : target aliases name = code)
    (hinputs : DifferAfterCrash (cx.crashes code) code inputs inputs')
    (houtputs : ∀ k ∈ [name, code, "params", target aliases "params"], cx.outputs.get? k = cx'.outputs.get? k) :
    (∀ (f : Function) vs kvs, f.readsSource = true →
      (∀ args, Arguments.bind f vs kvs = .ok args → args.given? f.sourceParameter = some (.text name)) →
        (cx.scope Dialect.compile).call f vs kvs = ((cx'.scope Dialect.compile).call f vs kvs : Result Value)) ∧
      cx.value (Context.execution name code) = cx'.value (Context.execution name code) := by
  have haliases : cx.aliases = aliases := by rw [hcx, Context.storeAll_aliases]; rfl
  have h : Context.AlikeUntilCrash code [name, code, "params", target aliases "params"] cx cx' := by
    refine ⟨hsafe, ?_, ?_, haliases ▸ hapart, ?_, ?_, ?_, houtputs⟩
    · rw [hcx, hcx', Context.storeAll_schema, Context.storeAll_schema]
      rfl
    · rw [haliases, hcx', Context.storeAll_aliases]
      rfl
    · exact hcx ▸ Context.tracks_storeAll l (Context.tracks_start s inputs aliases)
    · exact hcx' ▸ Context.tracks_storeAll l' (Context.tracks_start s inputs' aliases)
    · have hin : cx.inputs = inputs := by rw [hcx, Context.storeAll_inputs]; rfl
      have hin' : cx'.inputs = inputs' := by rw [hcx', Context.storeAll_inputs]; rfl
      rwa [hin, hin']
  rw [← haliases] at hname
  refine ⟨fun f vs kvs hf hsource => h.call_eq hf (by simp) hname (by simp) hsource, ?_⟩
  exact h.value_execution_eq (by simp) (by simp [hname]) (by simp) (by simp [haliases])

theorem eq_after_crash_matrix : ∃ (s : Schema) (inputs inputs' : Table Value),
    DifferAfterCrash ((Context.start s inputs .empty).crashes "E") "E" inputs inputs' ∧
    (inputs.get? "E").map Value.leaves ≠ (inputs'.get? "E").map Value.leaves ∧
    ((Context.start s inputs .empty).scope Dialect.compile).call .rowCompute [.text "E"] [] =
      (((Context.start s inputs' .empty).scope Dialect.compile).call .rowCompute [.text "E"] [] : Result Value) ∧
    (Context.start s inputs .empty).value (Context.execution "E" "E") =
      (Context.start s inputs' .empty).value (Context.execution "E" "E") := by
  let f : Field := ⟨"E", none, some "matrix", some "judge_x_item", none, none, none, none, some ⟨some 2⟩, some true,
    none, .empty⟩
  let s : Schema := ⟨.empty, [f], [], none⟩
  let raw : Table Value := .ofList [("E", .list [.list [.number 1, .number 5]]), ("__crash__E", .list [.number 2])]
  let inputs := normalize s.fields raw
  let rows := (((raw.get? "E").getD .null).padded f.judgeCount).map fun row => (row.padded f.itemCount).map f.cell
  let inputs' := inputs.insert "E" (.ofMatrix (rows.modify 0 fun row => row.set 1 7))
  have hcrashes : (Context.start s inputs .empty).crashes "E" = [2] := by decide +kernel
  have hhidden : ¬ Counts [2] 0 1 := by
    rintro (h | h)
    · exact absurd h (by decide)
    · exact absurd h (by decide)
  have hrows : inputs.get? "E" = some (.ofMatrix rows) := by
    have hlayout : f.layout = .matrix := by decide +kernel
    rw [← f.normal_matrix hlayout]
    exact get?_normalize_code (f := f) (by decide) List.mem_cons_self (by decide) (by decide +kernel)
  have hinputs : DifferAfterCrash ((Context.start s inputs .empty).crashes "E") "E" inputs inputs' := by
    rw [hcrashes]
    refine ⟨fun k hk => (Table.get?_insert_of_ne _ _ hk).symm, .inr ⟨_, _, hrows, Table.get?_insert_self _ _ _, ?_⟩⟩
    exact .set hhidden _ _
  have hleaves : (inputs.get? "E").map Value.leaves ≠ (inputs'.get? "E").map Value.leaves := by decide +kernel
  obtain ⟨hcall, hexecution⟩ := @eq_after_crash s .empty "E" "E" inputs inputs' [] [] _ _ rfl rfl (by decide +kernel) rfl
    rfl hinputs fun _ _ => rfl
  refine ⟨s, inputs, inputs', hinputs, hleaves, hcall .rowCompute _ _ rfl fun args hargs => ?_, hexecution⟩
  rw [Arguments.given?_bind hargs (by decide)]
  rfl

end Scoresheet
