import Scoresheet.Proofs.Canonical
import Scoresheet.Proofs.Crashing
import Scoresheet.Proofs.Trampolines
/-!
# What a trampoline sheet comes to

A sheet of a trampoline schema always has a total, whatever was entered (`score_schema`).  Every formula of the schema
is evaluated on names that stand for numbers or lists of numbers, so none of them can fail: the marks of the judges for
execution (`executionMarks`), the sum of those that the criterion selects, and the total of the parts.
-/
namespace Scoresheet

/-- What a criterion's name is accepted with does not matter, as long as it is a count. -/
theorem Criterion.exists_ofName {name : String} {count : Option Int} {c : Criterion} (h : ofName name count = .ok c)
    (k : Int) : ∃ c', ofName name (some k) = .ok c' := by
  unfold ofName at h ⊢
  split at h
  all_goals first
    | exact ⟨_, rfl⟩
    | cases h

/-- A crash position that is stored as a number is read back. -/
theorem Field.toInt_crashPositions (f : Field) (v : Value) :
    ((f.crashPositions v).map Score.ofInt).map Score.toInt = f.crashPositions v := by
  rw [List.map_map]
  refine (List.map_congr_left fun n hn => ?_).trans (List.map_id _)
  obtain ⟨w, -, rfl⟩ := List.mem_map.1 hn
  obtain ⟨hzero, hitems⟩ := f.crashPosition_bounds w
  have hmax := f.itemCount_le
  unfold maxItems at hmax
  exact Score.toInt_ofInt hzero (by omega)

/-! ## Expressions that do not fail -/

namespace Context

theorem value_binary (cx : Context) (op : BinaryOp) (l r : Expr) : cx.value (.binary op l r) = (do
    let a ← cx.value l
    let b ← cx.value r
    op.apply a b) := by
  rw [value, evaluate]
  exact bind_congr fun a => bind_congr fun b => answer_eq _

theorem value_subscript (cx : Context) (base index : Expr) : cx.value (.subscript base index) = (do
    let v ← cx.value base
    let i ← cx.value index
    v.subscript i) := by
  rw [value, evaluate]
  exact bind_congr fun v => bind_congr fun i => answer_eq _

theorem value_of_lookup {cx : Context} {name : String} {v : Value} (h : cx.lookup name = some v) :
    cx.value (.name name) = .ok v := by
  rw [value_name, h]

def selectionArguments (marks count criteria : Value) : Arguments :=
  ⟨.selectSum, [("scores", some marks), ("n_valid", some count), ("criteria", some criteria)]⟩

/-- A call without keywords, once its arguments are evaluated and bound. -/
theorem value_call {cx : Context} {f : Function} {ps : List Expr} {vs : List Value} {args : Arguments}
    (hps : evaluateAll (cx.scope Dialect.compile) ps = .ok vs) (hbind : Arguments.bind f vs [] = .ok args) :
    cx.value (.call f ps []) = Call.run Dialect.compile cx args := by
  rw [value, evaluate, hps, evaluateKeywords]
  show (answer (Arguments.bind f vs []) >>= Call.run Dialect.compile cx : Result Value) = _
  rw [hbind]
  rfl

theorem value_selectSum {cx : Context} {marks count criteria : Expr} {v n c : Value} (hmarks : cx.value marks = .ok v)
    (hcount : cx.value count = .ok n) (hcriteria : cx.value criteria = .ok c) :
    cx.value (.call .selectSum [marks, count, criteria] []) = Call.selectSum (selectionArguments v n c) := by
  have hps : evaluateAll (cx.scope Dialect.compile) [marks, count, criteria] = .ok [v, n, c] := by
    rw [value] at hmarks hcount hcriteria
    simp only [evaluateAll, hmarks, hcount, hcriteria]
    rfl
  rw [value_call hps rfl]
  exact answer_eq _

/-- A name means an output, or else the parameters or an input, where there are no short names. -/
theorem lookup_storeAll (schema : Schema) (inputs : Table Value) (l : List (String × Value)) (name : String) :
    ((start schema inputs .empty).storeAll l).lookup name =
      (((start schema inputs .empty).storeAll l).outputs.get? name).or (base? schema inputs name) := by
  have htracks := tracks_storeAll l (tracks_start schema inputs .empty)
  rw [lookup_eq htracks fun hshort => by rw [storeAll_aliases] at hshort; cases hshort]
  rw [meaning, storeAll_aliases, storeAll_schema, storeAll_inputs]
  rfl

end Context

/-! ## Calls on scores -/

theorem numbersOf_ofScores (f : Function) (xs : List Score) : numbersOf f (.ofScores xs) = .ok xs := by
  have hleaves : ∀ xs : List Score, Value.leavesOfAll (xs.map .number) = xs := by
    intro xs
    induction xs with
    | nil => rfl
    | cons x xs ih =>
      rw [List.map_cons, Value.leavesOfAll, ih]
      rfl
  show Except.ok (Value.leavesOfAll _) = _
  rw [hleaves]

theorem Call.selectSum_ofScores (xs : List Score) {count : Value} (hcount : count.isNull = false) (name : String) :
    selectSum (Context.selectionArguments (.ofScores xs) count (.text name)) = (do
      let c ← (Criterion.ofName name (some (if count.toInt = 0 then 1 else count.toInt))).mapError .selection
      return .number (Score.sum (c.select xs))) := by
  have hmarks : ((Context.selectionArguments (.ofScores xs) count (.text name)).get? "scores").getD .null =
      .ofScores xs := rfl
  have hname : (Context.selectionArguments (.ofScores xs) count (.text name)).textOr "criteria" "totes" = .ok name := rfl
  have hgiven : (Context.selectionArguments (.ofScores xs) count (.text name)).int? "n_valid" = some count.toInt := by
    show ((some count).filter fun v => !v.isNull).map Value.toInt = _
    simp [Option.filter, hcount]
  have hasked : ((some count.toInt).filter fun k => k != 0).getD 1 = if count.toInt = 0 then 1 else count.toInt := by
    by_cases h : count.toInt = 0 <;> simp [h, Option.filter]
  simp only [selectSum, hmarks, hname, hgiven, hasked, numbersOf_ofScores, bind, Except.bind]

namespace Trampoline

open Context

/-! ## Marks -/

/-- The marks added up from the left; zero where there are none. -/
def addUp : List Score → Score
  | [] => 0
  | x :: xs => xs.foldl (· + ·) x

/-- The raw input under a key. -/
def given (raw : Table Value) (key : String) : Value := (raw.get? key).getD .null

/-- The execution mark of a judge, from the deductions and the crash position that the judge entered. -/
def judgeMark (t : Trampoline) (deductions crash : Value) : Score :=
  Routine.execution (Schema.elements t.schema.params) (t.deductionField.crashPosition crash)
    ((deductions.padded t.deductionField.itemCount).map t.deductionField.cell)

/-- The marks for execution, one for each judge. -/
def executionMarks (t : Trampoline) (raw : Table Value) : List Score :=
  match t.execution with
  | some .elements =>
    List.zipWith t.judgeMark ((given raw "E").padded t.deductionField.judgeCount)
      ((given raw (crashKey "E")).padded t.deductionField.judgeCount)
  | some .manual => ((given raw "E_manual").padded t.manualField.judgeCount).map t.manualField.cell
  | none => []

def validCount (t : Trampoline) : Int :=
  let n := (Score.ofNat (min t.valid t.panel)).toInt
  if n = 0 then 1 else n

/-- The mark of a part of the total. -/
def mark (t : Trampoline) (c : Criterion) (raw : Table Value) (part : String) : Score :=
  if part = "E_total" then Score.sum (c.select (t.executionMarks raw)) else (given raw part).toScore

/-- The parts added up, less the penalty. -/
def totalOf (t : Trampoline) (marks : String → Score) : Score :=
  if t.penalty then addUp (t.parts.map marks) - marks "P" else addUp (t.parts.map marks)

/-! ## Formulas -/

variable {t : Trampoline} {cx : Context}

theorem value_setting {entries : List (String × Value)} {key : String} {v : Value}
    (h : cx.lookup "params" = some (.map entries)) (hv : Table.find? key entries = some v) :
    cx.value (settingTree key) = .ok v := by
  have hkey : cx.value (.literal (.text key)) = .ok (.text key) := by
    rw [value, evaluate]
    rfl
  rw [settingTree, value_subscript, value_of_lookup h, hkey]
  simp only [bind, Except.bind, Value.subscript, Value.part?, hv]

theorem find?_params (t : Trampoline) :
    Table.find? "n_valid" t.schema.params.entries = some (.number (Score.ofNat (min t.valid t.panel))) ∧
      Table.find? "criteria" t.schema.params.entries = some (.text t.criteria) := by
  constructor
  · show t.schema.params.get? "n_valid" = _
    simp [schema, Table.ofList, Table.get?_insert]
  · show t.schema.params.get? "criteria" = _
    simp [schema, Table.ofList, Table.get?_insert]

theorem value_selection {c : Criterion} (hc : Criterion.ofName t.criteria (some t.validCount) = .ok c)
    (hparams : cx.lookup "params" = some (.map t.schema.params.entries)) {marks : String} {xs : List Score}
    (hmarks : cx.lookup marks = some (.ofScores xs)) :
    cx.value (selectionTree marks) = .ok (.number (Score.sum (c.select xs))) := by
  obtain ⟨hvalid, hcriteria⟩ := t.find?_params
  rw [selectionTree, value_selectSum (value_of_lookup hmarks) (value_setting hparams hvalid)
    (value_setting hparams hcriteria), Call.selectSum_ofScores xs rfl]
  have hcount : Criterion.ofName t.criteria (some (if (Value.number (Score.ofNat (min t.valid t.panel))).toInt = 0 then 1
      else (Value.number (Score.ofNat (min t.valid t.panel))).toInt)) = .ok c := hc
  rw [hcount]
  rfl

theorem value_sum {marks : String → Score} {parts : List String}
    (h : ∀ part ∈ parts, cx.lookup part = some (.number (marks part))) :
    cx.value (sumTree parts) = .ok (.number (addUp (parts.map marks))) := by
  have hadded : ∀ (parts : List String) (e : Expr) (x : Score),
      (∀ part ∈ parts, cx.lookup part = some (.number (marks part))) → cx.value e = .ok (.number x) →
        cx.value (parts.foldl (fun e part => .binary .add e (.name part)) e) =
          .ok (.number ((parts.map marks).foldl (· + ·) x)) := by
    intro parts
    induction parts with
    | nil => exact fun e x _ he => he
    | cons part parts ih =>
      intro e x h he
      obtain ⟨hpart, hparts⟩ := List.forall_mem_cons.1 h
      refine ih _ _ hparts ?_
      rw [value_binary, he, value_of_lookup hpart]
      rfl
  cases parts with
  | nil =>
    rw [sumTree, value, evaluate]
    rfl
  | cons part parts =>
    obtain ⟨hpart, hparts⟩ := List.forall_mem_cons.1 h
    exact hadded parts _ _ hparts (value_of_lookup hpart)

theorem value_total {marks : String → Score} (h : ∀ part ∈ t.parts, cx.lookup part = some (.number (marks part)))
    (hpenalty : t.penalty = true → cx.lookup "P" = some (.number (marks "P"))) :
    cx.value t.totalTree = .ok (.number (t.totalOf marks)) := by
  unfold totalTree totalOf
  split
  · rename_i hp
    rw [value_binary, value_sum h, value_of_lookup (hpenalty hp)]
    rfl
  · exact value_sum h

/-! ## Inputs -/

theorem apart_fields (t : Trampoline) : Apart t.schema.fields where
  codes := (List.nodup_append.1 t.allFree_codes.nodup).1
  crashKeys f hf g hg heq := by
    have hsafe : ∀ t ∈ skeletons, ∀ code ∈ t.schema.codes, Text.isSafeName code = true := by decide +kernel
    have hcode : f.code ∈ t.skeleton.schema.codes := by
      rw [codes_skeleton]
      exact List.mem_append_left _ (List.mem_map_of_mem hf)
    have hinternal := Text.isInternal_of_isSafeName (hsafe t.skeleton t.skeleton_mem _ hcode)
    rw [heq, isInternal_crashKey] at hinternal
    cases hinternal

/-- The input of a field is what was entered, in the form of the field. -/
theorem get?_inputs {f : Field} (hf : f ∈ t.schema.fields) (raw : Table Value) :
    (normalize t.schema.fields raw).get? f.code = some (f.normal (given raw f.code)) := by
  have hmem : f.code ∈ t.schema.codes := List.mem_append_left _ (List.mem_map_of_mem hf)
  have hempty := Text.isEmpty_of_isIdentifier (t.allFree_codes.free f.code hmem).1
  exact t.apart_fields.get?_code raw hf hempty

theorem get?_addition {raw : Table Value} {part : String} (hpart : part ∈ t.additions.map (·.1)) :
    (normalize t.schema.fields raw).get? part = some (.number (given raw part).toScore) := by
  obtain ⟨a, ha, rfl⟩ := List.mem_map.1 hpart
  have hmem : numberField a.1 a.2 ∈ t.schema.fields :=
    List.mem_append_left _ (List.mem_append_right _ (List.mem_map_of_mem ha))
  exact get?_inputs hmem raw

theorem get?_penalty {raw : Table Value} (hpenalty : t.penalty = true) :
    (normalize t.schema.fields raw).get? "P" = some (.number (given raw "P").toScore) := by
  have hmem : numberField "P" "Penalty" ∈ t.schema.fields :=
    List.mem_append_right _ (by rw [if_pos hpenalty]; exact List.mem_singleton_self _)
  exact get?_inputs hmem raw

theorem get?_manual {raw : Table Value} (hmode : t.execution = some .manual) :
    (normalize t.schema.fields raw).get? "E_manual" = some (.ofScores (t.executionMarks raw)) := by
  have hmem : t.manualField ∈ t.schema.fields := by simp [schema, executionFields, hmode]
  have hinput : (normalize t.schema.fields raw).get? "E_manual" = some (t.manualField.normal (given raw "E_manual")) :=
    get?_inputs hmem raw
  rw [hinput, executionMarks, hmode]
  rfl

theorem get?_deductions {raw : Table Value} (hmode : t.execution = some .elements) :
    (normalize t.schema.fields raw).get? "E" = some (.ofMatrix (((given raw "E").padded t.deductionField.judgeCount).map
      fun row => (row.padded t.deductionField.itemCount).map t.deductionField.cell)) := by
  have hmem : t.deductionField ∈ t.schema.fields := by simp [schema, executionFields, hmode]
  have hinput : (normalize t.schema.fields raw).get? "E" = some (t.deductionField.normal (given raw "E")) :=
    get?_inputs hmem raw
  rw [hinput, Field.normal_matrix rfl]

theorem crashes_eq {raw : Table Value} (hmode : t.execution = some .elements)
    (hcx : cx.inputs = normalize t.schema.fields raw) :
    cx.crashes "E" = t.deductionField.crashPositions (given raw (crashKey "E")) := by
  have hmem : t.deductionField ∈ t.schema.fields := by simp [schema, executionFields, hmode]
  have hinput : (normalize t.schema.fields raw).get? (crashKey "E") =
      some (.ofScores ((t.deductionField.crashPositions (given raw (crashKey "E"))).map Score.ofInt)) :=
    t.apart_fields.get?_crashKey raw hmem rfl rfl
  rw [crashes, hcx, hinput]
  have hstored := t.deductionField.toInt_crashPositions (given raw (crashKey "E"))
  rw [List.map_map] at hstored
  simp only [Value.ofScores, Value.items, List.map_map]
  exact hstored

theorem value_scores {raw : Table Value} (hmode : t.execution = some .elements)
    (hcx : cx.inputs = normalize t.schema.fields raw) (hE : cx.lookup "E" = (normalize t.schema.fields raw).get? "E")
    (hparams : cx.lookup "params" = some (.map t.schema.params.entries)) :
    cx.value scoresTree = .ok (.ofScores (t.executionMarks raw)) := by
  rw [get?_deductions hmode] at hE
  have htree : scoresTree = Context.execution "E" "E" := rfl
  have hentries : Table.ofList t.schema.params.entries = t.schema.params := Table.ofList_eq t.schema.params.sorted
  rw [htree, value_execution, value_of_lookup hE, value_of_lookup hparams, crashes_eq hmode hcx]
  refine (execByJudge_ofMatrix _ _ _).trans (congrArg (fun xs => Except.ok (Value.ofScores xs)) ?_)
  simp only [Value.entries?, Option.getD_some, hentries, ← List.getElem?_map, Field.toInt_crashPositions]
  rw [executionMarks, hmode]
  refine List.ext_getElem? fun judge => ?_
  simp only [List.getElem?_map, List.getElem?_zipIdx, List.getElem?_zipWith, Field.crashPositions]
  by_cases hjudge : judge < t.deductionField.judgeCount
  · simp [hjudge, judgeMark, Value.padded]
  · simp [hjudge, Value.padded]

/-! ## Sheets -/

def executionOutputs (t : Trampoline) (c : Criterion) (raw : Table Value) : List (String × Value) :=
  match t.execution with
  | some .elements =>
    [("E_j", .ofScores (t.executionMarks raw)), ("E_total", .number (t.mark c raw "E_total"))]
  | some .manual => [("E_total", .number (t.mark c raw "E_total"))]
  | none => []

def begin (t : Trampoline) (raw : Table Value) : Context :=
  start t.schema (normalize t.schema.fields raw) .empty

/-- An input stands for itself until there is an output of its name. -/
theorem lookup_input {raw : Table Value} {l : List (String × Value)} {name : String} (hname : name ∉ l.map Prod.fst)
    (hparams : name ≠ "params") :
    ((t.begin raw).storeAll l).lookup name = (normalize t.schema.fields raw).get? name := by
  rw [begin, lookup_storeAll, outputs_storeAll_of_notMem l _ hname, base?, if_neg hparams]
  rfl

theorem lookup_params {raw : Table Value} {l : List (String × Value)} (h : "params" ∉ l.map Prod.fst) :
    ((t.begin raw).storeAll l).lookup "params" = some (.map t.schema.params.entries) := by
  rw [begin, lookup_storeAll, outputs_storeAll_of_notMem l _ h]
  rfl

theorem lookup_output {raw : Table Value} {l : List (String × Value)} {name : String} {v : Value}
    (hnodup : (l.map Prod.fst).Nodup) (h : (name, v) ∈ l) : ((t.begin raw).storeAll l).lookup name = some v := by
  rw [begin, lookup_storeAll, outputs_storeAll_of_mem l _ hnodup h]
  rfl

theorem runs_execution {c : Criterion} (hc : Criterion.ofName t.criteria (some t.validCount) = .ok c)
    (raw : Table Value) :
    Scorer.Runs (t.begin raw) t.executionNodes ((t.begin raw).storeAll (t.executionOutputs c raw)) := by
  unfold executionNodes executionOutputs
  have hstart : (t.begin raw).storeAll [] = t.begin raw := rfl
  cases hmode : t.execution with
  | none => exact Scorer.runs_nil.2 rfl
  | some mode =>
    cases mode with
    | elements =>
      have hE : (t.begin raw).lookup "E" = (normalize t.schema.fields raw).get? "E" :=
        @lookup_input t raw [] "E" (by decide) (by decide)
      have hparams : (t.begin raw).lookup "params" = some (.map t.schema.params.entries) :=
        @lookup_params t raw [] (by decide)
      have hscores := value_scores hmode rfl hE hparams
      have hmarks : ((t.begin raw).storeAll [("E_j", .ofScores (t.executionMarks raw))]).lookup "E_j" =
          some (.ofScores (t.executionMarks raw)) := lookup_output (by simp) (by simp)
      have hselection := value_selection hc (lookup_params (by simp)) hmarks
      exact Scorer.runs_cons.2 ⟨_, hscores, Scorer.runs_cons.2 ⟨_, hselection, Scorer.runs_nil.2 rfl⟩⟩
    | manual =>
      have hmarks : (t.begin raw).lookup "E_manual" = (normalize t.schema.fields raw).get? "E_manual" :=
        @lookup_input t raw [] "E_manual" (by decide) (by decide)
      have hparams : (t.begin raw).lookup "params" = some (.map t.schema.params.entries) :=
        @lookup_params t raw [] (by decide)
      rw [get?_manual hmode] at hmarks
      have hselection := value_selection hc hparams hmarks
      exact Scorer.runs_cons.2 ⟨_, hselection, Scorer.runs_nil.2 rfl⟩

/-- The outputs for execution are under two names that no field has. -/
theorem keys_executionOutputs (t : Trampoline) (c : Criterion) (raw : Table Value) :
    ((t.executionOutputs c raw).map Prod.fst).Sublist ["E_j", "E_total"] := by
  unfold executionOutputs
  cases t.execution with
  | none => exact List.nil_sublist _
  | some mode =>
    cases mode with
    | elements => exact .refl _
    | manual => exact .cons _ (.refl _)

theorem mem_executionOutputs (c : Criterion) (raw : Table Value) (h : t.execution.isSome = true) :
    ("E_total", .number (t.mark c raw "E_total")) ∈ t.executionOutputs c raw := by
  unfold executionOutputs
  rcases hmode : t.execution with _ | _ | _
  · rw [hmode] at h
    cases h
  · simp
  · simp

theorem value_total_storeAll (c : Criterion) (raw : Table Value) :
    ((t.begin raw).storeAll (t.executionOutputs c raw)).value t.totalTree =
      .ok (.number (t.totalOf (t.mark c raw))) := by
  have hkeys := t.keys_executionOutputs c raw
  -- nothing has been stored under the name of an input that the total reads
  have hinput : ∀ name ∈ additionNames ++ ["P"], t.mark c raw name = (given raw name).toScore ∧
      ((t.begin raw).storeAll (t.executionOutputs c raw)).lookup name =
        (normalize t.schema.fields raw).get? name := by
    intro name hname
    have hapart : ∀ name ∈ additionNames ++ ["P"], name ∉ ["E_j", "E_total"] ∧ name ≠ "params" ∧ name ≠ "E_total" := by
      decide
    obtain ⟨hnot, hparams, htotal⟩ := hapart name hname
    exact ⟨if_neg htotal, lookup_input (fun hmem => hnot (hkeys.subset hmem)) hparams⟩
  refine value_total (fun part hpart => ?_) fun hpenalty => ?_
  · rcases mem_parts hpart with ⟨hsome, rfl⟩ | hpart
    · exact lookup_output (hkeys.nodup (by decide)) (mem_executionOutputs c raw hsome)
    · obtain ⟨hmark, hlookup⟩ := hinput part (List.mem_append_left _ (mem_additionNames hpart))
      rw [hlookup, hmark, get?_addition hpart]
  · obtain ⟨hmark, hlookup⟩ := hinput "P" (by decide)
    rw [hlookup, hmark, get?_penalty hpenalty]

def outputs (t : Trampoline) (c : Criterion) (raw : Table Value) : List (String × Value) :=
  t.executionOutputs c raw ++ [("TOTAL", .number (t.totalOf (t.mark c raw)))]

theorem get?_outputs {c : Criterion} {raw : Table Value} {name : String} {v : Value} (h : (name, v) ∈ t.outputs c raw) :
    ((t.begin raw).storeAll (t.outputs c raw)).outputs.get? name = some v := by
  have hkeys : ((t.outputs c raw).map Prod.fst).Sublist ["E_j", "E_total", "TOTAL"] := by
    rw [outputs, List.map_append]
    exact (t.keys_executionOutputs c raw).append (.refl ["TOTAL"])
  exact outputs_storeAll_of_mem _ _ (hkeys.nodup (by decide)) h

/-- **No formula fails.** -/
theorem runs_nodes {c : Criterion} (hc : Criterion.ofName t.criteria (some t.validCount) = .ok c) (raw : Table Value) :
    Scorer.Runs (t.begin raw) t.nodes ((t.begin raw).storeAll (t.outputs c raw)) := by
  have hstore : (t.begin raw).storeAll (t.outputs c raw) =
      ((t.begin raw).storeAll (t.executionOutputs c raw)).store "TOTAL" (.number (t.totalOf (t.mark c raw))) := by
    simp only [outputs, storeAll, List.foldl_append, List.foldl_cons, List.foldl_nil]
  rw [hstore]
  exact Scorer.runs_append.2 ⟨_, runs_execution hc raw,
    Scorer.runs_cons.2 ⟨_, value_total_storeAll c raw, Scorer.runs_nil.2 rfl⟩⟩

/-- The marks of a sheet: those of the parts are outputs or inputs, and the total is what they come to. -/
structure Adds (t : Trampoline) (raw : Table Value) (o : Outcome) (marks : String → Score) : Prop where
  inputs : o.inputs = normalize t.schema.fields raw
  execution : t.execution.isSome = true → o.outputs.get? "E_total" = some (.number (marks "E_total"))
  addition : ∀ part ∈ t.additions.map (·.1), o.inputs.get? part = some (.number (marks part))
  penalty : t.penalty = true → o.inputs.get? "P" = some (.number (marks "P"))
  total : o.total = t.totalOf marks

theorem exists_adds {c : Criterion} (hc : Criterion.ofName t.criteria (some t.validCount) = .ok c) (raw : Table Value) :
    ∃ o, (⟨t.schema, .empty, t.nodes⟩ : Scorer).score raw = .ok o ∧ t.Adds raw o (t.mark c raw) := by
  refine ⟨_, Scorer.score_eq_ok_iff.2 ⟨_, runs_nodes hc raw, rfl⟩, rfl, ?_, ?_, ?_, ?_⟩
  · intro hsome
    exact get?_outputs (List.mem_append_left _ (mem_executionOutputs c raw hsome))
  · intro part hpart
    have hne : part ≠ "E_total" := by
      rintro rfl
      exact absurd (mem_additionNames hpart) (by decide)
    rw [mark, if_neg hne]
    exact get?_addition hpart
  · intro hpenalty
    exact get?_penalty hpenalty
  · have htotal : ("TOTAL", .number (t.totalOf (t.mark c raw))) ∈ t.outputs c raw :=
      List.mem_append_right _ (List.mem_singleton_self _)
    rw [Scorer.total, get?_outputs htotal]
    rfl

/-- **A trampoline schema always works**: the linter accepts it, it has a scorer, and every sheet has a total, which is
the sum of its parts less the penalty. -/
theorem score_schema (t : Trampoline) {count : Option Int} {c : Criterion}
    (h : Criterion.ofName t.criteria count = .ok c) : lint t.schema = [] ∧ ∃ sc, Scorer.ofSchema t.schema = .ok sc ∧
      ∀ raw, ∃ o marks, sc.score raw = .ok o ∧ t.Adds raw o marks := by
  obtain ⟨c', hc'⟩ := Criterion.exists_ofName h t.validCount
  refine ⟨t.lint_schema, _, t.ofSchema_schema, fun raw => ?_⟩
  obtain ⟨o, hscore, hadds⟩ := exists_adds hc' raw
  exact ⟨o, _, hscore, hadds⟩

theorem score_schema_default : Criterion.ofName ({} : Trampoline).criteria none = .ok (.all none) ∧
    lint ({} : Trampoline).schema = [] ∧ ∃ sc, Scorer.ofSchema ({} : Trampoline).schema = .ok sc ∧
      ∀ raw, ∃ o marks, sc.score raw = .ok o ∧ ({} : Trampoline).Adds raw o marks := by
  have hname : Criterion.ofName ({} : Trampoline).criteria none = .ok (.all none) := by decide +kernel
  exact ⟨hname, score_schema {} hname⟩

end Trampoline
end Scoresheet
