import Mathlib.Data.Fin.VecNotation
import Scoresheet.Proofs.Panels
import Scoresheet.Proofs.Windows
/-!
# Judges change seats

The total order leaves no two ways to sort the same marks, and every criterion picks by the marks alone.  So what a
criterion selects is the same in whatever order the marks come (`Criterion.select_perm`), and so is the sum of it in a
call (`selection_unordered`).  Judges that change seats, each with the deductions and the crash position entered there,
have the same marks in another order, and so the execution and the total of a trampoline sheet stay as they are
(`Trampoline.score_reseated`).
-/
namespace Scoresheet

/-! ## Selection -/

namespace Criterion

variable {xs ys : List Score}

theorem ascending_perm (h : xs.Perm ys) : ascending id xs = ascending id ys :=
  ascending_eq ⟨(sorts_ascending ys).perm.trans h.symm, (sorts_ascending ys).pairwise⟩

theorem descending_perm (h : xs.Perm ys) : descending id xs = descending id ys := by
  rw [descending_eq (sorts_ascending xs), descending_eq (sorts_ascending ys), ascending_perm h]

/-- **The marks that a criterion selects do not depend on the order in which marks are given.** -/
theorem select_perm (c : Criterion) (h : xs.Perm ys) : c.select xs = c.select ys := by
  by_cases hempty : xs = []
  · subst hempty
    rw [List.nil_perm.1 h]
  · have hempty' : ys ≠ [] := fun hnil => hempty (List.perm_nil.1 (hnil ▸ h))
    have hisEmpty : xs.isEmpty = false := by simp [hempty]
    have hisEmpty' : ys.isEmpty = false := by simp [hempty']
    cases c with
    | all count =>
      -- all marks may be picked as they come, but they are sorted before they are handed out
      have hpick : (Criterion.pick id (.all count) xs).Perm (Criterion.pick id (.all count) ys) := by
        simp only [pick, hisEmpty, hisEmpty', h.length_eq, descending_perm h]
        split
        · exact .refl _
        · split
          · exact .refl _
          · exact h
      exact descending_perm hpick
    | _ =>
      simp only [select, pick, hisEmpty, hisEmpty', h.length_eq, ascending_perm h, descending_perm h]

end Criterion

/-! ## Calls -/

theorem Value.leavesOfAll_eq_flatMap : ∀ vs : List Value, Value.leavesOfAll vs = vs.flatMap Value.leaves
  | [] => by rw [leavesOfAll, List.flatMap_nil]
  | v :: vs => by rw [leavesOfAll, List.flatMap_cons, leavesOfAll_eq_flatMap vs]

theorem Value.leavesOfAll_perm {vs ws : List Value} (h : vs.Perm ws) : (leavesOfAll vs).Perm (leavesOfAll ws) := by
  rw [leavesOfAll_eq_flatMap, leavesOfAll_eq_flatMap]
  exact h.flatMap_right leaves

namespace Arguments

variable {p q : String}

/-- The same arguments with another value in the slot of a parameter. -/
def replace (args : Arguments) (parameter : String) (v : Value) : Arguments :=
  { args with slots := args.slots.set parameter v }

theorem get?_replace_of_ne (args : Arguments) (v : Value) (h : q ≠ p) : (args.replace p v).get? q = args.get? q := by
  rw [get?, get?, given?, given?, replace, Slots.slot?_set, if_neg h]

theorem int?_replace_of_ne (args : Arguments) (v : Value) (h : q ≠ p) : (args.replace p v).int? q = args.int? q := by
  rw [int?, int?, get?_replace_of_ne args v h]

theorem textOr_replace_of_ne (args : Arguments) (v : Value) (h : q ≠ p) (default : String) :
    (args.replace p v).textOr q default = args.textOr q default := by
  rw [textOr, textOr, get?_replace_of_ne args v h]
  rfl

/-- A list that replaces an argument is given, unless there is no such parameter. -/
theorem get?_replace_list (args : Arguments) (vs : List Value) :
    (args.replace p (.list vs)).get? p = (args.slots.slot? p).map fun _ => .list vs := by
  rw [get?, given?, replace, Slots.slot?_set, if_pos rfl]
  cases args.slots.slot? p <;> rfl

end Arguments

/-- **The marks that are selected, and their sum, do not depend on the order of the judges.**  The sum is that of a call,
whatever its other arguments are. -/
theorem selection_unordered :
    (∀ (c : Criterion) {xs ys : List Score}, xs.Perm ys → c.select xs = c.select ys) ∧
    ∀ (args : Arguments) {vs ws : List Value}, vs.Perm ws →
      Call.selectSum (args.replace "scores" (.list vs)) = Call.selectSum (args.replace "scores" (.list ws)) := by
  refine ⟨fun c xs ys h => c.select_perm h, fun args vs ws h => ?_⟩
  have hcount : "n_valid" ≠ "scores" := by decide
  have hcriteria : "criteria" ≠ "scores" := by decide
  unfold Call.selectSum
  simp only [Arguments.int?_replace_of_ne _ _ hcount, Arguments.textOr_replace_of_ne _ _ hcriteria,
    Arguments.get?_replace_list]
  cases args.slots.slot? "scores" with
  | none => rfl
  | some given =>
    have hselect : ∀ c : Criterion, c.select (Value.leavesOfAll vs) = c.select (Value.leavesOfAll ws) :=
      fun c => c.select_perm (Value.leavesOfAll_perm h)
    simp only [Option.map_some, Option.getD_some, numbersOf, Value.leaves, bind, Except.bind, hselect]

theorem selection_unordered_ties : ∃ (args : Arguments) (xs ys : List Score),
    xs.Perm ys ∧ (xs.map Value.number).Perm (ys.map .number) ∧ Criterion.ascending id xs ≠ xs ∧
    (Criterion.trimToMedian (some 3)).indices xs = [3, 2, 0] ∧ (Criterion.trimToMedian (some 3)).indices ys = [0, 1, 3] ∧
    (Criterion.trimToMedian (some 3)).select xs = [.negativeZero, 0, 3] ∧
    (Criterion.trimToMedian (some 3)).select ys = [.negativeZero, 0, 3] ∧
    args.slots.slot? "scores" = some none ∧ args.int? "n_valid" = some 3 ∧
    Call.selectSum (args.replace "scores" (.ofScores xs)) = Call.selectSum (args.replace "scores" (.ofScores ys)) := by
  let args : Arguments :=
    ⟨.selectSum, [("scores", none), ("n_valid", some (.number 3)), ("criteria", some (.text "eliminar_extrems"))]⟩
  let xs : List Score := [3, .nan, 0, .negativeZero, .negativeNaN, 3]
  let ys : List Score := [.negativeZero, 0, .negativeNaN, 3, 3, .nan]
  have hperm : xs.Perm ys := by decide +kernel
  have hvalues : (xs.map Value.number).Perm (ys.map .number) := hperm.map _
  have hselect : (Criterion.trimToMedian (some 3)).select xs = [.negativeZero, 0, 3] := by decide +kernel
  obtain ⟨hcriteria, hcalls⟩ := selection_unordered
  exact ⟨args, xs, ys, hperm, hvalues, by decide +kernel, by decide +kernel, by decide +kernel, hselect,
    (hcriteria _ hperm).symm.trans hselect, rfl, by decide +kernel, hcalls args hvalues⟩

namespace Trampoline

/-! ## Panels -/

variable {t : Trampoline}

/-- The keys that hold an entry for each judge. -/
def panelKeys (t : Trampoline) : List String :=
  match t.execution with
  | some .elements => ["E", crashKey "E"]
  | some .manual => ["E_manual"]
  | none => []

/-- The judges have changed seats: the judge at a seat has entered what was entered at another one before, under all
keys of the panel.  Nothing else is different. -/
structure Reseated (t : Trampoline) (seat : Equiv.Perm (Fin t.judges)) (raw raw' : Table Value) : Prop where
  panel : ∀ k ∈ t.panelKeys, ∃ entries : Fin t.judges → Value,
    raw.get? k = some (.list (List.ofFn entries)) ∧ raw'.get? k = some (.list (List.ofFn (entries ∘ seat)))
  other : ∀ k ∉ t.panelKeys, raw.get? k = raw'.get? k

/-- Up to ten judges are all seated. -/
theorem judgeCount_eq (h : 1 ≤ t.judges ∧ t.judges ≤ 10) :
    t.deductionField.judgeCount = t.judges ∧ t.manualField.judgeCount = t.judges := by
  have hpanel : t.panel = t.judges := by unfold panel; omega
  have hwhole : Count.whole (count t.panel) = t.judges := by
    rw [hpanel]
    exact Score.toInt_ofNat (by omega)
  have hcount : ∀ f : Field, f.judges = count t.panel → f.judgeCount = t.judges := by
    intro f hf
    unfold Field.judgeCount maxJudges
    rw [hf, hwhole]
    dsimp only
    split <;> omega
  exact ⟨hcount _ rfl, hcount _ rfl⟩

theorem zipWith_ofFn {α β γ : Type} (f : α → β → γ) : ∀ {n : Nat} (as : Fin n → α) (bs : Fin n → β),
    List.zipWith f (List.ofFn as) (List.ofFn bs) = List.ofFn fun i => f (as i) (bs i) := by
  intro n as bs
  refine List.ext_getElem (by simp) fun i hi hi' => ?_
  simp

theorem Reseated.executionMarks_perm {seat : Equiv.Perm (Fin t.judges)} {raw raw' : Table Value}
    (h : t.Reseated seat raw raw') (hjudges : 1 ≤ t.judges ∧ t.judges ≤ 10) :
    (t.executionMarks raw').Perm (t.executionMarks raw) := by
  obtain ⟨hdeductions, hmanual⟩ := judgeCount_eq hjudges
  have hpanel := h.panel
  unfold executionMarks
  unfold panelKeys at hpanel
  rcases hmode : t.execution with _ | _ | _
  · exact .refl _
  · rw [hmode] at hpanel
    obtain ⟨deductions, hE, hE'⟩ := hpanel "E" (by simp)
    obtain ⟨crashes, hcrash, hcrash'⟩ := hpanel (crashKey "E") (by simp)
    simp only [given, hE, hE', hcrash, hcrash', Option.getD_some, hdeductions]
    rw [Value.padded_list (List.length_ofFn), Value.padded_list (List.length_ofFn), Value.padded_list (List.length_ofFn),
      Value.padded_list (List.length_ofFn), zipWith_ofFn, zipWith_ofFn]
    exact seat.ofFn_comp_perm fun i => t.judgeMark (deductions i) (crashes i)
  · rw [hmode] at hpanel
    obtain ⟨marks, hmarks, hmarks'⟩ := hpanel "E_manual" (by simp)
    simp only [given, hmarks, hmarks', Option.getD_some, hmanual]
    rw [Value.padded_list (List.length_ofFn), Value.padded_list (List.length_ofFn)]
    exact (seat.ofFn_comp_perm marks).map _

theorem Reseated.mark_eq {seat : Equiv.Perm (Fin t.judges)} {raw raw' : Table Value} (h : t.Reseated seat raw raw')
    (hjudges : 1 ≤ t.judges ∧ t.judges ≤ 10) (c : Criterion) {part : String}
    (hpart : part ∈ partNames ++ ["P"]) : t.mark c raw' part = t.mark c raw part := by
  unfold mark
  split
  · rw [c.select_perm (h.executionMarks_perm hjudges)]
  · rename_i hne
    have hother : part ∉ t.panelKeys := by
      have hapart : ∀ part ∈ partNames ++ ["P"], part ∉ ["E", crashKey "E", "E_manual"] := by decide
      unfold panelKeys
      rcases t.execution with _ | _ | _
      · simp
      · exact fun hmem => hapart part hpart (by simp_all)
      · exact fun hmem => hapart part hpart (by simp_all)
    rw [given, given, h.other part hother]

/-- **Judges are interchangeable**: where they change seats, execution and total stay as they are, bit for bit. -/
theorem score_reseated (t : Trampoline) (hjudges : 1 ≤ t.judges ∧ t.judges ≤ 10) (hmode : t.execution.isSome = true)
    {count : Option Int} {c : Criterion} (hc : Criterion.ofName t.criteria count = .ok c)
    {seat : Equiv.Perm (Fin t.judges)} {raw raw' : Table Value} (h : t.Reseated seat raw raw') :
    ∃ sc o o' execution, Scorer.ofSchema t.schema = .ok sc ∧ sc.score raw = .ok o ∧ sc.score raw' = .ok o' ∧
      o.outputs.get? "E_total" = some (.number execution) ∧ o'.outputs.get? "E_total" = some (.number execution) ∧
      o'.total = o.total := by
  obtain ⟨c', hc'⟩ := Criterion.exists_ofName hc t.validCount
  obtain ⟨o, hscore, hadds⟩ := exists_adds hc' raw
  obtain ⟨o', hscore', hadds'⟩ := exists_adds hc' raw'
  have hexecution := hadds'.execution hmode
  rw [h.mark_eq hjudges c' (by decide)] at hexecution
  have htotal : t.totalOf (t.mark c' raw') = t.totalOf (t.mark c' raw) := by
    have hparts : t.parts.map (t.mark c' raw') = t.parts.map (t.mark c' raw) :=
      List.map_congr_left fun part hpart => h.mark_eq hjudges c' (List.mem_append_left _ (mem_partNames hpart))
    unfold totalOf
    rw [hparts, h.mark_eq hjudges c' (by decide)]
  refine ⟨_, o, o', _, t.ofSchema_schema, hscore, hscore', hadds.execution hmode, hexecution, ?_⟩
  rw [hadds.total, hadds'.total, htotal]

theorem score_reseated_swap : ∃ (t : Trampoline) (seat : Equiv.Perm (Fin t.judges)) (raw raw' : Table Value),
    (1 ≤ t.judges ∧ t.judges ≤ 10) ∧ t.execution.isSome = true ∧
    Criterion.ofName t.criteria none = .ok (.all none) ∧ t.Reseated seat raw raw' ∧
    t.executionMarks raw' ≠ t.executionMarks raw ∧
    ∃ sc o o' execution, Scorer.ofSchema t.schema = .ok sc ∧ sc.score raw = .ok o ∧ sc.score raw' = .ok o' ∧
      o.outputs.get? "E_total" = some (.number execution) ∧ o'.outputs.get? "E_total" = some (.number execution) ∧
      o'.total = o.total := by
  let t : Trampoline := {}
  let seat : Equiv.Perm (Fin 3) := Equiv.swap 0 1
  let deductions : Fin 3 → Value := ![.list [.number 3], .list [.number 1, .number 2], .null]
  let crashes : Fin 3 → Value := ![.number 0, .number 2, .text "none"]
  let raw : Table Value :=
    .ofList [("E", .list (List.ofFn deductions)), (crashKey "E", .list (List.ofFn crashes))]
  let raw' : Table Value :=
    .ofList [("E", .list (List.ofFn (deductions ∘ seat))), (crashKey "E", .list (List.ofFn (crashes ∘ seat)))]
  have hname : Criterion.ofName t.criteria none = .ok (.all none) := by decide +kernel
  have hkeys : crashKey "E" ≠ "E" := by decide
  have hreseated : t.Reseated seat raw raw' := by
    constructor
    · intro k hk
      rcases List.mem_cons.1 hk with rfl | hk
      · exact ⟨deductions, by simp [raw, Table.ofList, Table.get?_insert, hkeys.symm],
          by simp [raw', Table.ofList, Table.get?_insert, hkeys.symm]⟩
      · rw [List.mem_singleton.1 hk]
        exact ⟨crashes, Table.get?_insert_self _ _ _, Table.get?_insert_self _ _ _⟩
    · intro k hk
      have hk : k ≠ "E" ∧ k ≠ crashKey "E" := by simpa [panelKeys, t] using hk
      simp [raw, raw', Table.ofList, Table.get?_insert, hk]
  have hmoved : t.executionMarks raw' ≠ t.executionMarks raw := by decide +kernel
  exact ⟨t, seat, raw, raw', by decide, rfl, hname, hreseated, hmoved,
    score_reseated t (by decide) rfl hname hreseated⟩

end Trampoline
end Scoresheet
