import Scoresheet.Command
import Scoresheet.Proofs.Linting
import Scoresheet.Proofs.Running
/-!
# The linter is at least as strict as the scorer

A schema without problems has a scorer, and the scorer's plan holds every computed entry exactly once.  So a schema
file that `validate` passes is never the reason why `order` or `compute` ends with the status for unfit schemas.  That
holds whatever reads command lines and documents, as long as it is the same for both.
-/
namespace Scoresheet

/-! ## Commands -/

namespace Command

variable {h h' : Host} {path : String}

/-- A file that reads the same holds the same document for the same toolkit. -/
theorem document_congr (htools : h'.toToolkit = h.toToolkit) (hread : h'.read path = h.read path) :
    document h' path = document h path := by
  rw [document, document, hread, htools]

theorem schema_congr (htools : h'.toToolkit = h.toToolkit) (hread : h'.read path = h.read path) :
    schema h' path = schema h path := by
  rw [schema, schema, document_congr htools hread]

/-- Only a schema without problems is validated with success. -/
theorem lint_of_validate {s : Settings} (hstatus : (perform h s (.validate path)).status = 0) :
    ∃ sch, schema h path = .ok sch ∧ lint sch = [] := by
  rw [perform] at hstatus
  simp only [validate] at hstatus
  cases hsch : schema h path with
  | error e =>
    rw [hsch] at hstatus
    rw [schema] at hsch
    split at hsch
    · cases hsch
      cases hstatus
    · split at hsch
      · cases hsch
        cases hstatus
      · cases hsch
  | ok sch =>
    refine ⟨sch, rfl, ?_⟩
    rw [hsch] at hstatus
    by_contra hne
    have hfalse : (lint sch).isEmpty = false := by rwa [← Bool.not_eq_true, List.isEmpty_iff]
    simp only [bind, Except.bind, hfalse] at hstatus
    cases hstatus

theorem scorer_eq_ok {sch : Schema} (hsch : schema h path = .ok sch) {sc : Scorer}
    (hsc : Scorer.ofSchema sch = .ok sc) : scorer h path = .ok sc := by
  rw [scorer, hsch]
  simp only [bind, Except.bind, hsc]
  rfl

theorem status_order {s : Settings} {sc : Scorer} (hsc : scorer h path = .ok sc) :
    (perform h s (.order path)).status = 0 := by
  rw [perform]
  simp only [order, hsc]
  rfl

theorem status_writing (out : Option String) (json : Except String String) (e : Effects) :
    (writing h out json e).status = e.status ∨ (writing h out json e).status = Effects.filesFailed := by
  unfold writing
  dsimp only
  split
  · exact .inl rfl
  · split
    · exact .inr rfl
    · exact .inr rfl
    · exact .inr rfl
    · exact .inr rfl
    · exact .inr rfl
    · exact .inl rfl

theorem status_writing_print (out : Option String) (json : Except String String) (text : String) :
    (writing h out json (.print text)).status ≠ Effects.schemaUnfit := by
  rcases status_writing (h := h) out json (.print text) with hstatus | hstatus
  · rw [hstatus]
    exact (by decide : (0 : Nat) ≠ Effects.schemaUnfit)
  · rw [hstatus]
    decide

theorem status_inputs {e : Effects} (he : inputs h path = .error e) : e.status = Effects.filesFailed := by
  unfold inputs at he
  split at he <;> cases he <;> rfl

/-- A sheet that has a scorer is never computed with the status for unfit schemas. -/
theorem status_compute {s : Settings} {sc : Scorer} (hsc : scorer h path = .ok sc) (inputsPath : String) (json : Bool)
    (out : Option String) : (perform h s (.compute path inputsPath json out)).status ≠ Effects.schemaUnfit := by
  suffices ∃ e, (compute h s (s.color.getD h.terminal) path inputsPath json out = .ok e ∨
      compute h s (s.color.getD h.terminal) path inputsPath json out = .error e) ∧ e.status ≠ Effects.schemaUnfit by
    obtain ⟨e, he, hstatus⟩ := this
    rw [perform]
    rcases he with he | he
    · simpa only [he] using hstatus
    · simpa only [he] using hstatus
  simp only [compute, hsc, bind, Except.bind]
  cases hin : inputs h inputsPath with
  | error e => exact ⟨e, .inr rfl, by rw [status_inputs hin]; decide⟩
  | ok raw =>
    dsimp only
    split
    · exact ⟨_, .inr rfl, (by decide : Effects.scoringFailed ≠ Effects.schemaUnfit)⟩
    · split
      · split
        · exact ⟨_, .inr rfl, (by decide : Effects.filesFailed ≠ Effects.schemaUnfit)⟩
        · exact ⟨_, .inl rfl, status_writing_print out _ _⟩
      · split
        · exact ⟨_, .inl rfl, status_writing_print out _ _⟩
        · exact ⟨_, .inr rfl, (by decide : Effects.settingsUnusable ≠ Effects.schemaUnfit)⟩

/-- Choosing log lines changes nothing about how a task ends, unless the run breaks off over it. -/
theorem status_performLogged (s : Settings) (verbose : Bool) (task : Task) :
    (performLogged h s verbose task).status = (perform h s task).status ∨
      (performLogged h s verbose task).status = Effects.settingsUnusable := by
  unfold performLogged
  dsimp only
  split
  · exact .inl rfl
  · exact .inl rfl
  · exact .inl rfl
  · exact .inr rfl

/-- A run that gets to its task ends as the task does, or because of its settings. -/
theorem status_run {args : List String} {i : Invocation} (hargs : h.arguments args = .ok i) :
    ∃ s, (run h args).status = (perform h s i.task).status ∨ (run h args).status = Effects.filesFailed ∨
      (run h args).status = Effects.settingsUnusable := by
  rw [run, hargs]
  dsimp only
  split
  · exact ⟨{}, .inr (.inl rfl)⟩
  · rename_i s hs
    exact ⟨s, (status_performLogged s i.verbose i.task).imp_right .inr⟩

/-- **Where `validate` ends well the schema has no problems.** -/
theorem lint_of_run {args : List String} {i : Invocation} (hargs : h.arguments args = .ok i)
    (htask : i.task = .validate path) (hstatus : (run h args).status = 0) :
    ∃ sch, schema h path = .ok sch ∧ lint sch = [] := by
  obtain ⟨s, hrun | hrun | hrun⟩ := status_run hargs
  · rw [hstatus, htask] at hrun
    exact lint_of_validate hrun.symm
  · rw [hstatus] at hrun
    cases hrun
  · rw [hstatus] at hrun
    cases hrun

/-- **A schema with a scorer is never unfit** for `order` or `compute`. -/
theorem status_of_scorer {args : List String} {i : Invocation} {sc : Scorer} (hsc : scorer h path = .ok sc)
    (hargs : h.arguments args = .ok i)
    (htask : i.task = .order path ∨ ∃ inputs json out, i.task = .compute path inputs json out) :
    (run h args).status ≠ Effects.schemaUnfit := by
  obtain ⟨s, hrun | hrun | hrun⟩ := status_run hargs
  · rw [hrun]
    rcases htask with ht | ⟨inputs, json, out, ht⟩
    · rw [ht, status_order hsc]
      decide
    · rw [ht]
      exact status_compute hsc inputs json out
  · rw [hrun]
    decide
  · rw [hrun]
    decide

end Command

/-- **A schema without problems has a scorer whose plan holds every computed entry once**, and a schema file that
`validate` passes never makes `order` or `compute` end with the status for unfit schemas: not on any host that reads the
file as the other does, whatever its toolkit makes of command lines and documents. -/
theorem accepted_of_lint :
    (∀ s, lint s = [] → ∃ sc nodes, Scorer.ofSchema s = .ok sc ∧
      List.Forall₂ Computed.Compiles s.computed nodes ∧ sc.plan.Perm nodes ∧ sc.order.Nodup) ∧
    ∀ (h h' : Host) (path : String) (args args' : List String) (i i' : Invocation),
      h'.toToolkit = h.toToolkit → h'.read path = h.read path →
      h.arguments args = .ok i → i.task = .validate path → (Command.run h args).status = 0 →
      h'.arguments args' = .ok i' →
      (i'.task = .order path ∨ ∃ inputs json out, i'.task = .compute path inputs json out) →
      (Command.run h' args').status ≠ Effects.schemaUnfit := by
  constructor
  · intro s h
    obtain ⟨nodes, hfit⟩ := fit_of_lint h
    obtain ⟨sc, hsc, hperm⟩ := hfit.exists_scorer
    exact ⟨sc, nodes, hsc, hfit.compiles, hperm, Scorer.nodup_order_of_ofSchema hsc⟩
  · intro h h' path args args' i i' htools hread hargs htask hstatus hargs' htask'
    obtain ⟨s, hs, hlint⟩ := Command.lint_of_run hargs htask hstatus
    obtain ⟨nodes, hfit⟩ := fit_of_lint hlint
    obtain ⟨sc, hsc, -⟩ := hfit.exists_scorer
    have hscorer := Command.scorer_eq_ok ((Command.schema_congr htools hread).trans hs) hsc
    exact Command.status_of_scorer hscorer hargs' htask'

theorem accepted_of_lint_files : ∃ s sc, lint s = [] ∧ Scorer.ofSchema s = .ok sc ∧
    ∃ h, (Command.run h ["validate", "--schema", "s.json"]).status = 0 ∧
      (Command.run h ["order", "--schema", "s.json"]).status ≠ Effects.schemaUnfit := by
  let s := Schema.ofFormulas [("n", .number 2)] [("B", none, "a * params['n']"), ("A", some "a", "params['n'] + 1")]
  let text := "\x7b\"computed\":[\x7b\"code\":\"A\",\"formula\":\"1\"\x7d]\x7d"
  let h := Host.ofFiles (.ofList [("s.json", text)]) none true
  have hlint : lint s = [] := by decide +kernel
  obtain ⟨sc, nodes, hsc, -⟩ := accepted_of_lint.1 s hlint
  have hstatus : (Command.run h ["validate", "--schema", "s.json"]).status = 0 := by decide +kernel
  have hargs : h.arguments ["validate", "--schema", "s.json"] = .ok ⟨.validate "s.json", false, none⟩ := by
    rfl
  have hargs' : h.arguments ["order", "--schema", "s.json"] = .ok ⟨.order "s.json", false, none⟩ := by
    rfl
  exact ⟨s, sc, hlint, hsc, h, hstatus,
    accepted_of_lint.2 h h "s.json" _ _ _ _ rfl rfl hargs rfl hstatus hargs' (.inl rfl)⟩

end Scoresheet
