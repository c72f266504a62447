import Scoresheet.Proofs.Accepting
/-!
# How many entries a call returns

A reduction that keeps its lines apart returns an entry for each of them: a row for each entry of its source, a column
for each item of its window.  Execution scores are as many as the matrix has rows, and crash positions as many as are
on record.
-/
namespace Scoresheet

/-- A list of so many entries. -/
def Value.HasEntries (v : Value) (n : Nat) : Prop := ∃ vs, v = .list vs ∧ vs.length = n

instance (v : Value) (n : Nat) : Decidable (v.HasEntries n) :=
  match v with
  | .list vs => decidable_of_iff (vs.length = n) ⟨fun h => ⟨vs, rfl, h⟩, fun ⟨_, h, hn⟩ => by cases h; exact hn⟩
  | .null | .bool _ | .number _ | .text _ | .map _ => isFalse fun ⟨_, h, _⟩ => by cases h

theorem hasEntries_ofScores (xs : List Score) : (Value.ofScores xs).HasEntries xs.length :=
  ⟨_, rfl, List.length_map _⟩

theorem Value.HasEntries.number?_eq {v : Value} {n : Nat} (h : v.HasEntries n) : v.number? = none := by
  obtain ⟨vs, rfl, -⟩ := h
  rfl

theorem length_of_mapM {α β : Type} {f : α → Result β} {l : List α} {m : List β} (h : l.mapM f = .ok m) :
    m.length = l.length :=
  (mapM_eq_ok_iff.1 h).length_eq.symm

namespace Sheet

theorem length_rowLines (s : Sheet) (w : Window) : (s.rowLines w).length = s.rows.length := by
  rw [rowLines, List.length_map, List.length_range]

/-- A window without bounds of its own takes every item. -/
theorem length_columnLines (s : Sheet) : (s.columnLines ⟨0, none⟩).length = s.items := by
  have hfirst : s.first ⟨0, none⟩ = 0 := Nat.zero_min _
  rw [columnLines, List.length_map, itemsOf, List.length_range', hfirst, stop, Nat.sub_zero]

theorem length_rowsOf {f : Function} {v : Value} {rows : List (List Score)} {n : Nat} (h : rowsOf f v = .ok rows)
    (hv : v.HasEntries n) : rows.length = n := by
  obtain ⟨vs, rfl, rfl⟩ := hv
  cases h
  exact List.length_map _

/-- What the sheet of a name is made of. -/
theorem ofSource_text_eq_ok {cx : Context} {f : Function} {name : String} {sheet : Sheet}
    (h : ofSource cx f (.text name) = .ok sheet) : Text.isSafeName name = true ∧ ∃ v, cx.lookup name = some v ∧
      rowsOf f v = .ok sheet.rows ∧ ∀ n, (cx.schema.field? (cx.canonical name)).map Field.itemCount = some n →
        n ≠ 0 → sheet.items = n := by
  rw [ofSource] at h
  split at h
  · rename_i hsafe
    cases hlookup : cx.lookup name with
    | none =>
      rw [hlookup] at h
      cases h
    | some v =>
      rw [hlookup] at h
      obtain ⟨rows, hrows, h⟩ := bind_eq_ok_iff.1 h
      cases h
      refine ⟨hsafe, v, rfl, hrows, fun n hn hne => ?_⟩
      simp only [hn, Option.getD_some, if_neg hne]
  · cases h

end Sheet

section

variable {cx : Context} {args : Arguments} {v : Value} {n : Nat}

theorem hasEntries_execByJudge {matrix : Value} (h : Call.execByJudge args = .ok v)
    (hgiven : args.given? "matrix" = some matrix) (hmatrix : matrix.HasEntries n) : v.HasEntries n := by
  obtain ⟨vs, rfl, rfl⟩ := hmatrix
  rw [Call.execByJudge, Arguments.required_eq_ok_iff.2 hgiven] at h
  cases h
  refine ⟨_, rfl, ?_⟩
  rw [List.length_map, List.length_map, List.length_zipIdx]

theorem hasEntries_crash {code : String} (h : Call.crash cx args = .ok v)
    (hgiven : args.given? "field_code" = some (.text code)) : v.HasEntries (cx.crashes code).length := by
  rw [Call.crash, Arguments.code, Arguments.required_eq_ok_iff.2 hgiven] at h
  cases h
  exact ⟨_, rfl, by rw [List.length_map, List.length_map]⟩

theorem hasEntries_itemsReduce {name : String} (h : itemsReduce Dialect.compile cx args = .ok v)
    (hgiven : args.given? "field_code" = some (.text name))
    (hsource : Text.isSafeName name = true → ∃ source, cx.lookup name = some source ∧ source.HasEntries n) :
    v.HasEntries n := by
  have hrequired : args.required "field_code" = pure (.text name) := Arguments.required_eq_ok_iff.2 hgiven
  unfold itemsReduce at h
  simp only [answer_eq, hrequired, pure_bind] at h
  obtain ⟨sheet, hsheet, h⟩ := bind_eq_ok_iff.1 h
  obtain ⟨hsafe, w, hw, hrows, -⟩ := Sheet.ofSource_text_eq_ok hsheet
  obtain ⟨source, hlookup, hentries⟩ := hsource hsafe
  rw [hlookup] at hw
  cases hw
  obtain ⟨item, -, h⟩ := bind_eq_ok_iff.1 h
  obtain ⟨change, -, h⟩ := bind_eq_ok_iff.1 h
  obtain ⟨agg, -, h⟩ := bind_eq_ok_iff.1 h
  obtain ⟨aggregate, -, h⟩ := bind_eq_ok_iff.1 h
  obtain ⟨results, hresults, h⟩ := bind_eq_ok_iff.1 h
  cases h
  have hlength : results.length = n := by
    rw [length_of_mapM hresults, Sheet.length_rowLines, Sheet.length_rowsOf hrows hentries]
  exact hlength ▸ hasEntries_ofScores results

/-- **What a reduction takes from its arguments**: its source, its mode and its window. -/
theorem Reduction.of_ofArguments {d : Direction} {r : Reduction}
    (h : Reduction.ofArguments Dialect.compile cx d args = .ok r) :
    r.direction = d ∧ (∃ source, args.required "source" = .ok source ∧ Sheet.ofSource cx d.function source = .ok r.sheet) ∧
      (∃ mode, args.textOr "return_mode" "final" = .ok mode ∧ (Text.trim mode = "final" ∨ Text.trim mode = d.perLine) ∧
        r.apart = (Text.trim mode != "final")) ∧ r.window = Window.ofArguments args := by
  unfold Reduction.ofArguments at h
  simp only [answer_eq] at h
  obtain ⟨source, hsource, h⟩ := bind_eq_ok_iff.1 h
  obtain ⟨sheet, hsheet, h⟩ := bind_eq_ok_iff.1 h
  obtain ⟨item, -, h⟩ := bind_eq_ok_iff.1 h
  obtain ⟨change, -, h⟩ := bind_eq_ok_iff.1 h
  obtain ⟨selectOn, -, h⟩ := bind_eq_ok_iff.1 h
  obtain ⟨judged, -, h⟩ := bind_eq_ok_iff.1 h
  obtain ⟨aggOn, -, h⟩ := bind_eq_ok_iff.1 h
  obtain ⟨counted, -, h⟩ := bind_eq_ok_iff.1 h
  obtain ⟨inner, -, h⟩ := bind_eq_ok_iff.1 h
  obtain ⟨outer, -, h⟩ := bind_eq_ok_iff.1 h
  obtain ⟨trimmed, hmode, h⟩ := bind_eq_ok_iff.1 h
  cases htext : args.textOr "return_mode" "final" with
  | error e =>
    rw [htext] at hmode
    cases hmode
  | ok mode =>
    rw [htext] at hmode
    cases hmode
    split at h
    · cases h
    · rename_i hvalid
      cases h
      refine ⟨rfl, ⟨source, hsource, hsheet⟩, ⟨mode, rfl, ?_, rfl⟩, rfl⟩
      simpa [or_iff_not_imp_left] using hvalid

theorem hasEntries_run {r : Reduction} (h : r.run = .ok v) (hapart : r.apart = true) :
    v.HasEntries (r.direction.lines r.sheet r.window).length := by
  rw [Reduction.run] at h
  obtain ⟨results, hresults, h⟩ := bind_eq_ok_iff.1 h
  rw [hapart] at h
  cases h
  have hlength : results.length = (r.direction.lines r.sheet r.window).length := length_of_mapM hresults
  exact hlength ▸ hasEntries_ofScores results

theorem Arguments.textOr_of_given {p default s : String} (h : args.given? p = some (.text s)) :
    args.textOr p default = .ok s := by
  have hget : args.get? p = some (.text s) := by
    rw [get?, h]
    rfl
  rw [textOr, hget]

theorem Arguments.int?_of_not_given {p : String} (h : args.given? p = none) : args.int? p = none := by
  rw [int?, get?, h]
  rfl

/-- A reduction that is asked for its lines returns an entry for each. -/
theorem hasEntries_customCompute {d : Direction} {mode : String}
    (h : customCompute Dialect.compile cx d args = .ok v) (hgiven : args.given? "return_mode" = some (.text mode))
    (hmode : Text.trim mode ≠ "final") : Text.trim mode = d.perLine ∧ ∃ source sheet,
      args.given? "source" = some source ∧ Sheet.ofSource cx d.function source = .ok sheet ∧
        v.HasEntries (d.lines sheet (Window.ofArguments args)).length := by
  obtain ⟨r, hr, hrun⟩ := bind_eq_ok_iff.1 h
  rw [answer_eq] at hrun
  obtain ⟨rfl, ⟨source, hsource, hsheet⟩, ⟨mode', hmode', hvalid, hapart⟩, hwindow⟩ := Reduction.of_ofArguments hr
  rw [Arguments.textOr_of_given hgiven] at hmode'
  cases hmode'
  refine ⟨hvalid.resolve_left hmode, source, r.sheet, Arguments.required_eq_ok_iff.1 hsource, hsheet, ?_⟩
  rw [← hwindow]
  exact hasEntries_run hrun (by rw [hapart, bne_iff_ne]; exact hmode)

theorem hasEntries_rowCompute {mode name : String}
    (h : customCompute Dialect.compile cx .rows args = .ok v) (hgiven : args.given? "return_mode" = some (.text mode))
    (hmode : Text.trim mode ≠ "final") (hname : args.given? "source" = some (.text name))
    (hsource : Text.isSafeName name = true → ∃ source, cx.lookup name = some source ∧ source.HasEntries n) :
    v.HasEntries n := by
  obtain ⟨-, source', sheet, hsource', hsheet, hv⟩ := hasEntries_customCompute h hgiven hmode
  rw [hname] at hsource'
  cases hsource'
  obtain ⟨hsafe, w, hw, hrows, -⟩ := Sheet.ofSource_text_eq_ok hsheet
  obtain ⟨source, hlookup, hentries⟩ := hsource hsafe
  rw [hlookup] at hw
  cases hw
  have hlength : sheet.rows.length = n := Sheet.length_rowsOf hrows hentries
  rwa [Direction.lines, Sheet.length_rowLines, hlength] at hv

theorem hasEntries_columnCompute {mode name : String} (h : customCompute Dialect.compile cx .columns args = .ok v)
    (hgiven : args.given? "return_mode" = some (.text mode)) (hmode : Text.trim mode ≠ "final")
    (hname : args.given? "source" = some (.text name)) (hstart : args.given? "start" = none)
    (hcount : args.given? "count" = none)
    (hitems : (cx.schema.field? (cx.canonical name)).map Field.itemCount = some n) (hn : n ≠ 0) : v.HasEntries n := by
  obtain ⟨-, source', sheet, hsource', hsheet, hv⟩ := hasEntries_customCompute h hgiven hmode
  rw [hname] at hsource'
  cases hsource'
  obtain ⟨-, -, -, -, hdeclared⟩ := Sheet.ofSource_text_eq_ok hsheet
  have hwindow : Window.ofArguments args = ⟨0, none⟩ := by
    rw [Window.ofArguments, Arguments.int?_of_not_given hstart, Arguments.int?_of_not_given hcount]
    rfl
  rwa [Direction.lines, hwindow, Sheet.length_columnLines, hdeclared n hitems hn] at hv

end
end Scoresheet
