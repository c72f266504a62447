import Mathlib.Data.List.Nodup
import Scoresheet.Proofs.Normalizing
import Scoresheet.Proofs.Whole
/-!
# The form of inputs

Whatever is entered, the inputs of a schema hold an entry for each field with a code, in the shape and within the
bounds that the field declares, and crash positions beside each matrix that tracks them; and inputs in this form are
left as they are (`canonical_normalize`).  A number is moved within the bounds once and stays there, even if the bounds
are the wrong way round or no numbers at all (`Field.clamp_clamp`).
-/
namespace Scoresheet

/-! ## Bounds -/

namespace Score

variable {a b : Score}

theorem max_self (a : Score) : Score.max a a = a := by
  simp [Score.max, lt_self]

theorem min_self (a : Score) : Score.min a a = a := by
  simp [Score.min, lt_self]

theorem max_eq_or (a b : Score) : Score.max a b = a ∨ Score.max a b = b := by
  unfold Score.max
  split
  · exact .inr rfl
  · split
    · exact .inr rfl
    · exact .inl rfl

theorem max_of_isNaN_or_lt (h : a.isNaN = true ∨ a.lt b = true) : Score.max a b = b := by
  unfold Score.max
  rcases h with h | h
  · rw [if_pos h]
  · rw [h, if_pos rfl, ite_self]

theorem min_of_isNaN_or_lt (h : a.isNaN = true ∨ b.lt a = true) : Score.min a b = b := by
  unfold Score.min
  rcases h with h | h
  · rw [if_pos h]
  · rw [h, if_pos rfl, ite_self]

theorem max_of_not (hnan : a.isNaN = false) (hlt : a.lt b = false) : Score.max a b = a := by
  rw [Score.max, hnan, hlt, if_neg Bool.false_ne_true, if_neg Bool.false_ne_true]

theorem min_of_not (hnan : a.isNaN = false) (hlt : b.lt a = false) : Score.min a b = a := by
  rw [Score.min, hnan, hlt, if_neg Bool.false_ne_true, if_neg Bool.false_ne_true]

theorem max_max_right (a b : Score) : Score.max (Score.max a b) b = Score.max a b := by
  rcases max_eq_or a b with h | h
  · rw [h, h]
  · rw [h, max_self]

theorem min_min_right (a b : Score) : Score.min (Score.min a b) b = Score.min a b := by
  by_cases hb : a.isNaN = true ∨ b.lt a = true
  · rw [min_of_isNaN_or_lt hb, min_self]
  · rw [not_or, Bool.not_eq_true, Bool.not_eq_true] at hb
    rw [min_of_not hb.1 hb.2, min_of_not hb.1 hb.2]

theorem le_max_right (h : b.isNaN = false) : b.toFloat ≤ (Score.max a b).toFloat := by
  by_cases hb : a.isNaN = true ∨ a.lt b = true
  · rw [max_of_isNaN_or_lt hb]
    exact le_iff_not_lt.2 ⟨h, h, lt_self b⟩
  · rw [not_or, Bool.not_eq_true, Bool.not_eq_true] at hb
    rw [max_of_not hb.1 hb.2]
    exact le_iff_not_lt.2 ⟨h, hb.1, hb.2⟩

theorem min_le_right (h : b.isNaN = false) : (Score.min a b).toFloat ≤ b.toFloat := by
  by_cases hb : a.isNaN = true ∨ b.lt a = true
  · rw [min_of_isNaN_or_lt hb]
    exact le_iff_not_lt.2 ⟨h, h, lt_self b⟩
  · rw [not_or, Bool.not_eq_true, Bool.not_eq_true] at hb
    rw [min_of_not hb.1 hb.2]
    exact le_iff_not_lt.2 ⟨hb.1, h, hb.2⟩

end Score

namespace Field

variable {f : Field}

/-- A number within the bounds that the field declares.  A bound that is a NaN is none, and where the bounds are the
wrong way round the upper one counts. -/
structure Within (f : Field) (x : Score) : Prop where
  lower : ∀ lo, f.lower = some lo → lo.isNaN = false → (∀ hi, f.upper = some hi → lo.toFloat ≤ hi.toFloat) →
    lo.toFloat ≤ x.toFloat
  upper : ∀ hi, f.upper = some hi → hi.isNaN = false → x.toFloat ≤ hi.toFloat

/-- **Every number is moved within the bounds**, a NaN too. -/
theorem within_clamp (f : Field) (x : Score) : f.Within (f.clamp x) := by
  constructor
  · intro lo hlo hnan hle
    have hmax := Score.le_max_right (a := x) hnan
    rw [clamp, hlo]
    dsimp only
    cases hhi : f.upper with
    | none => exact hmax
    | some hi =>
      dsimp only
      by_cases hb : (Score.max x lo).isNaN = true ∨ hi.lt (Score.max x lo) = true
      · rw [Score.min_of_isNaN_or_lt hb]
        exact hle hi hhi
      · rw [not_or, Bool.not_eq_true, Bool.not_eq_true] at hb
        rwa [Score.min_of_not hb.1 hb.2]
  · intro hi hhi hnan
    rw [clamp, hhi]
    exact Score.min_le_right hnan

/-- An upper bound that took effect does so again.  It takes effect on a number above it, and on a NaN that the lower
bound left there. -/
theorem min_max_upper {y lo hi : Score} (hy : y.isNaN = true ∧ lo.isNaN = true ∨ hi.lt y = true) :
    Score.min (Score.max hi lo) hi = hi := by
  rcases Score.max_eq_or hi lo with h | h
  · rw [h, Score.min_self]
  · rw [h]
    by_cases hlt : hi.lt lo = true
    · exact Score.min_of_isNaN_or_lt (.inr hlt)
    · rcases hy with ⟨-, hlo⟩ | hy
      · exact Score.min_of_isNaN_or_lt (.inl hlo)
      · have hnan := (Score.isNaN_of_lt hy).1
        rw [Score.max_of_not hnan (by simpa using hlt)] at h
        rw [h, Score.min_self]

/-- **What is within the bounds stays as it is**, whatever the bounds are. -/
theorem clamp_clamp (f : Field) (x : Score) : f.clamp (f.clamp x) = f.clamp x := by
  unfold clamp
  cases f.lower with
  | none =>
    cases f.upper with
    | none => rfl
    | some hi => exact Score.min_min_right x hi
  | some lo =>
    cases f.upper with
    | none => exact Score.max_max_right x lo
    | some hi =>
      dsimp only
      generalize hy : Score.max x lo = y
      have hyy : Score.max y lo = y := by rw [← hy, Score.max_max_right]
      by_cases hb : y.isNaN = true ∨ hi.lt y = true
      · rw [Score.min_of_isNaN_or_lt hb]
        refine min_max_upper (y := y) (hb.imp_left fun hnan => ⟨hnan, ?_⟩)
        -- a NaN gives way to the lower bound, so the lower bound is what is one
        rw [Score.max_of_isNaN_or_lt (.inl hnan)] at hyy
        rwa [hyy]
      · rw [not_or, Bool.not_eq_true, Bool.not_eq_true] at hb
        rw [Score.min_of_not hb.1 hb.2, hyy, Score.min_of_not hb.1 hb.2]

/-! ## One field -/

/-- An input in the shape and within the bounds that the field declares.  What has no shape is what was given. -/
def IsCanonical (f : Field) (given v : Value) : Prop :=
  match f.layout with
  | .scalar => ∃ x, v = .number x ∧ f.Within x
  | .judgeVector => ∃ xs : List Score, v = .ofScores xs ∧ xs.length = f.judgeCount ∧ ∀ x ∈ xs, f.Within x
  | .matrix => ∃ rows : List (List Score), v = .ofMatrix rows ∧ rows.length = f.judgeCount ∧
      ∀ row ∈ rows, row.length = f.itemCount ∧ ∀ x ∈ row, f.Within x
  | .passthrough => v = given

/-- A crash position for each judge: a whole number of items. -/
def AreCrashPositions (f : Field) (v : Value) : Prop :=
  ∃ ns : List Int, v = .ofScores (ns.map Score.ofInt) ∧ ns.length = f.judgeCount ∧
    ∀ n ∈ ns, 0 ≤ n ∧ n ≤ f.itemCount

theorem within_of_mem_map_cell {vs : List Value} {x : Score} (h : x ∈ vs.map f.cell) : f.Within x := by
  obtain ⟨v, -, rfl⟩ := List.mem_map.1 h
  exact f.within_clamp v.toScore

/-- **The input of a field is in the form that it declares.** -/
theorem isCanonical_normal (f : Field) (v : Value) : f.IsCanonical v (f.normal v) := by
  unfold IsCanonical
  split <;> rename_i hlayout
  · exact ⟨f.cell v, by rw [normal, hlayout], f.within_clamp v.toScore⟩
  · refine ⟨_, by rw [normal, hlayout], ?_, fun x hx => within_of_mem_map_cell hx⟩
    rw [List.length_map, Value.length_padded]
  · refine ⟨_, normal_matrix hlayout v, ?_, fun row hrow => ?_⟩
    · rw [List.length_map, Value.length_padded]
    · obtain ⟨w, -, rfl⟩ := List.mem_map.1 hrow
      refine ⟨?_, fun x hx => within_of_mem_map_cell hx⟩
      rw [List.length_map, Value.length_padded]
  · rw [normal, hlayout]

theorem crashPosition_bounds (f : Field) (v : Value) : 0 ≤ f.crashPosition v ∧ f.crashPosition v ≤ f.itemCount := by
  unfold crashPosition
  omega

theorem areCrashPositions (f : Field) (v : Value) :
    f.AreCrashPositions (.ofScores ((f.crashPositions v).map Score.ofInt)) := by
  refine ⟨f.crashPositions v, rfl, f.length_crashPositions v, fun n hn => ?_⟩
  obtain ⟨w, -, rfl⟩ := List.mem_map.1 hn
  exact f.crashPosition_bounds w

end Field

/-! ## Inputs that are read again -/

theorem Value.padded_list {vs : List Value} {n : Nat} (h : vs.length = n) : (Value.list vs).padded n = vs := by
  refine List.ext_getElem (by rw [Value.length_padded, h]) fun i hi hi' => ?_
  simp [Value.padded, Value.items, hi']

theorem Value.padded_ofScores {xs : List Score} {n : Nat} (h : xs.length = n) :
    (Value.ofScores xs).padded n = xs.map .number :=
  Value.padded_list (by rw [List.length_map, h])

namespace Field

variable {f : Field}

theorem cell_number (f : Field) (v : Value) : f.cell (.number (f.cell v)) = f.cell v := f.clamp_clamp v.toScore

theorem map_cell_padded (f : Field) {vs : List Value} {n : Nat} (h : vs.length = n) :
    ((Value.ofScores (vs.map f.cell)).padded n).map f.cell = vs.map f.cell := by
  rw [Value.padded_ofScores (by rw [List.length_map, h]), List.map_map, List.map_map]
  exact List.map_congr_left fun v _ => f.cell_number v

/-- **An input in the form that a field declares stays as it is.** -/
theorem normal_normal (f : Field) (v : Value) : f.normal (f.normal v) = f.normal v := by
  cases hlayout : f.layout with
  | scalar =>
    simp only [normal, hlayout]
    rw [cell_number]
  | judgeVector =>
    simp only [normal, hlayout]
    rw [f.map_cell_padded (Value.length_padded v f.judgeCount)]
  | matrix =>
    simp only [normal, hlayout]
    rw [Value.padded_list (by rw [List.length_map, Value.length_padded]), List.map_map]
    refine congrArg Value.list (List.map_congr_left fun row _ => ?_)
    exact congrArg Value.ofScores (f.map_cell_padded (Value.length_padded row f.itemCount))
  | passthrough => simp only [normal, hlayout]

theorem crashPosition_ofInt {n : Int} (h : 0 ≤ n) (h' : n ≤ f.itemCount) :
    f.crashPosition (.number (Score.ofInt n)) = n := by
  have hle : f.itemCount ≤ 50 := f.itemCount_le
  have hread : (Value.number (Score.ofInt n)).toInt = n := Score.toInt_ofInt h (by omega)
  rw [crashPosition, hread]
  omega

theorem crashPositions_ofScores {ns : List Int} (hlength : ns.length = f.judgeCount)
    (hns : ∀ n ∈ ns, 0 ≤ n ∧ n ≤ f.itemCount) : f.crashPositions (.ofScores (ns.map Score.ofInt)) = ns := by
  rw [crashPositions, Value.padded_ofScores (by rw [List.length_map, hlength]), List.map_map, List.map_map]
  refine (List.map_congr_left fun n hn => ?_).trans (List.map_id ns)
  exact crashPosition_ofInt (hns n hn).1 (hns n hn).2

/-- The keys under which the field has inputs. -/
def keys (f : Field) : List String :=
  if f.code.isEmpty then [] else f.code :: if f.tracksCrash then [crashKey f.code] else []

theorem mem_keys_iff {k : String} :
    k ∈ f.keys ↔ f.code.isEmpty = false ∧ (k = f.code ∨ f.tracksCrash = true ∧ k = crashKey f.code) := by
  unfold keys
  by_cases hcode : f.code.isEmpty = true <;> by_cases htracks : f.tracksCrash = true <;> simp [hcode, htracks]

theorem nodup_keys (f : Field) : f.keys.Nodup := by
  unfold keys
  split
  · exact .nil
  · split <;> simp [ne_crashKey_self]

end Field

theorem Table.nodup_keys {α : Type} (t : Table α) : t.keys.Nodup :=
  List.pairwise_map.2 (t.sorted.imp fun h => String.ne_of_lt h)

/-! ## All fields -/

section

variable {fields : List Field} {f : Field}

/-- Fields whose inputs stand apart: each code is the code of one field, and no code is the crash key of another. -/
structure Apart (fields : List Field) : Prop where
  codes : (fields.map (·.code)).Nodup
  crashKeys : ∀ f ∈ fields, ∀ g ∈ fields, f.code ≠ crashKey g.code

namespace Apart

variable (h : Apart fields) (raw : Table Value)

include h

theorem get?_code (hf : f ∈ fields) (hcode : f.code.isEmpty = false) :
    (normalize fields raw).get? f.code = some (f.normal ((raw.get? f.code).getD .null)) :=
  get?_normalize_code h.codes hf hcode fun g hg _ he => h.crashKeys f hf g hg he.symm

theorem get?_crashKey (hf : f ∈ fields) (hcode : f.code.isEmpty = false) (htracks : f.tracksCrash = true) :
    (normalize fields raw).get? (crashKey f.code) =
      some (.ofScores ((f.crashPositions ((raw.get? (crashKey f.code)).getD .null)).map Score.ofInt)) := by
  refine get?_normalize_crashKey h.codes hf hcode htracks fun hmem => ?_
  obtain ⟨g, hg, he⟩ := List.mem_map.1 hmem
  exact h.crashKeys g hg f hf he

theorem nodup_flatMap_keys : (fields.flatMap Field.keys).Nodup := by
  refine List.nodup_flatMap.2 ⟨fun f _ => f.nodup_keys, ?_⟩
  have hpairs := List.pairwise_map.1 h.codes
  refine hpairs.imp_of_mem fun {f g} hf hg hne k hkf hkg => ?_
  rcases (Field.mem_keys_iff.1 hkf).2 with hf' | ⟨-, hf'⟩
  · rcases (Field.mem_keys_iff.1 hkg).2 with hg' | ⟨-, hg'⟩
    · exact hne (hf' ▸ hg')
    · exact h.crashKeys f hf g hg (hf' ▸ hg')
  · rcases (Field.mem_keys_iff.1 hkg).2 with hg' | ⟨-, hg'⟩
    · exact h.crashKeys g hg f hf (hg' ▸ hf')
    · exact hne (crashKey_inj.1 (hf' ▸ hg'))

end Apart

theorem get?_normalize_of_notMem_keys {k : String} (raw : Table Value) (hk : k ∉ fields.flatMap Field.keys) :
    (normalize fields raw).get? k = none := by
  suffices ∀ (fields : List Field) (inputs : Table Value), k ∉ fields.flatMap Field.keys →
      (fields.foldl (fun inputs f => f.contribute raw inputs) inputs).get? k = inputs.get? k from
    this fields .empty hk
  intro fields
  induction fields with
  | nil => exact fun _ _ => rfl
  | cons f fields ih =>
    intro inputs hk
    rw [List.flatMap_cons, List.mem_append, not_or, Field.mem_keys_iff] at hk
    rw [List.foldl_cons, ih _ hk.2]
    by_cases hcode : f.code.isEmpty = true
    · rw [Field.contribute, if_pos hcode]
    · rw [Bool.not_eq_true] at hcode
      refine f.get?_contribute raw inputs (fun he => hk.1 ⟨hcode, .inl he⟩) fun htracks he => ?_
      exact hk.1 ⟨hcode, .inr ⟨htracks, he⟩⟩

theorem keys_normalize_perm (h : Apart fields) (raw : Table Value) :
    (normalize fields raw).keys.Perm (fields.flatMap Field.keys) := by
  refine (List.perm_ext_iff_of_nodup (Table.nodup_keys _) h.nodup_flatMap_keys).2 fun k => ?_
  rw [← Table.contains_eq_true_iff, Table.contains]
  constructor
  · intro hsome
    by_contra hk
    rw [get?_normalize_of_notMem_keys raw hk] at hsome
    cases hsome
  · intro hk
    obtain ⟨f, hf, hkf⟩ := List.mem_flatMap.1 hk
    obtain ⟨hcode, rfl | ⟨htracks, rfl⟩⟩ := Field.mem_keys_iff.1 hkf
    · rw [h.get?_code raw hf hcode]
      rfl
    · rw [h.get?_crashKey raw hf hcode htracks]
      rfl

theorem normalize_normalize (h : Apart fields) (raw : Table Value) :
    normalize fields (normalize fields raw) = normalize fields raw := by
  refine Table.ext fun k => ?_
  by_cases hk : k ∈ fields.flatMap Field.keys
  · obtain ⟨f, hf, hkf⟩ := List.mem_flatMap.1 hk
    obtain ⟨hcode, rfl | ⟨htracks, rfl⟩⟩ := Field.mem_keys_iff.1 hkf
    · rw [h.get?_code _ hf hcode, h.get?_code raw hf hcode, Option.getD_some, Field.normal_normal]
    · rw [h.get?_crashKey _ hf hcode htracks, h.get?_crashKey raw hf hcode htracks, Option.getD_some]
      obtain ⟨ns, hns, hlength, hbounds⟩ := f.areCrashPositions ((raw.get? (crashKey f.code)).getD .null)
      rw [hns, Field.crashPositions_ofScores hlength hbounds]
  · rw [get?_normalize_of_notMem_keys _ hk, get?_normalize_of_notMem_keys _ hk]

/-- **Inputs reach a canonical form.**  Where the keys of fields are apart, the inputs have exactly these keys; each
entry has the shape and the bounds that its field declares, whatever was entered; and inputs that are brought into shape
once more stay as they are. -/
theorem canonical_normalize (h : Apart fields) (raw : Table Value) :
    (normalize fields raw).keys.Perm (fields.flatMap Field.keys) ∧
    (∀ f ∈ fields, f.code.isEmpty = false →
      (∃ v, (normalize fields raw).get? f.code = some v ∧ f.IsCanonical ((raw.get? f.code).getD .null) v) ∧
      (f.tracksCrash = true → ∃ v, (normalize fields raw).get? (crashKey f.code) = some v ∧ f.AreCrashPositions v)) ∧
    normalize fields (normalize fields raw) = normalize fields raw := by
  refine ⟨keys_normalize_perm h raw, fun f hf hcode => ⟨?_, fun htracks => ?_⟩, normalize_normalize h raw⟩
  · exact ⟨_, h.get?_code raw hf hcode, f.isCanonical_normal _⟩
  · exact ⟨_, h.get?_crashKey raw hf hcode htracks, f.areCrashPositions _⟩

theorem canonical_normalize_matrix : ∃ (f g : Field) (raw : Table Value), Apart [f, g] ∧
    f.layout = .matrix ∧ f.tracksCrash = true ∧ g.layout = .passthrough ∧
    ((raw.get? "E").getD .null).leaves.map Score.isNaN = [true, false, false] ∧
    (normalize [f, g] raw).keys.Perm ["E", "__crash__E", "note"] ∧
    (∃ v, (normalize [f, g] raw).get? "E" = some v ∧ f.IsCanonical ((raw.get? "E").getD .null) v) ∧
    (∃ v, (normalize [f, g] raw).get? "__crash__E" = some v ∧ f.AreCrashPositions v) ∧
    normalize [f, g] (normalize [f, g] raw) = normalize [f, g] raw := by
  let f : Field := ⟨"E", none, some "matrix", some "judge_x_item", none, some 1, some 10, some ⟨some 2⟩,
    some ⟨some 3⟩, some true, none, .empty⟩
  let g : Field := ⟨"note", none, some "text", none, none, none, none, none, none, none, none, .empty⟩
  let raw : Table Value := .ofList [("E", .list [.list [.text "nan", .number 99], .text "bad"]),
    ("__crash__E", .list [.number 7, .number (-1)]), ("note", .text "windy")]
  have hapart : Apart [f, g] := ⟨by decide, by decide +kernel⟩
  obtain ⟨hkeys, hentries, htwice⟩ := canonical_normalize hapart raw
  obtain ⟨hmatrix, hcrash⟩ := hentries f List.mem_cons_self (by decide)
  refine ⟨f, g, raw, hapart, by decide +kernel, by decide +kernel, by decide +kernel, by decide +kernel, ?_, hmatrix, ?_,
    htwice⟩
  · have hall : [f, g].flatMap Field.keys = ["E", "__crash__E", "note"] := by decide +kernel
    exact hall ▸ hkeys
  · have hkey : crashKey f.code = "__crash__E" := by decide +kernel
    exact hkey ▸ hcrash (by decide +kernel)

end

end Scoresheet
