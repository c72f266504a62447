import Scoresheet.Inputs
import Scoresheet.Panel.Routine
import Scoresheet.Panel.Sheet
import Scoresheet.Proofs.Guards
import Scoresheet.Proofs.Ordering
/-!
# Counts, bounds and windows

The numbers of a schema and of its inputs may be any, also infinite or none at all.  Their whole parts fit into 64 bits
(`Score.toInt_bounds`), and every count and every crash position is moved between bounds in the right order before it
is used as a length or a place.  So inputs are normalized, routines counted and windows cut without anything out of
range.
-/
namespace Scoresheet
namespace Guarded

/-! ## Counts -/

def judgeCount (f : Field) : Option Nat := do
  let n := Count.whole f.judges
  natural (← clamp 1 maxJudges (if n = 0 then 1 else n))

def itemCount (f : Field) : Option Nat := do natural (← clamp 0 maxItems (Count.whole f.items))

def elements (params : Table Value) : Option Nat := do
  let configured := ["n_elements", "num_elements"].filterMap fun k => (params.get? k).map Value.toInt
  natural (← clamp 1 maxItems ((configured.find? fun n => n != 0).getD defaultElements))

theorem natural_clamp {lower upper : Nat} (h : lower ≤ upper) (n : Int) :
    (do natural (← clamp lower upper n)) = some (max lower (min n.toNat upper)) := by
  have hbounds : (lower : Int) ≤ upper := by omega
  rw [clamp, if_pos hbounds]
  show natural (max (lower : Int) (min n upper)) = _
  rw [natural, if_pos (by omega)]
  congr 1
  omega

theorem judgeCount_eq (f : Field) : judgeCount f = some f.judgeCount := by
  have hbounds : 1 ≤ maxJudges := by decide
  refine (natural_clamp hbounds _).trans ?_
  unfold Field.judgeCount
  dsimp only
  split <;> rfl

theorem itemCount_eq (f : Field) : itemCount f = some f.itemCount := by
  have hbounds : 0 ≤ maxItems := by decide
  refine (natural_clamp hbounds _).trans ?_
  unfold Field.itemCount
  rw [Nat.zero_max]

theorem elements_eq (params : Table Value) : elements params = some (Schema.elements params) := by
  have hbounds : 1 ≤ maxItems := by decide
  exact natural_clamp hbounds _

/-! ## Inputs -/

def crashPosition (f : Field) (v : Value) : Option Int := do clamp 0 (← itemCount f) v.toInt

def crashPositions (f : Field) (v : Value) : Option (List Int) := do
  (v.padded (← judgeCount f)).mapM (crashPosition f)

def normal (f : Field) (v : Value) : Option Value :=
  match f.layout with
  | .scalar => some (.number (f.cell v))
  | .judgeVector => do return .ofScores ((v.padded (← judgeCount f)).map f.cell)
  | .matrix => do
    let items ← itemCount f
    return .list ((v.padded (← judgeCount f)).map fun row => .ofScores ((row.padded items).map f.cell))
  | .passthrough => some v

def contribute (raw : Table Value) (inputs : Table Value) (f : Field) : Option (Table Value) :=
  if f.code.isEmpty then some inputs
  else do
    let withCrash ←
      if f.tracksCrash then do
        let positions ← crashPositions f ((raw.get? (crashKey f.code)).getD .null)
        some (inputs.insert (crashKey f.code) (.ofScores (positions.map Score.ofInt)))
      else some inputs
    return withCrash.insert f.code (← normal f ((raw.get? f.code).getD .null))

def normalize (fields : List Field) (raw : Table Value) : Option (Table Value) := fields.foldlM (contribute raw) Table.empty

theorem crashPositions_eq (f : Field) (v : Value) : crashPositions f v = some (f.crashPositions v) := by
  have hposition : ∀ v, crashPosition f v = some (f.crashPosition v) := by
    intro v
    have hbounds : (0 : Int) ≤ f.itemCount := by omega
    rw [crashPosition, itemCount_eq]
    show clamp 0 f.itemCount v.toInt = _
    rw [clamp, if_pos hbounds]
    rfl
  rw [crashPositions, judgeCount_eq]
  exact mapM_eq fun v _ => hposition v

theorem normal_eq (f : Field) (v : Value) : normal f v = some (f.normal v) := by
  unfold normal Field.normal
  simp only [judgeCount_eq, itemCount_eq]
  cases f.layout <;> rfl

/-- **Whatever the raw inputs are, they are normalized.** -/
theorem normalize_eq (fields : List Field) (raw : Table Value) :
    normalize fields raw = some (Scoresheet.normalize fields raw) := by
  refine foldlM_eq (fun inputs f => ?_) fields Table.empty
  unfold contribute Field.contribute
  simp only [normal_eq, crashPositions_eq]
  split
  · rfl
  · split <;> rfl

/-! ## Routines -/

def counted (elements : Nat) (crash : Int) : Option Nat :=
  if 0 < crash then do natural (← clamp 0 elements (← decrement crash))
  else some elements

def execution (elements : Nat) (crash : Int) (given : List Score) : Option Score := do
  let deductions ← (List.range elements).mapM fun i => clampScore 0 10 (given[i]?.getD 0)
  let counted ← counted elements crash
  return Score.ofNat (min counted Routine.baseElements) - Score.sum (← slice deductions 0 counted) / 10

/-- A crash is at the first item or after it. -/
theorem decrement_eq {crash : Int} (h : 0 < crash) : decrement crash = some (crash - 1) := if_pos (by omega)

theorem counted_eq (elements : Nat) (crash : Int) : counted elements crash = some (Routine.counted elements crash) := by
  unfold counted Routine.counted
  split
  · rename_i hcrash
    rw [decrement_eq hcrash]
    refine (natural_clamp (Nat.zero_le elements) (crash - 1)).trans ?_
    rw [Nat.zero_max]
  · rfl

theorem execution_eq (elements : Nat) (crash : Int) (given : List Score) :
    execution elements crash given = some (Routine.execution elements crash given) := by
  have hbounds : (0 : Score).toFloat ≤ (10 : Score).toFloat := by decide +kernel
  have hdeductions : (List.range elements).mapM (fun i => clampScore 0 10 (given[i]?.getD 0)) =
      some (Routine.deductions elements given) := mapM_eq fun i _ => if_pos hbounds
  have hlength : (Routine.deductions elements given).length = elements := by simp [Routine.deductions]
  have hle : Routine.counted elements crash ≤ elements := by
    unfold Routine.counted
    split <;> omega
  have hslice : slice (Routine.deductions elements given) 0 (Routine.counted elements crash) =
      some ((Routine.deductions elements given).take (Routine.counted elements crash)) := by
    rw [slice, if_pos ⟨Nat.zero_le _, by omega⟩]
    rfl
  rw [execution, hdeductions]
  simp only [Option.bind_eq_bind, Option.bind_some, counted_eq, hslice]
  rfl

/-! ## Windows -/

def stopFor (s : Sheet) (w : Window) (judge : Nat) : Option Nat :=
  let crash := s.crashes[judge]?.getD 0
  if 0 < crash then do return min (s.stop w) (← natural (← decrement crash))
  else some (s.stop w)

def itemsFor (s : Sheet) (w : Window) (judge : Nat) : Option (List Nat) := do
  return List.range' (s.first w) ((← stopFor s w judge) - s.first w)

def rowLines (s : Sheet) (w : Window) : Option (List (List Cell)) :=
  (List.range s.rows.length).mapM fun judge => do return (← itemsFor s w judge).map (s.cell judge)

def columnLines (s : Sheet) (w : Window) : Option (List (List Cell)) := do
  let windows ← (List.range s.rows.length).mapM (itemsFor s w)
  return (s.itemsOf w).map fun item =>
    (windows.zipIdx.filter fun window => window.1.contains item).map fun window => s.cell window.2 item

theorem itemsFor_eq (s : Sheet) (w : Window) (judge : Nat) : itemsFor s w judge = some (s.itemsFor w judge) := by
  have hstop : stopFor s w judge = some (s.stopFor w judge) := by
    unfold stopFor Sheet.stopFor
    dsimp only
    split
    · rename_i hcrash
      have hnatural : natural (s.crashes[judge]?.getD 0 - 1) = some (s.crashes[judge]?.getD 0 - 1).toNat := if_pos (by omega)
      rw [decrement_eq hcrash]
      simp only [Option.bind_eq_bind, Option.bind_some, hnatural]
      rfl
    · rfl
  rw [itemsFor, hstop]
  rfl

theorem rowLines_eq (s : Sheet) (w : Window) : rowLines s w = some (s.rowLines w) := by
  refine mapM_eq fun judge _ => ?_
  rw [itemsFor_eq]
  rfl

theorem columnLines_eq (s : Sheet) (w : Window) : columnLines s w = some (s.columnLines w) := by
  have hwindows : (List.range s.rows.length).mapM (itemsFor s w) =
      some ((List.range s.rows.length).map (s.itemsFor w)) := mapM_eq fun judge _ => itemsFor_eq s w judge
  have hplaces : ((List.range s.rows.length).map (s.itemsFor w)).zipIdx =
      (List.range s.rows.length).map fun judge => (s.itemsFor w judge, judge) := by
    refine List.ext_getElem (by simp) fun i hi hi' => ?_
    simp
  rw [columnLines, hwindows]
  simp only [Option.bind_eq_bind, Option.bind_some, hplaces, List.filter_map, List.map_map]
  rfl

end Guarded
end Scoresheet
