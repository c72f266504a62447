import Scoresheet.Proofs.Accepting
import Scoresheet.Proofs.Binding
import Scoresheet.Proofs.Guards
import Scoresheet.Proofs.Ordering
/-!
# Expressions stay in range

A subscript takes an item by its place, which may count from the end.  The sum of the two lies in 64 bits, and the place
is looked at before it is taken (`Guarded.stays_subscript`).  So an expression whose calls stay in range stays in range
(`Guarded.stays_evaluate`).
-/
namespace Scoresheet
namespace Guarded

/-! ## Subscripts -/

/-- A place that may count from the end. -/
def fromStart (length : Nat) (n : Int) : Option Int := if n < 0 then offset length n else some n

/-- The place that an index means in a sequence of the given length, if any. -/
def place (index : Value) (length : Nat) : Option (Option Nat) :=
  match index.number? with
  | none => some none
  | some n =>
    if n.isWhole then do
      let i ← fromStart length n.toInt
      if 0 ≤ i ∧ i < length then return some (← natural i)
      return none
    else some none

/-- The item at the place that an index means. -/
def item {α : Type} (xs : List α) (index : Value) : Option (Option α) := do
  match ← place index xs.length with
  | none => return none
  | some i => return some (← xs[i]?)

def part (base index : Value) : Option (Option Value) :=
  match base with
  | .list xs => item xs index
  | .text s => do
    let c ← item s.toList index
    return c.map fun c => .text (String.singleton c)
  | base => some (base.part? index)

def subscript (base index : Value) : Guarded Value := do
  match ← within (part base index) with
  | some v => pure v
  | none => throw (.type (.subscript base.kind index.indexText))

theorem fromStart_eq (length : Nat) (x : Score) :
    fromStart length x.toInt = some (if x.toInt < 0 then length + x.toInt else x.toInt) := by
  have hbounds := x.toInt_bounds
  unfold fromStart
  split
  · have hfits : Fits x.toInt ∧ (Fits length → Fits (length + x.toInt)) := by
      unfold Fits
      omega
    rw [offset, if_pos hfits]
  · rfl

theorem place_eq (index : Value) (length : Nat) : place index length = some (index.place? length) := by
  unfold place Value.place?
  cases index.number? with
  | none => rfl
  | some n =>
    dsimp only
    split
    · rw [fromStart_eq]
      generalize (if n.toInt < 0 then (length : Int) + n.toInt else n.toInt) = i
      by_cases hrange : 0 ≤ i ∧ i < length
      · have hnatural : natural i = some i.toNat := if_pos hrange.1
        simp [hrange, hnatural]
      · simp [hrange]
    · rfl

theorem lt_of_place? {index : Value} {length i : Nat} (h : index.place? length = some i) : i < length := by
  unfold Value.place? at h
  cases hn : index.number? with
  | none =>
    rw [hn] at h
    cases h
  | some n =>
    rw [hn] at h
    dsimp only at h
    generalize (if n.toInt < 0 then (length : Int) + n.toInt else n.toInt) = j at h
    by_cases hwhole : n.isWhole = true
    · rw [if_pos hwhole] at h
      by_cases hrange : 0 ≤ j ∧ j < length
      · rw [if_pos hrange] at h
        cases h
        omega
      · rw [if_neg hrange] at h
        cases h
    · rw [if_neg hwhole] at h
      cases h

theorem item_eq {α : Type} (xs : List α) (index : Value) :
    item xs index = some ((index.place? xs.length).bind fun i => xs[i]?) := by
  rw [item, place_eq]
  cases h : index.place? xs.length with
  | none => rfl
  | some i =>
    have hi := lt_of_place? h
    simp [hi]

theorem part_eq (base index : Value) : part base index = some (base.part? index) := by
  cases base with
  | list xs => exact item_eq xs index
  | text s =>
    rw [part, item_eq, Value.part?, String.length_toList]
    cases index.place? s.length with
    | none => rfl
    | some i => cases s.toList[i]? <;> rfl
  | _ => rfl

/-- **An item is taken at a place that there is.** -/
theorem stays_subscript (base index : Value) : Stays (subscript base index) (base.subscript index) := by
  refine (stays_within (part_eq base index)).bind_ok ?_
  unfold Value.subscript
  cases base.part? index with
  | none => exact stays_throw _
  | some v => exact stays_pure v

/-! ## Expressions -/

mutual

/-- The value of an expression. -/
def evaluate (scope : Scope Guarded) : Expr → Guarded Value
  | .literal l => pure l.value
  | .name s =>
    match scope.lookup s with
    | some v => pure v
    | none => throw (.formula (.unknownName s))
  | .binary op l r => do
    let a ← evaluate scope l
    let b ← evaluate scope r
    answer (op.apply a b)
  | .unary sign e => do
    let v ← evaluate scope e
    answer (sign.apply v)
  | .call f ps ks => do
    let vs ← evaluateAll scope ps
    let kvs ← evaluateKeywords scope ks
    scope.call f vs kvs
  | .subscript b i => do
    let base ← evaluate scope b
    let index ← evaluate scope i
    subscript base index
  | .list es => do
    let vs ← evaluateAll scope es
    pure (.list vs)
  | .tuple es => do
    let vs ← evaluateAll scope es
    pure (.list vs)
  | .dict es => do
    let entries ← evaluateEntries scope [] es
    pure (.map entries)

def evaluateAll (scope : Scope Guarded) : List Expr → Guarded (List Value)
  | [] => pure []
  | e :: es => do
    let v ← evaluate scope e
    let vs ← evaluateAll scope es
    pure (v :: vs)

def evaluateKeywords (scope : Scope Guarded) : List (String × Expr) → Guarded (List (String × Value))
  | [] => pure []
  | (k, e) :: ks => do
    let v ← evaluate scope e
    let rest ← evaluateKeywords scope ks
    pure ((k, v) :: rest)

def evaluateEntries (scope : Scope Guarded) (done : List (String × Value)) :
    List (Expr × Expr) → Guarded (List (String × Value))
  | [] => pure done
  | (k, e) :: es => do
    let kv ← evaluate scope k
    let key ← answer kv.dictKey
    let v ← evaluate scope e
    evaluateEntries scope (Table.put key v done) es

end

/-- Names mean the same, and calls stay in range. -/
structure StaysIn (scope : Scope Guarded) (scope' : Scope Result) : Prop where
  lookup : scope.lookup = scope'.lookup
  call : ∀ f vs kvs, Stays (scope.call f vs kvs) (scope'.call f vs kvs)

section

variable {scope : Scope Guarded} {scope' : Scope Result}

mutual

/-- **An expression whose calls stay in range stays in range.** -/
theorem stays_evaluate (h : StaysIn scope scope') : ∀ e : Expr, Stays (evaluate scope e) (Scoresheet.evaluate scope' e)
  | .literal l => by
    rw [evaluate, Scoresheet.evaluate]
    exact stays_pure _
  | .name n => by
    rw [evaluate, Scoresheet.evaluate, h.lookup]
    cases scope'.lookup n with
    | some v => exact stays_pure v
    | none => exact stays_throw _
  | .binary op l r => by
    rw [evaluate, Scoresheet.evaluate]
    refine (stays_evaluate h l).bind fun a _ => (stays_evaluate h r).bind fun b _ => ?_
    rw [answer_eq]
    exact stays_answer _
  | .unary sign e => by
    rw [evaluate, Scoresheet.evaluate]
    refine (stays_evaluate h e).bind fun v _ => ?_
    rw [answer_eq]
    exact stays_answer _
  | .call f ps ks => by
    rw [evaluate, Scoresheet.evaluate]
    exact (stays_evaluateAll h ps).bind fun vs _ => (stays_evaluateKeywords h ks).bind fun kvs _ => h.call f vs kvs
  | .subscript b i => by
    rw [evaluate, Scoresheet.evaluate]
    refine (stays_evaluate h b).bind fun base _ => (stays_evaluate h i).bind fun index _ => ?_
    rw [answer_eq]
    exact stays_subscript base index
  | .list es => by
    rw [evaluate, Scoresheet.evaluate]
    exact (stays_evaluateAll h es).bind fun vs _ => stays_pure _
  | .tuple es => by
    rw [evaluate, Scoresheet.evaluate]
    exact (stays_evaluateAll h es).bind fun vs _ => stays_pure _
  | .dict es => by
    rw [evaluate, Scoresheet.evaluate]
    exact (stays_evaluateEntries h es []).bind fun entries _ => stays_pure _

theorem stays_evaluateAll (h : StaysIn scope scope') :
    ∀ es : List Expr, Stays (evaluateAll scope es) (Scoresheet.evaluateAll scope' es)
  | [] => by
    rw [evaluateAll, Scoresheet.evaluateAll]
    exact stays_pure _
  | e :: es => by
    rw [evaluateAll, Scoresheet.evaluateAll]
    exact (stays_evaluate h e).bind fun v _ => (stays_evaluateAll h es).bind fun vs _ => stays_pure _

theorem stays_evaluateKeywords (h : StaysIn scope scope') :
    ∀ ks : List (String × Expr), Stays (evaluateKeywords scope ks) (Scoresheet.evaluateKeywords scope' ks)
  | [] => by
    rw [evaluateKeywords, Scoresheet.evaluateKeywords]
    exact stays_pure _
  | (k, e) :: ks => by
    rw [evaluateKeywords, Scoresheet.evaluateKeywords]
    exact (stays_evaluate h e).bind fun v _ => (stays_evaluateKeywords h ks).bind fun rest _ => stays_pure _

theorem stays_evaluateEntries (h : StaysIn scope scope') :
    ∀ (es : List (Expr × Expr)) (done : List (String × Value)),
      Stays (evaluateEntries scope done es) (Scoresheet.evaluateEntries scope' done es)
  | [], done => by
    rw [evaluateEntries, Scoresheet.evaluateEntries]
    exact stays_pure _
  | (k, e) :: es, done => by
    rw [evaluateEntries, Scoresheet.evaluateEntries]
    refine (stays_evaluate h k).bind fun kv _ => ?_
    rw [answer_eq]
    exact (stays_answer _).bind fun key _ => (stays_evaluate h e).bind fun v _ => stays_evaluateEntries h es _

end

end

end Guarded
end Scoresheet
