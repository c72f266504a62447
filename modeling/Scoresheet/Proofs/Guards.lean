import Mathlib.Algebra.Group.Int.Defs
import Scoresheet.Formula.Evaluate
import Scoresheet.Sorting
/-!
# Operations with a range

Not every operation is defined everywhere: an index lies in its list, a cut does not end before it starts, a lower bound
is not above the upper one, a sum fits into 64 bits.  Here each of them has a guard, and comes to nothing where it is
asked for what is out of its range.  A computation of guarded operations stays within all ranges if it comes to a
result, be it a value or an error (`Guarded.Stays`).
-/
namespace Scoresheet

/-- What guarded operations come to: nothing as soon as one is out of its range, and otherwise a result. -/
abbrev Guarded (α : Type) := ExceptT Error Option α

namespace Guarded

variable {α β : Type}

/-! ## Staying in range -/

/-- A guarded operation among others. -/
def within (o : Option α) : Guarded α := ExceptT.mk (o.map .ok)

/-- Every operation is in its range, and they come to the result. -/
def Stays (x : Guarded α) (r : Result α) : Prop := x.run = some r

theorem stays_pure (a : α) : Stays (pure a) (.ok a) := rfl

theorem stays_throw (e : Error) : Stays (throw e : Guarded α) (.error e) := rfl

theorem stays_answer (r : Result α) : Stays (answer r) r := by
  cases r with
  | error e => exact stays_throw e
  | ok a => exact stays_pure a

theorem stays_within {o : Option α} {a : α} (h : o = some a) : Stays (within o) (.ok a) := by
  rw [h]
  rfl

theorem Stays.bind {x : Guarded α} {r : Result α} {f : α → Guarded β} {g : α → Result β} (h : Stays x r)
    (hf : ∀ a, r = .ok a → Stays (f a) (g a)) : Stays (x >>= f) (r >>= g) := by
  rw [Stays, ExceptT.run_bind, h]
  cases r with
  | error e => rfl
  | ok a => exact hf a rfl

theorem Stays.bind_ok {x : Guarded α} {a : α} {f : α → Guarded β} {r : Result β} (h : Stays x (.ok a))
    (hf : Stays (f a) r) : Stays (x >>= f) r := by
  rw [Stays, ExceptT.run_bind, h]
  exact hf

theorem Stays.bind_error {x : Guarded α} {e : Error} (h : Stays x (.error e)) (f : α → Guarded β) :
    Stays (x >>= f) (.error e) := by
  rw [Stays, ExceptT.run_bind, h]
  rfl

theorem Stays.map {x : Guarded α} {r : Result α} (h : Stays x r) (f : α → β) : Stays (f <$> x) (r.map f) := by
  rw [Stays, ExceptT.run_map, h]
  cases r <;> rfl

theorem Stays.mapM {f : α → Guarded β} {g : α → Result β} : ∀ {l : List α}, (∀ a ∈ l, Stays (f a) (g a)) →
    Stays (l.mapM f) (l.mapM g)
  | [], _ => by
    rw [List.mapM_nil, List.mapM_nil]
    exact stays_pure _
  | a :: l, h => by
    obtain ⟨ha, hl⟩ := List.forall_mem_cons.1 h
    rw [List.mapM_cons, List.mapM_cons]
    exact ha.bind fun b _ => (Stays.mapM hl).bind fun bs _ => stays_pure _

theorem Stays.foldlM {f : β → α → Guarded β} {g : β → α → Result β} (h : ∀ b a, Stays (f b a) (g b a)) :
    ∀ (l : List α) (b : β), Stays (l.foldlM f b) (l.foldlM g b)
  | [], b => stays_pure b
  | a :: l, b => by
    rw [List.foldlM_cons, List.foldlM_cons]
    exact (h b a).bind fun b' _ => Stays.foldlM h l b'

theorem mapM_eq {f : α → Option β} {g : α → β} : ∀ {l : List α}, (∀ a ∈ l, f a = some (g a)) →
    l.mapM f = some (l.map g)
  | [], _ => rfl
  | a :: l, h => by
    obtain ⟨ha, hl⟩ := List.forall_mem_cons.1 h
    rw [List.mapM_cons, ha, mapM_eq hl]
    rfl

theorem foldlM_eq {f : β → α → Option β} {g : β → α → β} (h : ∀ b a, f b a = some (g b a)) :
    ∀ (l : List α) (b : β), l.foldlM f b = some (l.foldl g b)
  | [], _ => rfl
  | a :: l, b => by
    rw [List.foldlM_cons, h]
    exact foldlM_eq h l (g b a)

/-- An error that is told on its way out. -/
theorem Stays.tryCatch {x : Guarded α} {r : Result α} (h : Stays x r) (f : Error → Error) :
    Stays (tryCatch x fun e => throw (f e)) (tryCatch r fun e => throw (f e)) := by
  have hx : x = ExceptT.mk (some r) := h
  rw [hx]
  cases r <;> rfl

/-! ## Operations

Each one has what it is asked for, or comes to nothing. -/

def slice (xs : List α) (start stop : Nat) : Option (List α) :=
  if start ≤ stop ∧ stop ≤ xs.length then some ((xs.take stop).drop start) else none

def remove (xs : List α) (i : Nat) : Option (List α) := if i < xs.length then some (xs.eraseIdx i) else none

/-- The items at places. -/
def readAll (xs : List α) (places : List Nat) : Option (List α) := places.mapM fun i => xs[i]?

def write (xs : List α) (i : Nat) (a : α) : Option (List α) := if i < xs.length then some (xs.set i a) else none

def subtract (m n : Nat) : Option Nat := if n ≤ m then some (m - n) else none

def clamp (lower upper n : Int) : Option Int := if lower ≤ upper then some (max lower (min n upper)) else none

/-- A score moved between two bounds, neither of which may be a NaN. -/
def clampScore (lower upper x : Score) : Option Score :=
  if lower.toFloat ≤ upper.toFloat then some (Score.clamp lower upper x) else none

/-- A whole number that counts or is a place. -/
def natural (n : Int) : Option Nat := if 0 ≤ n then some n.toNat else none

/-- What 64 bits hold. -/
def Fits (n : Int) : Prop := -2 ^ 63 ≤ n ∧ n < 2 ^ 63

instance (n : Int) : Decidable (Fits n) := inferInstanceAs (Decidable (_ ∧ _))

/-- A 64-bit number added to a length.  No list is longer than 64 bits can count. -/
def offset (length : Nat) (n : Int) : Option Int :=
  if Fits n ∧ (Fits length → Fits (length + n)) then some (length + n) else none

/-- A 64-bit number less one. -/
def decrement (n : Int) : Option Int := if -2 ^ 63 < n then some (n - 1) else none

/-! ## Sorting -/

/-- An entry put before the first one that it does not come after, where not all entries can be compared. -/
def insertBy (le : α → α → Option Bool) (x : α) : List α → Option (List α)
  | [] => some [x]
  | y :: ys => do
    if ← le x y then return x :: y :: ys
    return y :: (← insertBy le x ys)

def sortBy (le : α → α → Option Bool) : List α → Option (List α)
  | [] => some []
  | x :: xs => do insertBy le x (← sortBy le xs)

theorem insertBy_eq {le : α → α → Option Bool} {le' : α → α → Bool} {x : α} : ∀ {ys : List α},
    (∀ y ∈ ys, le x y = some (le' x y)) → insertBy le x ys = some (Scoresheet.insertBy le' x ys)
  | [], _ => rfl
  | y :: ys, h => by
    obtain ⟨hy, hys⟩ := List.forall_mem_cons.1 h
    rw [insertBy, Scoresheet.insertBy, hy, insertBy_eq hys]
    cases le' x y <;> rfl

/-- **Entries that can all be compared are sorted.** -/
theorem sortBy_eq {le : α → α → Option Bool} {le' : α → α → Bool} : ∀ {xs : List α},
    (∀ x ∈ xs, ∀ y ∈ xs, le x y = some (le' x y)) → sortBy le xs = some (Scoresheet.sortBy le' xs)
  | [], _ => rfl
  | x :: xs, h => by
    have hxs : sortBy le xs = some (Scoresheet.sortBy le' xs) := sortBy_eq fun a ha b hb =>
      h a (List.mem_cons_of_mem _ ha) b (List.mem_cons_of_mem _ hb)
    rw [sortBy, hxs]
    refine insertBy_eq fun y hy => h x List.mem_cons_self y (List.mem_cons_of_mem _ ?_)
    exact mem_sortBy.1 hy

end Guarded
end Scoresheet
