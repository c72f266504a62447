import Scoresheet.Error
import Scoresheet.Score
import Scoresheet.Sorting
import Scoresheet.Text.Blank

/-!
# Selection

Which marks of a panel count.  A criterion picks entries by their marks: some number of the smallest or largest ones,
or what is left once extremes are dropped.  Entries are sorted by a stable sort, so of two equal marks the earlier
entry is the smaller one.  Whatever number is asked for, at least one entry is picked, and no entry twice.

An entry is a mark with anything else attached to it: `Criterion.pick` on entries, `Criterion.indices` on marks with
their positions, `Criterion.select` on the marks alone.
-/
namespace Scoresheet

/-- What picking by marks needs of them: the order they are sorted in, the point half-way between two of them, how far
two of them are apart, and how distances compare. -/
class Mark (α : Type) where
  le : α → α → Bool
  midpoint : α → α → α
  distance : α → α → α
  larger : α → α → α
  same : α → α → Bool

instance : Mark Score where
  le := Score.le
  midpoint a b := (a + b) / 2
  distance a b := (a - b).abs
  larger := Score.max
  same := Score.sameNumber

/-- How entries are picked.  A count that is missing means every entry. -/
inductive Criterion where
  | worst (count : Option Int)
  | best (count : Option Int)
  /-- The best ones where the count leaves some out, otherwise every entry in the order given. -/
  | all (count : Option Int)
  /-- All but one smallest and one largest, where there are more than two. -/
  | dropExtremes
  /-- The largest and the smallest dropped in turn until the count is reached. -/
  | dropExtremesUntil (count : Int)
  /-- The smallest and the largest dropped together; of an odd one left over, the entry farthest from the median. -/
  | trimToMedian (count : Option Int)
deriving DecidableEq

namespace Criterion

/-- The criterion of a name.  Blanks around the name do not matter. -/
def ofName (name : String) (count : Option Int) : Except SelectionFault Criterion :=
  match Text.trim name with
  | "minimes" | "worst_n" => .ok (.worst count)
  | "maximes" | "best_n" => .ok (.best count)
  | "all" | "totes" => .ok (.all count)
  | "drop_extremes" => .ok .dropExtremes
  | "drop_extremes_until_n" =>
    match count with
    | some k => .ok (.dropExtremesUntil k)
    | none => .error (.countRequired "drop_extremes_until_n")
  | "eliminar_extrems" => .ok (.trimToMedian count)
  | other => .error (.unknownMethod other)

/-- The count asked for, kept between one and the number of entries. -/
def clampCount (size : Nat) (count : Int) : Nat := max 1 (min count.toNat size)

/-- The count asked for, or every entry. -/
def countOf (size : Nat) : Option Int → Nat
  | none => size
  | some count => clampCount size count

section

variable {α β : Type} [Mark α] (key : β → α)

/-- From the smallest to the largest mark, equal marks in the order given. -/
def ascending (xs : List β) : List β := sortBy (fun a b => Mark.le (key a) (key b)) xs

/-- From the largest to the smallest mark, equal marks in the order given. -/
def descending (xs : List β) : List β := sortBy (fun a b => Mark.le (key b) (key a)) xs

/-- The last and the first entry dropped in turn, until `count` are left. -/
def dropInTurn (count : Nat) (last : Bool) (xs : List β) : List β :=
  if count < xs.length then
    if last then dropInTurn count false xs.dropLast else dropInTurn count true xs.tail
  else xs
termination_by xs.length
decreasing_by
  · rw [List.length_dropLast]; omega
  · rw [List.length_tail]; omega

/-- The first and the last entry dropped together, until at most one is left over. -/
def dropPairs (count : Nat) (xs : List β) : List β :=
  if count + 2 ≤ xs.length then dropPairs count xs.tail.dropLast else xs
termination_by xs.length
decreasing_by rw [List.length_dropLast, List.length_tail]; omega

/-- The middle mark of sorted entries; of two middle ones, the point half-way. -/
def middle? (xs : List β) : Option α :=
  let half := xs.length / 2
  if xs.length % 2 = 1 then xs[half]?.map key
  else match xs[half - 1]?, xs[half]? with
    | some a, some b => some (Mark.midpoint (key a) (key b))
    | _, _ => none

/-- The largest of the distances. -/
def largest? : List α → Option α
  | [] => none
  | d :: ds => some (ds.foldl Mark.larger d)

/-- The position of the last distance that is the largest one. -/
def lastLargest? (ds : List α) : Option Nat :=
  (largest? ds).bind fun top =>
    (ds.reverse.findIdx? fun d => Mark.same d top).map fun i => ds.length - 1 - i

/-- Sorted entries without the one farthest from their median; of several, the last of them goes. -/
def dropFarthest (xs : List β) : List β :=
  match middle? key xs with
  | none => xs
  | some m =>
    match lastLargest? (xs.map fun x => Mark.distance (key x) m) with
    | none => xs
    | some i => xs.eraseIdx i

/-- Sorted entries trimmed from both ends to `count`. -/
def trim (count : Nat) (xs : List β) : List β :=
  let block := dropPairs count xs
  if count < block.length then dropFarthest key block else block

/-- The entries that a criterion picks, in the order in which it picks them. -/
def pick (c : Criterion) (xs : List β) : List β :=
  if xs.isEmpty then []
  else match c with
    | .worst count => (ascending key xs).take (countOf xs.length count)
    | .best count => (descending key xs).take (countOf xs.length count)
    | .all count =>
      let k := countOf xs.length count
      if k < xs.length then (descending key xs).take k else xs
    | .dropExtremes => if xs.length ≤ 2 then ascending key xs else (ascending key xs).tail.dropLast
    | .dropExtremesUntil count => dropInTurn (clampCount xs.length count) true (ascending key xs)
    | .trimToMedian count => trim key (countOf xs.length count) (ascending key xs)

/-- The positions of the marks that a criterion picks. -/
def indices (c : Criterion) (marks : List α) : List Nat :=
  (c.pick Prod.fst marks.zipIdx).map Prod.snd

/-- The marks that a criterion picks.  For `all` the largest comes first. -/
def select (c : Criterion) (marks : List α) : List α :=
  match c with
  | .all _ => descending id (c.pick id marks)
  | _ => c.pick id marks

end

end Criterion

end Scoresheet
