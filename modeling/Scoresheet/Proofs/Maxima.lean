import Scoresheet.Proofs.Panels
import Scoresheet.Proofs.Picking
/-!
# The best marks, two ways

The best marks of a list are a call of their own, and they are also what a sum selects by `maximes`.  The call cuts the
sorted marks off at the number it is given, and the criterion at that number kept within the number of marks; from one
mark on both cuts leave the same (`take_descending_eq_select`).  So the two have the same sum, bit for bit, where there
is a mark to sum (`sum_best_eq_maximes`).  Of no marks the one sum is zero and the other negative zero.
-/
namespace Scoresheet

namespace Criterion

/-- **Cutting sorted marks off at a number of one or more leaves the best ones.** -/
theorem take_descending_eq_select (marks : List Score) {n : Int} (hn : 1 ≤ n) :
    (descending id marks).take n.toNat = select (.best (some n)) marks := by
  have hselect : select (.best (some n)) marks = (descending id marks).take (clampCount marks.length n) :=
    pick_best id (some n) marks
  have hlength := length_descending id marks
  rw [hselect, clampCount]
  by_cases hfew : n.toNat ≤ marks.length
  · rw [show max 1 (min n.toNat marks.length) = n.toNat by omega]
  · rw [List.take_of_length_le (by omega), List.take_of_length_le (by omega)]

end Criterion

namespace Call

/-- **What the call for the best marks returns**, in whatever notation its arguments are written. -/
theorem bestN_eq_select {args : Arguments} {marks : List Score} {n : Int}
    (hscores : args.get? "scores" = some (.ofScores marks)) (hcount : args.int? "n" = some n) (hn : 1 ≤ n) :
    bestN args = .ok (.ofScores (Criterion.select (.best (some n)) marks)) := by
  unfold bestN
  rw [hscores, hcount, Option.getD_some, Option.getD_some, numbersOf_ofScores,
    ← Criterion.take_descending_eq_select marks hn]
  rfl

theorem aggregate_ofScores (a : Aggregate) {args : Arguments} {marks : List Score}
    (hvalues : args.given? "values" = some (.ofScores marks)) : aggregate a args = .ok (.number (a.apply marks)) := by
  unfold aggregate
  rw [Arguments.required_eq_ok_iff.2 hvalues]
  show (do
    let numbers ← numbersOf args.function (.ofScores marks)
    pure (Value.number (a.apply numbers))) = _
  rw [numbersOf_ofScores]
  rfl

end Call

/-- A value that counts as one or more is there. -/
theorem Value.isNull_of_toInt_pos {v : Value} (h : 1 ≤ v.toInt) : v.isNull = false := by
  cases v with
  | null =>
    have hzero : Value.null.toInt = 0 := by decide +kernel
    omega
  | bool b | number n | text s | list vs | map es => rfl

namespace Context

variable {cx : Context} {scores count : Expr} {marks : List Score} {v : Value}

/-- The formula for the sum of the best marks. -/
def sumOfBest (scores count : Expr) : Expr := .call .sum [.call .bestN [scores, count] []] []

/-- The formula for the sum of the marks that `maximes` selects. -/
def maximes (scores count : Expr) : Expr := .call .selectSum [scores, count, .literal (.text "maximes")] []

theorem value_bestN (hscores : cx.value scores = .ok (.ofScores marks)) (hcount : cx.value count = .ok v)
    (hv : 1 ≤ v.toInt) :
    cx.value (.call .bestN [scores, count] []) = .ok (.ofScores (Criterion.select (.best (some v.toInt)) marks)) := by
  let args : Arguments := ⟨.bestN, [("scores", some (.ofScores marks)), ("n", some v)]⟩
  have hps : evaluateAll (cx.scope Dialect.compile) [scores, count] = .ok [.ofScores marks, v] := by
    rw [value] at hscores hcount
    simp only [evaluateAll, hscores, hcount]
    rfl
  have hbind : Arguments.bind .bestN [.ofScores marks, v] [] = .ok args := rfl
  have hcall : cx.value (.call .bestN [scores, count] []) = Call.bestN args := by
    rw [value_call hps hbind]
    exact answer_eq (Call.bestN args)
  have hint : args.int? "n" = some v.toInt := by
    show ((some v).filter fun w => !w.isNull).map Value.toInt = _
    simp [Option.filter, Value.isNull_of_toInt_pos hv]
  rw [hcall]
  exact Call.bestN_eq_select rfl hint hv

theorem value_sumOfBest (hne : marks ≠ []) (hscores : cx.value scores = .ok (.ofScores marks))
    (hcount : cx.value count = .ok v) (hv : 1 ≤ v.toInt) : cx.value (sumOfBest scores count) =
      .ok (.number (Score.sum (Criterion.select (.best (some v.toInt)) marks))) := by
  let best := Criterion.select (.best (some v.toInt)) marks
  let args : Arguments := ⟨.sum, [("values", some (.ofScores best))]⟩
  have hps : evaluateAll (cx.scope Dialect.compile) [.call .bestN [scores, count] []] = .ok [.ofScores best] := by
    have hbest := value_bestN hscores hcount hv
    rw [value] at hbest
    simp only [evaluateAll, hbest]
    rfl
  have hbind : Arguments.bind .sum [.ofScores best] [] = .ok args := rfl
  have hcall : cx.value (sumOfBest scores count) = Call.aggregate .sum args := by
    rw [sumOfBest, value_call hps hbind]
    exact answer_eq (Call.aggregate .sum args)
  have hsome : best.isEmpty = false := by
    rw [List.isEmpty_eq_false_iff, ← List.length_pos_iff]
    exact Criterion.length_pick_pos id (.best (some v.toInt)) hne
  rw [hcall, Call.aggregate_ofScores .sum rfl, Aggregate.apply, hsome]
  rfl

theorem value_maximes (hscores : cx.value scores = .ok (.ofScores marks))
    (hcount : cx.value count = .ok v) (hv : 1 ≤ v.toInt) : cx.value (maximes scores count) =
      .ok (.number (Score.sum (Criterion.select (.best (some v.toInt)) marks))) := by
  have hname : cx.value (.literal (.text "maximes")) = .ok (.text "maximes") := by
    rw [value, evaluate]
    rfl
  rw [maximes, value_selectSum hscores hcount hname, Call.selectSum_ofScores marks (Value.isNull_of_toInt_pos hv),
    if_neg (by omega)]
  rfl

end Context

/-- **The best marks are what `maximes` selects.**  For a number of one or more the call for the best marks returns the
list that the criterion selects, and where there are marks the sum of that list is the sum of the selection. -/
theorem sum_best_eq_maximes (marks : List Score) {n : Int} (hn : 1 ≤ n) :
    (∀ args : Arguments, args.get? "scores" = some (.ofScores marks) → args.int? "n" = some n →
      Call.bestN args = .ok (.ofScores (Criterion.select (.best (some n)) marks))) ∧
    (marks ≠ [] → ∀ (cx : Context) (scores count : Expr) (v : Value), cx.value scores = .ok (.ofScores marks) →
      cx.value count = .ok v → v.toInt = n →
        cx.value (Context.sumOfBest scores count) = cx.value (Context.maximes scores count) ∧
          cx.value (Context.maximes scores count) =
            .ok (.number (Score.sum (Criterion.select (.best (some n)) marks)))) := by
  refine ⟨fun args hscores hcount => Call.bestN_eq_select hscores hcount hn, ?_⟩
  rintro hne cx scores count v hscores hcount rfl
  have hmaximes := Context.value_maximes hscores hcount hn
  exact ⟨(Context.value_sumOfBest hne hscores hcount hn).trans hmaximes.symm, hmaximes⟩

theorem sum_best_eq_maximes_beyond : ∃ (marks : List Score) (args : Arguments) (cx : Context) (scores count : Expr)
    (v : Value), marks = [3, .nan, .negativeZero, 3] ∧ (1 : Int) ≤ 9 ∧ args.get? "scores" = some (.ofScores marks) ∧
      args.int? "n" = some 9 ∧ Call.bestN args = .ok (.ofScores [.nan, 3, 3, .negativeZero]) ∧ marks ≠ [] ∧
      cx.value scores = .ok (.ofScores marks) ∧ cx.value count = .ok v ∧ v.toInt = 9 ∧
      cx.value (Context.sumOfBest scores count) = cx.value (Context.maximes scores count) ∧
      cx.value (Context.maximes scores count) =
        .ok (.number (Score.sum (Criterion.select (.best (some 9)) marks))) := by
  let marks : List Score := [3, .nan, .negativeZero, 3]
  let args : Arguments := ⟨.bestN, [("scores", some (.ofScores marks)), ("n", some (.number 9))]⟩
  let cx : Context := .start (Schema.ofFormulas [] []) .empty .empty
  let scores : Expr := .list (marks.map fun x => .literal (.number x))
  let count : Expr := .literal (.number 9)
  have hnine : (Value.number 9).toInt = 9 := by decide +kernel
  have hint : args.int? "n" = some 9 := congrArg some hnine
  have hscores : cx.value scores = .ok (.ofScores marks) := by
    simp only [scores, Context.value, marks, List.map_cons, List.map_nil, evaluate, evaluateAll]
    rfl
  have hcount : cx.value count = .ok (.number 9) := by
    simp only [count, Context.value, evaluate]
    rfl
  have hselect : Criterion.select (.best (some 9)) marks = [.nan, 3, 3, .negativeZero] := by decide +kernel
  obtain ⟨hbest, hsums⟩ := sum_best_eq_maximes marks (n := 9) (by decide)
  obtain ⟨hequal, hsum⟩ := hsums (List.cons_ne_nil _ _) cx scores count _ hscores hcount hnine
  exact ⟨marks, args, cx, scores, count, _, rfl, by decide, rfl, hint, hselect ▸ hbest args rfl hint,
    List.cons_ne_nil _ _, hscores, hcount, hnine, hequal, hsum⟩

end Scoresheet
