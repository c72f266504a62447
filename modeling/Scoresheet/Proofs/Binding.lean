import Mathlib.Data.List.Basic
import Scoresheet.Formula.Arguments
import Scoresheet.Formula.Expr
import Scoresheet.Table
/-!
# Binding arguments

A call binds exactly when no more arguments stand in positions than there are parameters, no keyword comes twice, and
every keyword is a parameter behind the positions (`bind_isOk_iff`).  What a parameter is given is then a matter of
looking it up, first among the positions, then among the keywords (`given?_bind`).
-/
namespace Scoresheet

namespace Slots

theorem slot?_cons (s : String × Option Value) (slots : Slots) (p : String) :
    slot? (s :: slots) p = if s.1 = p then some s.2 else slot? slots p := by
  rw [slot?, slot?, List.find?_cons]
  by_cases h : s.1 = p
  · simp [h]
  · simp [h, beq_eq_false_iff_ne.2 h]

theorem slot?_fill (p : String) : ∀ (ps : List String) (vs : List Value),
    (fill ps vs).slot? p = if p ∈ ps then some (Table.find? p (ps.zip vs)) else none
  | [], _ => rfl
  | q :: ps, [] => by
    rw [fill, slot?_cons, slot?_fill p ps [], List.zip_nil_right, List.zip_nil_right, Table.find?]
    by_cases h : q = p
    · simp [h]
    · simp [h, Ne.symm h]
  | q :: ps, v :: vs => by
    rw [fill, slot?_cons, slot?_fill p ps vs, List.zip_cons_cons, Table.find?]
    by_cases h : q = p
    · simp [h]
    · simp [h, Ne.symm h]

theorem slot?_set (p q : String) (v : Value) : ∀ slots : Slots,
    (slots.set p v).slot? q = if q = p then (slots.slot? q).map fun _ => some v else slots.slot? q
  | [] => by simp [set, slot?]
  | s :: slots => by
    have ih := slot?_set p q v slots
    rw [set] at ih ⊢
    rw [List.map_cons, slot?_cons, slot?_cons, ih]
    by_cases hs : s.1 = p
    · by_cases hq : q = p
      · simp [hs, hq]
      · simp [hs, hq, Ne.symm hq]
    · by_cases hq : q = p
      · simp [hq, hs]
      · simp [hs, hq]

end Slots

namespace Function

/-- Whether a call with so many positions and these keywords binds. -/
def Accepts (f : Function) (positions : Nat) (keys : List String) : Prop :=
  positions ≤ f.parameters.length ∧ keys.Nodup ∧ ∀ k ∈ keys, k ∈ f.parameters.drop positions

instance (f : Function) (positions : Nat) (keys : List String) : Decidable (f.Accepts positions keys) := by
  unfold Accepts
  infer_instance

end Function

namespace Arguments

theorem bindKeyword_eq_ok_iff {f : Function} {slots slots' : Slots} {k : String × Value} :
    bindKeyword f slots k = .ok slots' ↔ slots.slot? k.1 = some none ∧ slots.set k.1 k.2 = slots' := by
  rw [bindKeyword]
  split <;> rename_i h <;> simp [h]

/-- A slot after keywords are put into theirs. -/
theorem slot?_foldlM {f : Function} (p : String) : ∀ (keywords : List (String × Value)) {slots slots' : Slots},
    keywords.foldlM (bindKeyword f) slots = .ok slots' →
      slots'.slot? p = (slots.slot? p).map fun b => b.or (Table.find? p keywords)
  | [], slots, slots', h => by
    cases h
    simp [Table.find?]
  | k :: keywords, slots, slots', h => by
    rw [List.foldlM_cons] at h
    cases hk : bindKeyword f slots k with
    | error e => rw [hk] at h; cases h
    | ok between =>
      rw [hk] at h
      obtain ⟨hfree, rfl⟩ := bindKeyword_eq_ok_iff.1 hk
      rw [slot?_foldlM p keywords h, Slots.slot?_set, Table.find?]
      by_cases hp : k.1 = p
      · subst hp
        simp [hfree]
      · simp [hp, Ne.symm hp]

theorem isOk_foldlM_iff {f : Function} : ∀ (keywords : List (String × Value)) (slots : Slots),
    (keywords.foldlM (bindKeyword f) slots).isOk = true ↔
      (keywords.map Prod.fst).Nodup ∧ ∀ k ∈ keywords.map Prod.fst, slots.slot? k = some none
  | [], slots => by simp [List.foldlM_nil, Except.isOk, Except.toBool, pure, Except.pure]
  | k :: keywords, slots => by
    rw [List.foldlM_cons, List.map_cons, List.nodup_cons, List.forall_mem_cons]
    by_cases hfree : slots.slot? k.1 = some none
    · rw [bindKeyword_eq_ok_iff.2 ⟨hfree, rfl⟩]
      refine (isOk_foldlM_iff keywords (slots.set k.1 k.2)).trans ?_
      simp only [hfree, true_and, Slots.slot?_set]
      constructor
      · rintro ⟨hn, hall⟩
        have hk : k.1 ∉ keywords.map Prod.fst := fun hm => by simpa [hfree] using hall _ hm
        refine ⟨⟨hk, hn⟩, fun q hq => ?_⟩
        have hne : q ≠ k.1 := fun h => hk (h ▸ hq)
        simpa [hne] using hall q hq
      · rintro ⟨⟨hk, hn⟩, hall⟩
        refine ⟨hn, fun q hq => ?_⟩
        have hne : q ≠ k.1 := fun h => hk (h ▸ hq)
        rw [if_neg hne]
        exact hall q hq
    · cases hk : bindKeyword f slots k with
      | error e =>
        simp only [hfree, false_and, and_false, iff_false]
        exact Bool.false_ne_true
      | ok between => exact absurd (bindKeyword_eq_ok_iff.1 hk).1 hfree

/-- A parameter that positions give something is one of the first. -/
theorem find?_zip_isSome {α : Type} {p : String} : ∀ (ps : List String) (vs : List α),
    (Table.find? p (ps.zip vs)).isSome = true ↔ p ∈ ps.take vs.length
  | [], vs => by simp [Table.find?]
  | q :: ps, [] => by simp [Table.find?]
  | q :: ps, v :: vs => by
    rw [List.zip_cons_cons, Table.find?, List.length_cons, List.take_succ_cons, List.mem_cons]
    by_cases h : q = p
    · simp [h]
    · rw [if_neg h, find?_zip_isSome ps vs]
      simp [Ne.symm h]

theorem slot?_fill_eq_some_none {f : Function} {vs : List Value} {k : String} :
    (Slots.fill f.parameters vs).slot? k = some none ↔ k ∈ f.parameters.drop vs.length := by
  have hsplit := List.take_append_drop vs.length f.parameters
  have hdisj : ∀ k ∈ f.parameters.take vs.length, k ∉ f.parameters.drop vs.length := by
    have := f.parameters_nodup
    rw [← hsplit] at this
    exact fun k h h' => (List.nodup_append.1 this).2.2 k h k h' rfl
  have hmem : k ∈ f.parameters ↔ k ∈ f.parameters.take vs.length ∨ k ∈ f.parameters.drop vs.length := by
    rw [← List.mem_append, hsplit]
  have hnone : Table.find? k (f.parameters.zip vs) = none ↔ k ∉ f.parameters.take vs.length := by
    rw [← find?_zip_isSome, ← Option.not_isSome_iff_eq_none]
  rw [Slots.slot?_fill]
  simp only [hmem]
  by_cases htake : k ∈ f.parameters.take vs.length
  · simp [htake, hnone, hdisj k htake]
  · simp [htake, hnone.2 htake]

/-- **A call binds exactly when the function accepts its positions and its keywords.** -/
theorem bind_isOk_iff (f : Function) (positional : List Value) (keywords : List (String × Value)) :
    (bind f positional keywords).isOk = true ↔ f.Accepts positional.length (keywords.map Prod.fst) := by
  have hkeys : (keywords.foldlM (bindKeyword f) (Slots.fill f.parameters positional)).isOk = true ↔
      (keywords.map Prod.fst).Nodup ∧ ∀ k ∈ keywords.map Prod.fst, k ∈ f.parameters.drop positional.length := by
    rw [isOk_foldlM_iff]
    simp only [slot?_fill_eq_some_none]
  rw [bind, Function.Accepts]
  split
  · rename_i hlt
    simp [Nat.not_le.2 hlt, Except.isOk, Except.toBool]
  · rename_i hle
    rw [← hkeys]
    cases keywords.foldlM (bindKeyword f) (Slots.fill f.parameters positional) <;>
      simp [Except.isOk, Except.toBool, Except.map, Nat.not_lt.1 hle]

theorem bind_eq_ok {f : Function} {positional : List Value} {keywords : List (String × Value)} {args : Arguments}
    (h : bind f positional keywords = .ok args) :
    args.function = f ∧ f.Accepts positional.length (keywords.map Prod.fst) ∧
      keywords.foldlM (bindKeyword f) (Slots.fill f.parameters positional) = .ok args.slots := by
  have haccepts := (bind_isOk_iff f positional keywords).1 (by rw [h]; rfl)
  rw [bind] at h
  split at h
  · cases h
  · cases hk : keywords.foldlM (bindKeyword f) (Slots.fill f.parameters positional) with
    | error e => rw [hk] at h; cases h
    | ok slots =>
      rw [hk] at h
      cases h
      exact ⟨rfl, haccepts, rfl⟩

/-- **A parameter is given what stands in its position, else the keyword for it.** -/
theorem given?_bind {f : Function} {positional : List Value} {keywords : List (String × Value)} {args : Arguments}
    (h : bind f positional keywords = .ok args) {p : String} (hp : p ∈ f.parameters) :
    args.given? p = (Table.find? p (f.parameters.zip positional)).or (Table.find? p keywords) := by
  rw [given?, slot?_foldlM p keywords (bind_eq_ok h).2.2, Slots.slot?_fill, if_pos hp]
  rfl

theorem mem_parameters_of_given? {f : Function} {positional : List Value} {keywords : List (String × Value)}
    {args : Arguments} (h : bind f positional keywords = .ok args) {p : String} {v : Value}
    (hv : args.given? p = some v) : p ∈ f.parameters := by
  by_contra hp
  rw [given?, slot?_foldlM p keywords (bind_eq_ok h).2.2, Slots.slot?_fill, if_neg hp] at hv
  cases hv

theorem required_eq_ok_iff {args : Arguments} {p : String} {v : Value} :
    args.required p = .ok v ↔ args.given? p = some v := by
  rw [required]
  split <;> rename_i h <;> simp [h]

end Arguments
end Scoresheet
