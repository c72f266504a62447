/-!
# Stable sorting

Sorting by insertion: short lists, and a definition that evaluates step by step.  Entries that compare equal keep the
order they were given in.
-/
namespace Scoresheet

variable {α : Type}

/-- An entry put before the first one that it does not come after. -/
def insertBy (le : α → α → Bool) (x : α) : List α → List α
  | [] => [x]
  | y :: ys => if le x y then x :: y :: ys else y :: insertBy le x ys

/-- The entries in increasing order. -/
def sortBy (le : α → α → Bool) (xs : List α) : List α := xs.foldr (insertBy le) []

theorem insertBy_perm (le : α → α → Bool) (x : α) : ∀ ys : List α, (insertBy le x ys).Perm (x :: ys)
  | [] => .refl _
  | y :: ys => by
    unfold insertBy
    split
    · exact .refl _
    · exact ((insertBy_perm le x ys).cons y).trans (.swap x y ys)

theorem sortBy_perm (le : α → α → Bool) : ∀ xs : List α, (sortBy le xs).Perm xs
  | [] => .refl _
  | x :: xs => (insertBy_perm le x _).trans ((sortBy_perm le xs).cons x)

@[simp] theorem length_sortBy (le : α → α → Bool) (xs : List α) : (sortBy le xs).length = xs.length :=
  (sortBy_perm le xs).length_eq

theorem mem_sortBy {le : α → α → Bool} {xs : List α} {x : α} : x ∈ sortBy le xs ↔ x ∈ xs :=
  (sortBy_perm le xs).mem_iff

theorem insertBy_pairwise {le : α → α → Bool} (trans : ∀ a b c, le a b → le b c → le a c)
    (total : ∀ a b, le a b || le b a) (x : α) :
    ∀ {ys : List α}, ys.Pairwise (fun a b => le a b) → (insertBy le x ys).Pairwise fun a b => le a b
  | [], _ => by simp [insertBy]
  | y :: ys, h => by
    obtain ⟨hy, hys⟩ := List.pairwise_cons.1 h
    unfold insertBy
    split
    · rename_i hxy
      refine List.pairwise_cons.2 ⟨fun z hz => ?_, h⟩
      rcases List.mem_cons.1 hz with rfl | hz
      · exact hxy
      · exact trans x y z hxy (hy z hz)
    · rename_i hxy
      refine List.pairwise_cons.2 ⟨fun z hz => ?_, insertBy_pairwise trans total x hys⟩
      rcases List.mem_cons.1 ((insertBy_perm le x ys).mem_iff.1 hz) with rfl | hz
      · have := total z y
        simpa [hxy] using this
      · exact hy z hz

theorem sortBy_pairwise {le : α → α → Bool} (trans : ∀ a b c, le a b → le b c → le a c)
    (total : ∀ a b, le a b || le b a) : ∀ xs : List α, (sortBy le xs).Pairwise fun a b => le a b
  | [] => .nil
  | x :: xs => insertBy_pairwise trans total x (sortBy_pairwise trans total xs)

end Scoresheet
