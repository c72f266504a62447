/-!
# Reading from the front

A reader takes the characters that are left and returns what it found with fewer of them.  That there are fewer is part
of the result, so readers that call one another end.
-/
namespace Scoresheet.Text

/-- What a reader found, and the characters left, fewer than `bound`. -/
structure Parsed (α : Type) (bound : Nat) where
  value : α
  rest : List Char
  shorter : rest.length < bound

namespace Parsed

variable {α β : Type} {bound : Nat}

/-- A value in place of one character, with the characters after it. -/
def leaving (a : α) (rest : List Char) : Parsed α (rest.length + 1) := ⟨a, rest, Nat.lt_succ_self rest.length⟩

/-- The same with another value. -/
def map (f : α → β) (p : Parsed α bound) : Parsed β bound := ⟨f p.value, p.rest, p.shorter⟩

/-- The same behind one more character. -/
def behind (p : Parsed α bound) : Parsed α (bound + 1) := ⟨p.value, p.rest, Nat.lt_succ_of_lt p.shorter⟩

/-- What is found where another reader stopped. -/
def andThen (p : Parsed α bound) (q : Parsed β p.rest.length) : Parsed β bound :=
  ⟨q.value, q.rest, Nat.lt_trans q.shorter p.shorter⟩

/-- What is found where another reader stopped, if only because nothing stood there. -/
def orThen (p : Parsed α bound) (q : Parsed β (p.rest.length + 1)) : Parsed β bound :=
  ⟨q.value, q.rest, Nat.lt_of_lt_of_le q.shorter p.shorter⟩

/-- A value that takes nothing: the character that was looked at is left. -/
def putBack (b : β) (p : Parsed Char bound) : Parsed β (bound + 1) :=
  ⟨b, p.value :: p.rest, Nat.succ_lt_succ p.shorter⟩

end Parsed

theorem length_dropWhile_le {α : Type} (p : α → Bool) : ∀ xs : List α, (xs.dropWhile p).length ≤ xs.length
  | [] => by simp
  | x :: xs => by
    have := length_dropWhile_le p xs
    by_cases h : p x = true <;> simp [h]; omega

theorem length_drop_lt (n : Nat) (cs : List Char) : (cs.drop n).length < cs.length + 1 := by
  rw [List.length_drop]; omega

end Scoresheet.Text
