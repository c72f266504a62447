/-!
# Tables

Values under text keys, in increasing order of the keys.  The order is part of the type, so two tables with the same
look-ups are the same table, and whatever is written from a table comes out sorted.

The view of a table is its look-up `get?`; each operation has one lemma about it.
-/
namespace Scoresheet

/-- Entries in strictly increasing order of their keys. -/
structure Table (α : Type) where
  entries : List (String × α)
  sorted : entries.Pairwise (fun a b => a.1 < b.1)

namespace Table

variable {α β : Type}

/-! ## Look-up and insertion on lists of entries -/

/-- The value of the first entry with the key. -/
def find? (k : String) : List (String × α) → Option α
  | [] => none
  | (k', v) :: rest => if k' = k then some v else find? k rest

/-- The entry put before the first one with a larger key, in place of one with the same key. -/
def put (k : String) (v : α) : List (String × α) → List (String × α)
  | [] => [(k, v)]
  | (k', v') :: rest =>
    if k < k' then (k, v) :: (k', v') :: rest
    else if k' = k then (k, v) :: rest
    else (k', v') :: put k v rest

@[simp] theorem find?_put_self (k : String) (v : α) : ∀ l : List (String × α), find? k (put k v l) = some v
  | [] => by simp [put, find?]
  | (k', v') :: rest => by
    unfold put
    split
    · simp [find?]
    · split
      · simp [find?]
      · rename_i _ hne
        simp [find?, hne, find?_put_self k v rest]

theorem find?_put_of_ne {k k₁ : String} (v : α) (h : k₁ ≠ k) :
    ∀ l : List (String × α), find? k₁ (put k v l) = find? k₁ l
  | [] => by simp [put, find?, Ne.symm h]
  | (k', v') :: rest => by
    unfold put
    split
    · simp [find?, Ne.symm h]
    · split
      · rename_i _ heq
        subst heq
        simp [find?, Ne.symm h]
      · simp only [find?]
        rw [find?_put_of_ne v h rest]

theorem mem_put {k : String} {v : α} {e : String × α} :
    ∀ {l : List (String × α)}, e ∈ put k v l → e = (k, v) ∨ e ∈ l
  | [], he => by simpa [put] using he
  | (k', v') :: rest, he => by
    unfold put at he
    split at he
    · simpa using he
    · split at he
      · rcases List.mem_cons.1 he with rfl | he
        · exact .inl rfl
        · exact .inr (List.mem_cons_of_mem _ he)
      · rcases List.mem_cons.1 he with rfl | he
        · exact .inr List.mem_cons_self
        · exact (mem_put he).imp_right (List.mem_cons_of_mem _)

theorem sorted_put (k : String) (v : α) :
    ∀ {l : List (String × α)}, l.Pairwise (fun a b => a.1 < b.1) → (put k v l).Pairwise (fun a b => a.1 < b.1)
  | [], _ => by simp [put]
  | (k', v') :: rest, h => by
    obtain ⟨hhead, hrest⟩ := List.pairwise_cons.1 h
    unfold put
    split
    · rename_i hlt
      refine List.pairwise_cons.2 ⟨fun e he => ?_, h⟩
      rcases List.mem_cons.1 he with rfl | he
      · exact hlt
      · exact String.lt_trans hlt (hhead e he)
    · rename_i hnlt
      split
      · rename_i heq
        subst heq
        exact List.pairwise_cons.2 ⟨hhead, hrest⟩
      · rename_i hne
        refine List.pairwise_cons.2 ⟨fun e he => ?_, sorted_put k v hrest⟩
        rcases mem_put he with rfl | he
        · exact Decidable.byContradiction fun hn =>
            hne (String.le_antisymm (String.not_lt.1 hnlt) (String.not_lt.1 hn))
        · exact hhead e he

theorem find?_eq_none_of_lt {k : String} :
    ∀ {l : List (String × α)}, (∀ e ∈ l, k < e.1) → find? k l = none
  | [], _ => rfl
  | (k', v') :: rest, h => by
    have hk : k' ≠ k := fun heq => String.lt_irrefl k (by simpa [heq] using h _ List.mem_cons_self)
    simp only [find?, if_neg hk]
    exact find?_eq_none_of_lt fun e he => h e (List.mem_cons_of_mem _ he)

theorem find?_eq_some_iff {k : String} {v : α} :
    ∀ {l : List (String × α)}, l.Pairwise (fun a b => a.1 < b.1) → (find? k l = some v ↔ (k, v) ∈ l)
  | [], _ => by simp [find?]
  | (k', v') :: rest, h => by
    obtain ⟨hhead, hrest⟩ := List.pairwise_cons.1 h
    by_cases hk : k' = k
    · subst hk
      have hnot : (k', v) ∉ rest := fun hm => String.lt_irrefl k' (hhead (k', v) hm)
      simp only [find?, if_true, Option.some.injEq, List.mem_cons, Prod.mk.injEq, true_and, hnot, or_false]
      exact eq_comm
    · simp only [find?, if_neg hk, List.mem_cons, Prod.mk.injEq, Ne.symm hk, false_and, false_or]
      exact find?_eq_some_iff hrest

/-! ## Tables -/

def empty : Table α := ⟨[], List.Pairwise.nil⟩

instance : Inhabited (Table α) := ⟨empty⟩

/-- The value under a key. -/
def get? (t : Table α) (k : String) : Option α := find? k t.entries

/-- The value put under a key, in place of one that is there. -/
def insert (t : Table α) (k : String) (v : α) : Table α := ⟨put k v t.entries, sorted_put k v t.sorted⟩

def contains (t : Table α) (k : String) : Bool := (t.get? k).isSome

/-- The keys in increasing order. -/
def keys (t : Table α) : List String := t.entries.map (·.1)

/-- The table of a list of entries; of two with one key the later counts. -/
def ofList (l : List (String × α)) : Table α := l.foldl (fun t e => t.insert e.1 e.2) empty

/-- The entries that pass a test on key and value. -/
def filter (p : String → α → Bool) (t : Table α) : Table α :=
  ⟨t.entries.filter fun e => p e.1 e.2, t.sorted.filter _⟩

/-- The entries with their values changed, those without a new value left out. -/
def filterMap (f : α → Option β) (t : Table α) : Table β where
  entries := t.entries.filterMap fun e => (f e.2).map (Prod.mk e.1)
  sorted := by
    refine t.sorted.filterMap _ fun a a' h b hb b' hb' => ?_
    obtain ⟨_, _, rfl⟩ := Option.map_eq_some_iff.1 hb
    obtain ⟨_, _, rfl⟩ := Option.map_eq_some_iff.1 hb'
    exact h

@[simp] theorem get?_empty (k : String) : (empty : Table α).get? k = none := rfl

@[simp] theorem get?_insert_self (t : Table α) (k : String) (v : α) : (t.insert k v).get? k = some v :=
  find?_put_self k v t.entries

theorem get?_insert_of_ne (t : Table α) {k k₁ : String} (v : α) (h : k₁ ≠ k) :
    (t.insert k v).get? k₁ = t.get? k₁ :=
  find?_put_of_ne v h t.entries

theorem get?_insert (t : Table α) (k k₁ : String) (v : α) :
    (t.insert k v).get? k₁ = if k₁ = k then some v else t.get? k₁ := by
  by_cases h : k₁ = k
  · simp [h]
  · simp [h, get?_insert_of_ne]

theorem get?_eq_some_iff (t : Table α) {k : String} {v : α} : t.get? k = some v ↔ (k, v) ∈ t.entries :=
  find?_eq_some_iff t.sorted

theorem contains_eq_true_iff (t : Table α) {k : String} : t.contains k = true ↔ k ∈ t.keys := by
  simp only [contains, Option.isSome_iff_exists, get?_eq_some_iff, keys, List.mem_map, Prod.exists]
  exact ⟨fun ⟨v, hv⟩ => ⟨k, v, hv, rfl⟩, fun ⟨_, v, hv, he⟩ => ⟨v, he ▸ hv⟩⟩

theorem get?_filterMap (f : α → Option β) (t : Table α) (k : String) :
    (t.filterMap f).get? k = (t.get? k).bind f := by
  refine Option.ext fun v => ?_
  simp only [get?_eq_some_iff, filterMap, List.mem_filterMap, Option.map_eq_some_iff, Option.bind_eq_some_iff,
    Prod.mk.injEq, Prod.exists]
  constructor
  · rintro ⟨k', a, ha, b, hb, rfl, rfl⟩
    exact ⟨a, ha, hb⟩
  · rintro ⟨a, ha, hv⟩
    exact ⟨k, a, ha, v, hv, rfl, rfl⟩

/-- Two tables with the same look-ups are equal. -/
theorem ext {t u : Table α} (h : ∀ k, t.get? k = u.get? k) : t = u := by
  obtain ⟨l, hl⟩ := t
  obtain ⟨m, hm⟩ := u
  suffices l = m by subst this; rfl
  induction l generalizing m with
  | nil =>
    cases m with
    | nil => rfl
    | cons e m =>
      have := h e.1
      simp [get?, find?] at this
  | cons d l ih =>
    cases m with
    | nil =>
      have := h d.1
      simp [get?, find?] at this
    | cons e m =>
      obtain ⟨hd, hl'⟩ := List.pairwise_cons.1 hl
      obtain ⟨he, hm'⟩ := List.pairwise_cons.1 hm
      have hkey : d.1 = e.1 := by
        apply String.le_antisymm <;> apply String.not_lt.1 <;> intro hlt
        · have := h e.1
          simp only [get?, find?, if_true] at this
          rw [if_neg (fun hc => String.lt_irrefl _ (hc ▸ hlt)),
            find?_eq_none_of_lt fun x hx => String.lt_trans hlt (hd x hx)] at this
          cases this
        · have := h d.1
          simp only [get?, find?, if_true] at this
          rw [if_neg (fun hc => String.lt_irrefl _ (hc ▸ hlt)),
            find?_eq_none_of_lt fun x hx => String.lt_trans hlt (he x hx)] at this
          cases this
      have hval : d.2 = e.2 := by
        have := h d.1
        simpa [get?, find?, hkey] using this
      have hde : d = e := Prod.ext hkey hval
      subst hde
      congr 1
      refine ih hl' m hm' fun k => ?_
      by_cases hk : d.1 = k
      · subst hk
        simp only [get?]
        rw [find?_eq_none_of_lt hd, find?_eq_none_of_lt he]
      · have := h k
        simpa only [get?, find?, if_neg hk] using this

end Table

end Scoresheet
