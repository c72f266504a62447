import Scoresheet.Proofs.Placing
import Scoresheet.Context
/-!
# Looking names up: short names track their codes

While a sheet is scored only outputs are added to a context, and a short name always means what its code does: the
output stored under it, or else the parameters or the input (`Tracks`).  So a name that is no code, parameter map or
input of its own means the output of the code it stands for, or else that code's input (`lookup_eq`).
-/
namespace Scoresheet

/-- Kept for internal keys: two underscores in front. -/
def Text.isInternal (s : String) : Bool := ['_', '_'].isPrefixOf s.toList

theorem Text.isInternal_of_isSafeName {s : String} (h : Text.isSafeName s = true) : Text.isInternal s = false := by
  simp only [Text.isSafeName, Bool.and_eq_true, Bool.not_eq_true'] at h
  exact h.2

theorem isInternal_crashKey (code : String) : Text.isInternal (crashKey code) = true := by
  rw [Text.isInternal, crashKey, String.toList_append]
  rfl

/-! ## Inputs -/

theorem Field.get?_contribute (f : Field) (raw inputs : Table Value) {k : String} (h : k ≠ f.code)
    (h' : f.tracksCrash = true → k ≠ crashKey f.code) : (f.contribute raw inputs).get? k = inputs.get? k := by
  unfold Field.contribute
  split
  · rfl
  · dsimp only
    split
    · rename_i htracks
      rw [Table.get?_insert_of_ne _ _ h, Table.get?_insert_of_ne _ _ (h' htracks)]
    · rw [Table.get?_insert_of_ne _ _ h]

theorem Field.contains_contribute (f : Field) (raw inputs : Table Value) {k : String}
    (h : (inputs.get? k).isSome = true ∨ k = f.code ∧ f.code.isEmpty = false) :
    ((f.contribute raw inputs).get? k).isSome = true := by
  unfold Field.contribute
  rcases h with h | ⟨rfl, h⟩
  · split
    · exact h
    · dsimp only
      rw [Table.get?_insert]
      split
      · rfl
      · split
        · rw [Table.get?_insert]
          split
          · rfl
          · exact h
        · exact h
  · simp [h]

/-- **The keys of inputs are codes of fields and their crash keys.** -/
theorem get?_normalize_eq_none {k : String} (raw : Table Value) :
    ∀ (fields : List Field), (∀ f ∈ fields, k ≠ f.code ∧ k ≠ crashKey f.code) →
      (normalize fields raw).get? k = none := by
  intro fields
  unfold normalize
  suffices ∀ inputs : Table Value, (∀ f ∈ fields, k ≠ f.code ∧ k ≠ crashKey f.code) → inputs.get? k = none →
      (fields.foldl (fun inputs f => f.contribute raw inputs) inputs).get? k = none from
    fun h => this .empty h rfl
  induction fields with
  | nil => exact fun inputs _ h => h
  | cons f fields ih =>
    intro inputs h hk
    obtain ⟨hf, hfs⟩ := List.forall_mem_cons.1 h
    exact ih _ hfs ((f.get?_contribute raw inputs hf.1 fun _ => hf.2).trans hk)

/-- **Every field has an input.** -/
theorem isSome_normalize (raw : Table Value) {f : Field} (hcode : f.code.isEmpty = false) :
    ∀ (fields : List Field), f ∈ fields → ((normalize fields raw).get? f.code).isSome = true := by
  intro fields
  unfold normalize
  suffices ∀ inputs : Table Value, f ∈ fields ∨ (inputs.get? f.code).isSome = true →
      ((fields.foldl (fun inputs f => f.contribute raw inputs) inputs).get? f.code).isSome = true from
    fun h => this .empty (.inl h)
  induction fields with
  | nil =>
    rintro inputs (h | h)
    · cases h
    · exact h
  | cons f' fields ih =>
    rintro inputs (h | h)
    · rcases List.mem_cons.1 h with rfl | h
      · exact ih _ (.inr (f.contains_contribute raw inputs (.inr ⟨rfl, hcode⟩)))
      · exact ih _ (.inl h)
    · exact ih _ (.inr (f'.contains_contribute raw inputs (.inl h)))

/-! ## Short names -/

/-- The entries of short names for a code, each put to a value. -/
theorem get?_foldl_insert {α : Type} (code : String) (v : α) (k : String) :
    ∀ (l : List (String × String)) (t : Table α), l.Pairwise (fun a b => a.1 < b.1) →
      (l.foldl (fun t a => if a.2 = code then t.insert a.1 v else t) t).get? k =
        if Table.find? k l = some code then some v else t.get? k
  | [], t, _ => by simp [Table.find?]
  | (k', c) :: l, t, h => by
    obtain ⟨hlt, hl⟩ := List.pairwise_cons.1 h
    rw [List.foldl_cons, get?_foldl_insert code v k l _ hl, Table.find?]
    by_cases hk : k' = k
    · subst hk
      rw [Table.find?_eq_none_of_lt hlt, if_pos rfl]
      by_cases hc : c = code <;> simp [hc]
    · rw [if_neg hk]
      by_cases hc : c = code
      · rw [if_pos hc, Table.get?_insert_of_ne _ _ (Ne.symm hk)]
      · rw [if_neg hc]

namespace Context

open Plan (target)

/-- What a code means: the output stored under it, else the parameters or the input. -/
def meaning (cx : Context) (code : String) : Option Value :=
  (cx.outputs.get? code).or (base? cx.schema cx.inputs code)

/-- **A short name means what its code means**, and no other name is a short one. -/
def Tracks (cx : Context) : Prop := ∀ k, cx.shortcuts.get? k = (cx.aliases.get? k).bind cx.meaning

theorem tracks_start (schema : Schema) (inputs : Table Value) (aliases : Table String) :
    (start schema inputs aliases).Tracks := by
  intro k
  rw [start, Table.get?_filterMap]
  rfl

theorem meaning_store (cx : Context) (code : String) (v : Value) (c : String) :
    (cx.store code v).meaning c = if c = code then some v else cx.meaning c := by
  rw [meaning, store, Table.get?_insert]
  by_cases hc : c = code <;> simp [hc, meaning]

theorem shortcuts_store (cx : Context) (code : String) (v : Value) (k : String) :
    (cx.store code v).shortcuts.get? k = if cx.aliases.get? k = some code then some v else cx.shortcuts.get? k :=
  get?_foldl_insert code v k _ _ cx.aliases.sorted

theorem tracks_store {cx : Context} (h : cx.Tracks) (code : String) (v : Value) : (cx.store code v).Tracks := by
  intro k
  rw [shortcuts_store, h k]
  show _ = (cx.aliases.get? k).bind (cx.store code v).meaning
  cases ha : cx.aliases.get? k with
  | none => simp
  | some c =>
    rw [Option.bind_some, Option.bind_some, meaning_store]
    by_cases hc : c = code <;> simp [hc]

/-- Outputs stored one after the other. -/
def storeAll (cx : Context) (l : List (String × Value)) : Context := l.foldl (fun cx e => cx.store e.1 e.2) cx

@[simp] theorem storeAll_nil (cx : Context) : cx.storeAll [] = cx := rfl

@[simp] theorem storeAll_cons (cx : Context) (e : String × Value) (l : List (String × Value)) :
    cx.storeAll (e :: l) = (cx.store e.1 e.2).storeAll l := rfl

@[simp] theorem storeAll_schema : ∀ (l : List (String × Value)) (cx : Context), (cx.storeAll l).schema = cx.schema
  | [], _ => rfl
  | e :: l, cx => storeAll_schema l (cx.store e.1 e.2)

@[simp] theorem storeAll_inputs : ∀ (l : List (String × Value)) (cx : Context), (cx.storeAll l).inputs = cx.inputs
  | [], _ => rfl
  | e :: l, cx => storeAll_inputs l (cx.store e.1 e.2)

@[simp] theorem storeAll_aliases : ∀ (l : List (String × Value)) (cx : Context), (cx.storeAll l).aliases = cx.aliases
  | [], _ => rfl
  | e :: l, cx => storeAll_aliases l (cx.store e.1 e.2)

theorem tracks_storeAll : ∀ (l : List (String × Value)) {cx : Context}, cx.Tracks → (cx.storeAll l).Tracks
  | [], _, h => h
  | e :: l, _, h => tracks_storeAll l (tracks_store h e.1 e.2)

theorem outputs_storeAll_of_notMem {k : String} : ∀ (l : List (String × Value)) (cx : Context), k ∉ l.map Prod.fst →
    (cx.storeAll l).outputs.get? k = cx.outputs.get? k
  | [], _, _ => rfl
  | e :: l, cx, h => by
    rw [List.map_cons, List.mem_cons, not_or] at h
    rw [storeAll_cons, outputs_storeAll_of_notMem l _ h.2]
    exact Table.get?_insert_of_ne _ _ h.1

theorem outputs_storeAll_of_mem {k : String} {v : Value} :
    ∀ (l : List (String × Value)) (cx : Context), (l.map Prod.fst).Nodup → (k, v) ∈ l →
      (cx.storeAll l).outputs.get? k = some v
  | [], _, _, h => by cases h
  | e :: l, cx, hn, h => by
    obtain ⟨he, hl⟩ := List.nodup_cons.1 hn
    rw [storeAll_cons]
    rcases List.mem_cons.1 h with rfl | h
    · rw [outputs_storeAll_of_notMem l _ he]
      exact Table.get?_insert_self _ _ _
    · exact outputs_storeAll_of_mem l _ hl h

/-- **A name means what the code means that it stands for**, unless it is a short name that also is a code, the
parameters or an input. -/
theorem lookup_eq {cx : Context} (h : cx.Tracks) {name : String}
    (hshort : cx.aliases.contains name = true → cx.meaning name = none) :
    cx.lookup name = cx.meaning (target cx.aliases name) := by
  rw [lookup, h name, target]
  cases ha : cx.aliases.get? name with
  | none => simp [meaning]
  | some code =>
    have hnone := hshort (by rw [Table.contains, ha]; rfl)
    rw [meaning, Option.or_eq_none_iff] at hnone
    rw [hnone.1, hnone.2]
    simp

/-- A name means something when the code it stands for does. -/
theorem lookup_isSome {cx : Context} (h : cx.Tracks) {name : String}
    (hmean : (cx.meaning (target cx.aliases name)).isSome = true) : (cx.lookup name).isSome = true := by
  rw [target] at hmean
  rw [lookup, h name]
  cases ha : cx.aliases.get? name with
  | none => simpa [ha, meaning] using hmean
  | some code =>
    rw [ha, Option.getD_some] at hmean
    simp [hmean]

theorem canonical_eq {cx : Context} {name : String}
    (h : cx.aliases.contains name = true → cx.outputs.get? name = none) : cx.canonical name = target cx.aliases name := by
  rw [canonical, target]
  split
  · rename_i hout
    cases ha : cx.aliases.get? name with
    | none => rfl
    | some code =>
      rw [Table.contains, h (by rw [Table.contains, ha]; rfl)] at hout
      cases hout
  · rfl

end Context
end Scoresheet
