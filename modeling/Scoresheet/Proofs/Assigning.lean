import Scoresheet.Proofs.Binding
import Scoresheet.Proofs.Reordering
/-!
# What a call assigns

A call assigns values, null among them, to some of the parameters of its function.  It may be written in many ways:
values for the first parameters in positions, and keywords, in any order, for the others that are given one.  Every way
of writing an assignment binds to the same slots, and nothing else binds to them (`bind_eq_ok_assigned_iff`).  A call
that does not bind has too many positions, a keyword that is no parameter, or a parameter that is given twice
(`not_accepts_iff`).
-/
namespace Scoresheet

open Table (find? find?_eq_some_iff_of_nodup)

/-! ## Names of slots -/

namespace Slots

theorem names_fill : ∀ (ps : List String) (vs : List Value), (fill ps vs).map Prod.fst = ps
  | [], _ => rfl
  | p :: ps, [] => congrArg (p :: ·) (names_fill ps [])
  | p :: ps, _ :: vs => congrArg (p :: ·) (names_fill ps vs)

theorem names_set (slots : Slots) (p : String) (v : Value) : (slots.set p v).map Prod.fst = slots.map Prod.fst := by
  rw [set, List.map_map]
  refine List.map_congr_left fun s _ => ?_
  dsimp only [Function.comp]
  split <;> rfl

/-- Slots are what is found in them, name by name. -/
theorem eq_map_slot? : ∀ {slots : Slots}, (slots.map Prod.fst).Nodup →
    slots = (slots.map Prod.fst).map fun p => (p, (slots.slot? p).join)
  | [], _ => rfl
  | s :: slots, h => by
    obtain ⟨hs, hslots⟩ := List.nodup_cons.1 h
    rw [List.map_cons, List.map_cons, slot?_cons, if_pos rfl]
    refine congrArg (s :: ·) ((eq_map_slot? hslots).trans (List.map_congr_left fun p hp => ?_))
    have hne : s.1 ≠ p := fun he => hs (he ▸ hp)
    rw [slot?_cons, if_neg hne]

end Slots

namespace Arguments

variable {f : Function} {positional : List Value} {keywords : List (String × Value)} {given : String → Option Value}

theorem names_foldlM : ∀ (keywords : List (String × Value)) {slots slots' : Slots},
    keywords.foldlM (bindKeyword f) slots = .ok slots' → slots'.map Prod.fst = slots.map Prod.fst
  | [], slots, slots', h => by
    cases h
    rfl
  | k :: keywords, slots, slots', h => by
    rw [List.foldlM_cons] at h
    cases hk : bindKeyword f slots k with
    | error e => rw [hk] at h; cases h
    | ok between =>
      rw [hk] at h
      obtain ⟨-, rfl⟩ := bindKeyword_eq_ok_iff.1 hk
      exact (names_foldlM keywords h).trans (Slots.names_set _ _ _)

/-! ## What is written -/

/-- The values of a call with the parameters that they are for: the first parameters for the positions, and then the
keywords. -/
def written (f : Function) (positional : List Value) (keywords : List (String × Value)) : List (String × Value) :=
  f.parameters.zip positional ++ keywords

/-- The slots of a function whose parameters are given what an assignment says. -/
def assigned (f : Function) (given : String → Option Value) : Arguments :=
  ⟨f, f.parameters.map fun p => (p, given p)⟩

theorem names_zip {α : Type} : ∀ (ps : List String) (vs : List α), (ps.zip vs).map Prod.fst = ps.take vs.length
  | [], _ => by simp
  | p :: ps, [] => rfl
  | p :: ps, _ :: vs => congrArg (p :: ·) (names_zip ps vs)

theorem names_written (f : Function) (positional : List Value) (keywords : List (String × Value)) :
    (written f positional keywords).map Prod.fst =
      f.parameters.take positional.length ++ keywords.map Prod.fst := by
  rw [written, List.map_append, names_zip]

theorem find?_append {α : Type} (p : String) : ∀ l m : List (String × α),
    find? p (l ++ m) = (find? p l).or (find? p m)
  | [], m => (Option.none_or).symm
  | e :: l, m => by
    rw [List.cons_append, find?, find?, find?_append p l m]
    split <;> rfl

theorem notMem_drop_of_mem_take {n : Nat} {p : String} (h : p ∈ f.parameters.take n) : p ∉ f.parameters.drop n := by
  have hnodup := f.parameters_nodup
  rw [← List.take_append_drop n f.parameters] at hnodup
  exact fun hdrop => (List.nodup_append.1 hnodup).2.2 p h p hdrop rfl

/-- **What is written for a function that accepts it has each parameter once.** -/
theorem nodup_written (h : f.Accepts positional.length (keywords.map Prod.fst)) :
    ((written f positional keywords).map Prod.fst).Nodup := by
  rw [names_written, List.nodup_append]
  refine ⟨f.parameters_nodup.sublist (List.take_sublist _ _), h.2.1, fun p htake k hk => ?_⟩
  rintro rfl
  exact notMem_drop_of_mem_take htake (h.2.2 p hk)

theorem find?_written_of_mem_take {p : String} (h : p ∈ f.parameters.take positional.length) :
    find? p (written f positional keywords) = find? p (f.parameters.zip positional) := by
  obtain ⟨v, hv⟩ := Option.isSome_iff_exists.1 ((find?_zip_isSome _ _).2 h)
  rw [written, find?_append, hv, Option.some_or]

theorem find?_written_of_mem_drop {p : String} (h : p ∈ f.parameters.drop positional.length) :
    find? p (written f positional keywords) = find? p keywords := by
  have hnone : find? p (f.parameters.zip positional) = none := by
    rw [← Option.not_isSome_iff_eq_none, find?_zip_isSome]
    exact fun htake => notMem_drop_of_mem_take htake h
  rw [written, find?_append, hnone, Option.none_or]

/-- **A call binds to the slots that hold what is written for them.** -/
theorem bind_eq_ok_iff {args : Arguments} : bind f positional keywords = .ok args ↔
    f.Accepts positional.length (keywords.map Prod.fst) ∧
      args = assigned f fun p => find? p (written f positional keywords) := by
  have hslots : ∀ {args : Arguments}, bind f positional keywords = .ok args →
      args = assigned f fun p => find? p (written f positional keywords) := by
    rintro ⟨f', slots⟩ h
    obtain ⟨rfl, -, hfold⟩ := bind_eq_ok h
    have hnames : slots.map Prod.fst = f'.parameters := (names_foldlM keywords hfold).trans (Slots.names_fill _ _)
    have hnodup : (slots.map Prod.fst).Nodup := hnames ▸ f'.parameters_nodup
    have hmap := Slots.eq_map_slot? hnodup
    rw [hnames] at hmap
    rw [assigned, hmap]
    refine congrArg _ (List.map_congr_left fun p hp => ?_)
    rw [written, find?_append]
    exact congrArg _ (given?_bind h hp)
  constructor
  · exact fun h => ⟨(bind_eq_ok h).2.1, hslots h⟩
  · rintro ⟨haccepts, rfl⟩
    obtain ⟨args, h⟩ := exists_ok ((bind_isOk_iff f positional keywords).2 haccepts)
    rw [h, hslots h]

/-! ## Ways of writing -/

/-- A way of writing an assignment: the values of the first parameters in positions, and the values of the others that
are given one as keywords, in any order. -/
structure Writes (f : Function) (given : String → Option Value) (positional : List Value)
    (keywords : List (String × Value)) : Prop where
  positions : (f.parameters.take positional.length).map given = positional.map some
  keywords : keywords.Perm ((f.parameters.drop positional.length).filterMap fun p => (given p).map fun v => (p, v))

theorem Writes.length_le (h : Writes f given positional keywords) : positional.length ≤ f.parameters.length := by
  have hlength := congrArg List.length h.positions
  rw [List.length_map, List.length_map, List.length_take] at hlength
  omega

theorem mem_given {ps : List String} {p : String} {v : Value} :
    (p, v) ∈ (ps.filterMap fun p => (given p).map fun v => (p, v)) ↔ p ∈ ps ∧ given p = some v := by
  simp [List.mem_filterMap]

/-- What an assignment gives to some parameters, each value with its parameter. -/
theorem names_given_sublist (given : String → Option Value) : ∀ ps : List String,
    ((ps.filterMap fun p => (given p).map fun v => (p, v)).map Prod.fst).Sublist ps
  | [] => .slnil
  | p :: ps => by
    rw [List.filterMap_cons]
    cases given p with
    | none => exact (names_given_sublist given ps).cons p
    | some v => exact (names_given_sublist given ps).cons_cons p

theorem nodup_given (given : String → Option Value) (n : Nat) :
    (((f.parameters.drop n).filterMap fun p => (given p).map fun v => (p, v)).map Prod.fst).Nodup :=
  (f.parameters_nodup.sublist (List.drop_sublist _ _)).sublist (names_given_sublist given _)

theorem Writes.accepts (h : Writes f given positional keywords) :
    f.Accepts positional.length (keywords.map Prod.fst) := by
  have hnames := h.keywords.map Prod.fst
  have hsub := names_given_sublist given (f.parameters.drop positional.length)
  exact ⟨h.length_le, hnames.nodup_iff.2 (nodup_given given _), fun k hk => hsub.subset (hnames.mem_iff.1 hk)⟩

/-- The first parameters find the positions. -/
theorem map_find?_zip {α : Type} : ∀ {ps : List String} {vs : List α}, ps.Nodup → vs.length ≤ ps.length →
    (ps.take vs.length).map (fun p => find? p (ps.zip vs)) = vs.map some
  | _, [], _, _ => by simp
  | [], _ :: _, _, h => by simp at h
  | p :: ps, v :: vs, hnodup, h => by
    obtain ⟨hp, hps⟩ := List.nodup_cons.1 hnodup
    rw [List.length_cons, List.take_succ_cons, List.map_cons, List.map_cons, List.zip_cons_cons, find?, if_pos rfl,
      ← map_find?_zip hps (Nat.le_of_succ_le_succ h)]
    refine congrArg _ (List.map_congr_left fun q hq => ?_)
    have hne : p ≠ q := fun he => hp (he ▸ List.mem_of_mem_take hq)
    rw [find?, if_neg hne]

/-- **A way of writing is one that the function accepts and in which every parameter finds what it is given.** -/
theorem writes_iff : Writes f given positional keywords ↔
    f.Accepts positional.length (keywords.map Prod.fst) ∧
      ∀ p ∈ f.parameters, find? p (written f positional keywords) = given p := by
  have hpositions : positional.length ≤ f.parameters.length →
      ((f.parameters.take positional.length).map given = positional.map some ↔
        ∀ p ∈ f.parameters.take positional.length, find? p (written f positional keywords) = given p) := by
    intro hle
    rw [← map_find?_zip f.parameters_nodup hle, List.map_inj_left]
    refine forall₂_congr fun p hp => ?_
    rw [find?_written_of_mem_take hp, eq_comm]
  constructor
  · intro h
    refine ⟨h.accepts, fun p hp => ?_⟩
    rw [← List.take_append_drop positional.length f.parameters, List.mem_append] at hp
    rcases hp with htake | hdrop
    · exact (hpositions h.length_le).1 h.positions p htake
    · refine Option.ext fun v => ?_
      rw [find?_written_of_mem_drop hdrop, find?_eq_some_iff_of_nodup h.accepts.2.1, h.keywords.mem_iff,
        mem_given, and_iff_right hdrop]
  · rintro ⟨haccepts, hfind⟩
    refine ⟨(hpositions haccepts.1).2 fun p hp => hfind p (List.mem_of_mem_take hp), ?_⟩
    -- neither side has a parameter twice, so it is enough that they have the same members
    refine (List.perm_ext_iff_of_nodup (haccepts.2.1.of_map _) ((nodup_given given _).of_map _)).2 fun ⟨p, v⟩ => ?_
    have hkeyword : (p, v) ∈ keywords → p ∈ f.parameters.drop positional.length := fun h =>
      haccepts.2.2 p (List.mem_map_of_mem h)
    rw [mem_given]
    constructor
    · intro h
      have hdrop := hkeyword h
      rw [← hfind p (List.mem_of_mem_drop hdrop), find?_written_of_mem_drop hdrop]
      exact ⟨hdrop, (find?_eq_some_iff_of_nodup haccepts.2.1).2 h⟩
    · rintro ⟨hdrop, h⟩
      rw [← hfind p (List.mem_of_mem_drop hdrop), find?_written_of_mem_drop hdrop] at h
      exact (find?_eq_some_iff_of_nodup haccepts.2.1).1 h

/-- **A call binds to an assignment exactly when it is a way of writing it.** -/
theorem bind_eq_ok_assigned_iff :
    bind f positional keywords = .ok (assigned f given) ↔ Writes f given positional keywords := by
  rw [bind_eq_ok_iff, writes_iff, and_congr_right_iff]
  intro _
  rw [assigned, assigned, Arguments.mk.injEq, and_iff_right rfl, List.map_inj_left]
  refine forall₂_congr fun p _ => ?_
  rw [Prod.mk.injEq, and_iff_right rfl, eq_comm]

/-! ## Calls that do not bind -/

/-- **What a function does not accept** are more positions than parameters, a keyword that is no parameter, and a
parameter that is given twice. -/
theorem not_accepts_iff : ¬ f.Accepts positional.length (keywords.map Prod.fst) ↔
    f.parameters.length < positional.length ∨ (∃ k ∈ keywords, k.1 ∉ f.parameters) ∨
      ∃ p ∈ f.parameters, 1 < ((written f positional keywords).map Prod.fst).count p := by
  rw [← not_iff_not, not_not]
  simp only [not_or, not_exists, not_and, not_not, Nat.not_lt]
  constructor
  · intro h
    refine ⟨h.1, fun k hk => List.mem_of_mem_drop (h.2.2 _ (List.mem_map_of_mem hk)), fun p _ => ?_⟩
    exact List.nodup_iff_count_le_one.1 (nodup_written h) p
  · rintro ⟨hle, hknown, honce⟩
    rw [names_written] at honce
    have hkeys : ∀ k ∈ keywords.map Prod.fst, k ∈ f.parameters := by simpa using hknown
    refine ⟨hle, List.nodup_iff_count_le_one.2 fun k => ?_, fun k hk => ?_⟩
    · by_cases hk : k ∈ keywords.map Prod.fst
      · have hcount := honce k (hkeys k hk)
        rw [List.count_append] at hcount
        omega
      · rw [List.count_eq_zero_of_not_mem hk]
        exact Nat.zero_le 1
    · have hmem := hkeys k hk
      rw [← List.take_append_drop positional.length f.parameters, List.mem_append] at hmem
      refine hmem.resolve_left fun htake => ?_
      have hcount := honce k (hkeys k hk)
      rw [List.count_append] at hcount
      have hposition := List.count_pos_iff.2 htake
      have hkeyword := List.count_pos_iff.2 hk
      omega

/-- **Binding does not depend on how a call is written.**  Every way of writing an assignment, with the values of the
first parameters in positions and those of the others as keywords in any order, binds to the slots of the assignment,
and so does nothing else; and a call fails to bind exactly when there are more positions than parameters, a keyword is
no parameter, or a parameter is given twice. -/
theorem bind_assigns (f : Function) (positional : List Value) (keywords : List (String × Value)) :
    (∀ given, bind f positional keywords = .ok (assigned f given) ↔ Writes f given positional keywords) ∧
    ((∃ e, bind f positional keywords = .error e) ↔
      f.parameters.length < positional.length ∨ (∃ k ∈ keywords, k.1 ∉ f.parameters) ∨
        ∃ p ∈ f.parameters, 1 < ((written f positional keywords).map Prod.fst).count p) := by
  refine ⟨fun given => bind_eq_ok_assigned_iff, ?_⟩
  rw [← not_accepts_iff, ← bind_isOk_iff]
  cases bind f positional keywords <;> simp [Except.isOk, Except.toBool]

end Arguments
end Scoresheet
