import Mathlib.Data.Finset.Card
import Mathlib.Data.Finset.Filter
import Mathlib.Data.Finset.Range
import Mathlib.Logic.Relation
import Scoresheet.Proofs.Placing
/-!
# Cycles: where an order is found

Codes may repeat here; a code then belongs to the last node that has it.  An order is found exactly where no node waits
for itself, directly or through others, and the placing never takes one off a count that is zero
(`exists_order_iff_acyclic`).  Both directions go by numbers: in an order a node stands behind what it waits for, and
without a cycle a node ranks by how many nodes it waits for.
-/
namespace Scoresheet
namespace Plan

variable {nodes : List Node} {aliases : Table String} {i j k : Nat}

/-! ## Owners -/

/-- A code belongs to the last of the nodes that have it. -/
def Owns (nodes : List Node) (j : Nat) (code : String) : Prop :=
  (∃ b, nodes[j]? = some b ∧ b.code = code) ∧ ∀ k b, nodes[k]? = some b → b.code = code → k ≤ j

theorem Owns.lt_length {code : String} (h : Owns nodes j code) : j < nodes.length := by
  obtain ⟨⟨b, hb, -⟩, -⟩ := h
  exact (List.getElem?_eq_some_iff.1 hb).1

theorem Owns.unique {code : String} (hj : Owns nodes j code) (hk : Owns nodes k code) : j = k := by
  obtain ⟨⟨b, hb, hbcode⟩, hj⟩ := hj
  obtain ⟨⟨c, hc, hccode⟩, hk⟩ := hk
  exact Nat.le_antisymm (hk j b hb hbcode) (hj k c hc hccode)

theorem owns_of_owner? {code : String} (h : owner? nodes code = some j) : Owns nodes j code := by
  have hmem : ∀ n : Node × Nat, n ∈ nodes.zipIdx.reverse ↔ nodes[n.2]? = some n.1 := by
    rintro ⟨b, k⟩
    rw [List.mem_reverse, List.mem_zipIdx_iff_getElem?]
  -- the nodes are looked through from the last one on
  have hlater : nodes.zipIdx.reverse.Pairwise fun m n => n.2 < m.2 := by
    rw [List.pairwise_reverse, ← List.pairwise_map (f := Prod.snd) (R := (· < ·)), List.zipIdx_map_snd]
    exact List.pairwise_lt_range'
  unfold owner? at h
  obtain ⟨n, hfind, rfl⟩ := Option.map_eq_some_iff.1 h
  obtain ⟨hcode, before, after, hsplit, hbefore⟩ := List.find?_eq_some_iff_append.1 hfind
  refine ⟨⟨n.1, (hmem n).1 (List.mem_of_find?_eq_some hfind), by simpa using hcode⟩, fun k b hb hbcode => ?_⟩
  have hk := (hmem (b, k)).2 hb
  rw [hsplit] at hk hlater
  rcases List.mem_append.1 hk with hk | hk
  · have := hbefore _ hk
    simp [hbcode] at this
  · rcases List.mem_cons.1 hk with rfl | hk
    · exact Nat.le_refl k
    · exact Nat.le_of_lt (List.rel_of_pairwise_cons (List.pairwise_append.1 hlater).2.1 hk)

theorem owner?_eq_some_iff_owns {code : String} : owner? nodes code = some j ↔ Owns nodes j code := by
  constructor
  · exact owns_of_owner?
  · intro h
    obtain ⟨⟨b, hb, hcode⟩, -⟩ := id h
    cases hfind : owner? nodes code with
    | some k => rw [(owns_of_owner? hfind).unique h]
    | none =>
      rw [owner?, Option.map_eq_none_iff, List.find?_eq_none] at hfind
      have := hfind (b, j) (by rw [List.mem_reverse, List.mem_zipIdx_iff_getElem?]; exact hb)
      simp [hcode] at this

/-! ## Waiting -/

/-- Node `i` waits for another node `j`: it reads a name that stands for a code of `j`. -/
def WaitsFor (nodes : List Node) (aliases : Table String) (i j : Nat) : Prop :=
  j ≠ i ∧ ∃ a, nodes[i]? = some a ∧ ∃ name ∈ a.expr.reads, Owns nodes j (target aliases name)

/-- No node waits for itself, directly or through others. -/
def Acyclic (nodes : List Node) (aliases : Table String) : Prop :=
  ∀ i, ¬ Relation.TransGen (WaitsFor nodes aliases) i i

theorem WaitsFor.lt_length (h : WaitsFor nodes aliases i j) : i < nodes.length ∧ j < nodes.length := by
  obtain ⟨-, a, ha, name, -, howns⟩ := h
  exact ⟨(List.getElem?_eq_some_iff.1 ha).1, howns.lt_length⟩

theorem mem_dependencies_iff_waitsFor : j ∈ dependencies nodes aliases i ↔ WaitsFor nodes aliases i j := by
  unfold dependencies WaitsFor
  cases ha : nodes[i]? with
  | none => simp
  | some a =>
    simp only [List.mem_filter, List.mem_range, Bool.and_eq_true, bne_iff_ne, List.contains_iff_mem,
      List.mem_filterMap, owner?_eq_some_iff_owns, Option.some.injEq, exists_eq_left', target]
    constructor
    · rintro ⟨-, hne, hread⟩
      exact ⟨hne, hread⟩
    · rintro ⟨hne, name, hname, howns⟩
      exact ⟨howns.lt_length, hne, name, hname, howns⟩

/-! ## Orders and cycles -/

open Classical in
/-- How many nodes a node waits for, directly or through others. -/
noncomputable def rank (nodes : List Node) (aliases : Table String) (i : Nat) : Nat :=
  ((Finset.range nodes.length).filter fun j => Relation.TransGen (WaitsFor nodes aliases) i j).card

theorem rank_lt (h : WaitsFor nodes aliases i j) (hj : ¬ Relation.TransGen (WaitsFor nodes aliases) j j) :
    rank nodes aliases j < rank nodes aliases i := by
  classical
  unfold rank
  refine Finset.card_lt_card ((Finset.ssubset_iff_of_subset fun k hk => ?_).2 ⟨j, ?_, ?_⟩)
  · rw [Finset.mem_filter] at hk ⊢
    exact ⟨hk.1, .head h hk.2⟩
  · rw [Finset.mem_filter, Finset.mem_range]
    exact ⟨h.lt_length.2, .single h⟩
  · intro hmem
    exact hj (Finset.mem_filter.1 hmem).2

/-- **In an order every node comes after those it waits for.** -/
theorem idxOf_lt_of_waitsFor {l : List Nat} (h : order nodes aliases = .ok l) (hw : WaitsFor nodes aliases i j) :
    l.idxOf j < l.idxOf i := by
  have hperm := order_perm h
  have hmem : ∀ {k}, k < nodes.length → k ∈ l := fun hk => hperm.mem_iff.2 (List.mem_range.2 hk)
  refine idxOf_lt_of_pairwise (order_pairwise h) (hmem hw.lt_length.1) (hmem hw.lt_length.2) hw.1 fun hindependent => ?_
  exact hindependent (mem_dependencies_iff_waitsFor.2 hw)

theorem acyclic_of_order {l : List Nat} (h : order nodes aliases = .ok l) : Acyclic nodes aliases := by
  have hlt : ∀ {i j}, Relation.TransGen (WaitsFor nodes aliases) i j → l.idxOf j < l.idxOf i := by
    intro i j hij
    induction hij with
    | single hw => exact idxOf_lt_of_waitsFor h hw
    | tail _ hw ih => exact Nat.lt_trans (idxOf_lt_of_waitsFor h hw) ih
  intro i hi
  exact Nat.lt_irrefl _ (hlt hi)

/-! ## Releases -/

/-- Node `k` is released in the progress `p`: a step places the first node `i` of the queue, and it has released the
dependents of `i` before `k`. -/
def Releases (g : List (List Nat)) (p : Progress) (k : Nat) : Prop :=
  ∃ n i rest before behind, (after g n).queue = i :: rest ∧ dependents g i = before ++ k :: behind ∧
    p = before.foldl release ⟨(after g n).waiting, rest, (after g n).placed ++ [i]⟩

/-- **A node that is released waits for at least one**: the node placed just then. -/
theorem Releases.waiting_pos {g : List (List Nat)} (hg : ∀ k, (needs g k).Nodup) {p : Progress}
    (h : Releases g p k) : ∃ w, p.waiting[k]? = some w ∧ 0 < w := by
  obtain ⟨n, i, rest, before, behind, hq, hdep, rfl⟩ := h
  have hs := sound_after hg n
  have hnodup := nodup_dependents g i
  obtain ⟨hk, hi⟩ := mem_dependents.1 (show k ∈ dependents g i by rw [hdep]; simp)
  have hplaced : i ∉ (after g n).placed := by
    intro hi
    have := hs.nodup
    rw [hq] at this
    exact (List.nodup_append.1 this).2.2 i hi i List.mem_cons_self rfl
  have hmissing : i ∈ missing g (after g n).placed k := by simp [missing, hi, hplaced]
  rw [hdep, List.nodup_append] at hnodup
  have hbefore : k ∉ before := fun hmem => hnodup.2.2 k hmem k List.mem_cons_self rfl
  refine ⟨(missing g (after g n).placed k).length, ?_, by exact_mod_cast List.length_pos_of_mem hmissing⟩
  rw [(foldl_release before _ hnodup.1).2.1, hs.waiting, if_pos hk, Option.map_some, if_neg hbefore]

/-! ## The order of any nodes -/

/-- **An order is found exactly where no node waits for itself**, directly or through others.  It has every node once
and each after those it waits for; and no count of the placing goes below zero. -/
theorem exists_order_iff_acyclic (nodes : List Node) (aliases : Table String) :
    ((∃ l, order nodes aliases = .ok l) ↔ Acyclic nodes aliases) ∧
    (∀ l, order nodes aliases = .ok l → l.Perm (List.range nodes.length) ∧
      ∀ i j, WaitsFor nodes aliases i j → l.idxOf j < l.idxOf i) ∧
    ∀ p k, Releases (graph nodes aliases) p k → ∃ w, p.waiting[k]? = some w ∧ 0 < w := by
  refine ⟨⟨?_, fun hacyclic => ?_⟩, fun l h => ⟨order_perm h, fun i j => idxOf_lt_of_waitsFor h⟩, fun p k h => ?_⟩
  · rintro ⟨l, h⟩
    exact acyclic_of_order h
  · refine order_isOk (rank nodes aliases) fun i _ j hj => ?_
    exact rank_lt (mem_dependencies_iff_waitsFor.1 hj) (hacyclic j)
  · exact h.waiting_pos nodup_needs_graph

/-- Two nodes with the code `B`, of which the first waits for `A`, and `A` for the second and for itself. -/
def repeated : List Node :=
  [⟨"A", .binary .add (.name "b") (.name "A")⟩, ⟨"B", .name "A"⟩, ⟨"B", .literal (.number 1)⟩]

theorem exists_order_iff_acyclic_repeated :
    ∃ aliases l p k w, order repeated aliases = .ok l ∧ l = [2, 0, 1] ∧ l.Perm (List.range 3) ∧
      WaitsFor repeated aliases 0 2 ∧ l.idxOf 2 < l.idxOf 0 ∧ Acyclic repeated aliases ∧
      Releases (graph repeated aliases) p k ∧ p.waiting[k]? = some w ∧ 0 < w := by
  let aliases : Table String := .ofList [("b", "B")]
  obtain ⟨hiff, horder, hcount⟩ := exists_order_iff_acyclic repeated aliases
  have h : order repeated aliases = .ok [2, 0, 1] := by decide +kernel
  have hw : WaitsFor repeated aliases 0 2 := mem_dependencies_iff_waitsFor.1 (by decide +kernel)
  have hrelease : Releases (graph repeated aliases) ⟨[1, 1, 0], [], [2]⟩ 0 :=
    ⟨0, 2, [], [], [], by decide +kernel, by decide +kernel, by decide +kernel⟩
  obtain ⟨hperm, hlater⟩ := horder _ h
  obtain ⟨w, hwaiting, hpos⟩ := hcount _ _ hrelease
  exact ⟨aliases, _, _, _, w, h, rfl, hperm, hw, hlater 0 2 hw, hiff.1 ⟨_, h⟩, hrelease, hwaiting, hpos⟩

end Plan
end Scoresheet
