import Scoresheet.Proofs.Cycles
/-!
# Blocked nodes: what a failed order names

The placing stops with an empty queue.  What is placed then is closed under waiting, and each node comes after those it
waits for, so nothing that is placed leads to a cycle.  What is not placed does: a node that leads to none ranks above
all that it waits for, and so it is placed in time (`mem_placed_iff_not_blocked`).  The counts that are above zero at
the end are therefore those of the nodes on a cycle and of the nodes behind one, and these are the nodes whose codes a
failed order names (`order_eq_error_iff_blocked`).
-/
namespace Scoresheet
namespace Plan

variable {nodes : List Node} {aliases : Table String} {i j : Nat}

/-! ## Nodes on cycles and behind them -/

/-- Node `j` is on a cycle of two nodes or more: it waits for another node that waits for it. -/
def OnCycle (nodes : List Node) (aliases : Table String) (j : Nat) : Prop :=
  ∃ k, k ≠ j ∧ Relation.TransGen (WaitsFor nodes aliases) j k ∧ Relation.TransGen (WaitsFor nodes aliases) k j

/-- Node `i` leads to a cycle: it is on one, or waits for a node that leads to one. -/
def Blocked (nodes : List Node) (aliases : Table String) (i : Nat) : Prop :=
  ∃ j, Relation.ReflTransGen (WaitsFor nodes aliases) i j ∧ OnCycle nodes aliases j

/-- No node waits for itself directly, so whatever waits for itself does so through another node. -/
theorem onCycle_iff : OnCycle nodes aliases j ↔ Relation.TransGen (WaitsFor nodes aliases) j j := by
  constructor
  · rintro ⟨k, -, hjk, hkj⟩
    exact hjk.trans hkj
  · intro h
    obtain ⟨k, hjk, hkj⟩ := Relation.TransGen.head'_iff.1 h
    have hne : k ≠ j := hjk.1
    rcases Relation.reflTransGen_iff_eq_or_transGen.1 hkj with rfl | hkj
    · exact absurd rfl hne
    · exact ⟨k, hne, .single hjk, hkj⟩

theorem WaitsFor.blocked (h : WaitsFor nodes aliases i j) (hj : Blocked nodes aliases j) : Blocked nodes aliases i := by
  obtain ⟨k, hjk, hk⟩ := hj
  exact ⟨k, .head h hjk, hk⟩

theorem Blocked.lt_length (h : Blocked nodes aliases i) : i < nodes.length := by
  obtain ⟨j, hij, hj⟩ := h
  have hwaits : Relation.TransGen (WaitsFor nodes aliases) i j := Relation.TransGen.trans_right hij (onCycle_iff.1 hj)
  obtain ⟨k, hik, -⟩ := Relation.TransGen.head'_iff.1 hwaits
  exact hik.lt_length.1

/-! ## What is placed -/

section

variable {p : Progress} (h : Sound (graph nodes aliases) p)

include h

/-- **What a placed node waits for is placed before it.** -/
theorem Sound.placed_before (hi : i ∈ p.placed) (hw : WaitsFor nodes aliases i j) :
    j ∈ p.placed ∧ p.placed.idxOf j < p.placed.idxOf i := by
  have hneeds : j ∈ needs (graph nodes aliases) i := by
    rw [needs_graph hw.lt_length.1]
    exact mem_dependencies_iff_waitsFor.2 hw
  have hopen := ((h.mem_iff i).1 (List.mem_append_left _ hi)).2
  have hj : j ∈ p.placed := (missing_eq_nil_iff _ _ _).1 hopen j hneeds
  exact ⟨hj, idxOf_lt_of_pairwise h.ordered hi hj hw.1 fun hnot => hnot hneeds⟩

theorem Sound.placed_before_trans (hi : i ∈ p.placed) (hij : Relation.TransGen (WaitsFor nodes aliases) i j) :
    j ∈ p.placed ∧ p.placed.idxOf j < p.placed.idxOf i := by
  induction hij with
  | single hw => exact h.placed_before hi hw
  | tail _ hw ih =>
    obtain ⟨hmem, hlt⟩ := h.placed_before ih.1 hw
    exact ⟨hmem, hlt.trans ih.2⟩

/-- **With the queue empty, what is placed is what leads to no cycle.** -/
theorem Sound.mem_placed_iff_not_blocked (hq : p.queue = []) (hlt : i < nodes.length) :
    i ∈ p.placed ↔ ¬ Blocked nodes aliases i := by
  constructor
  · rintro hi ⟨j, hij, hj⟩
    have hplaced : j ∈ p.placed := by
      rcases Relation.reflTransGen_iff_eq_or_transGen.1 hij with rfl | hij
      · exact hi
      · exact (h.placed_before_trans hi hij).1
    exact Nat.lt_irrefl _ (h.placed_before_trans hplaced (onCycle_iff.1 hj)).2
  · intro hi
    refine h.mem_placed hq (rank nodes aliases) (P := fun i => i < nodes.length ∧ ¬ Blocked nodes aliases i)
      (fun i hi => ?_) _ i rfl ⟨hlt, hi⟩
    rw [length_graph, needs_graph hi.1]
    refine ⟨hi.1, fun j hj => ?_⟩
    have hw : WaitsFor nodes aliases i j := mem_dependencies_iff_waitsFor.1 hj
    have hfree : ¬ Blocked nodes aliases j := fun hj => hi.2 (hw.blocked hj)
    exact ⟨⟨hw.lt_length.2, hfree⟩, rank_lt hw fun hcycle => hfree ⟨j, .refl, onCycle_iff.2 hcycle⟩⟩

end

/-! ## What is named -/

section

variable {p : Progress}

/-- The nodes that still wait for another one, in the order in which they are declared. -/
def stuck (nodes : List Node) (p : Progress) : List Nat :=
  (List.range nodes.length).filter fun i => decide (0 < (p.waiting[i]?).getD 0)

theorem codes_stuck (hlength : p.waiting.length = nodes.length) :
    ((nodes.zip p.waiting).filterMap fun n => if 0 < n.2 then some n.1.code else none) =
      (arranged nodes (stuck nodes p)).map (·.code) := by
  have hzip : nodes.zip p.waiting = nodes.zipIdx.map fun n => (n.1, (p.waiting[n.2]?).getD 0) := by
    refine List.ext_getElem (by simp [hlength]) fun i hi hi' => ?_
    rw [List.length_zip] at hi
    simp [show i < p.waiting.length by omega]
  have hrange : List.range nodes.length = nodes.zipIdx.map Prod.snd := by
    rw [List.zipIdx_map_snd, List.range_eq_range']
  rw [hzip, List.filterMap_map, stuck, arranged, hrange, List.filter_map, List.filterMap_map, List.map_filterMap,
    List.filterMap_filter]
  refine List.filterMap_congr fun n hn => ?_
  rw [List.mem_zipIdx_iff_getElem?] at hn
  simp [hn]

theorem Sound.length_waiting (h : Sound (graph nodes aliases) p) : p.waiting.length = nodes.length := by
  have hlt : ∀ k, k < p.waiting.length ↔ k < nodes.length := by
    intro k
    rw [← Nat.not_le, ← List.getElem?_eq_none_iff, h.waiting, length_graph]
    split <;> simp [*]
  have hwaiting := hlt p.waiting.length
  have hnodes := hlt nodes.length
  omega

/-- **With the queue empty, what is stuck is what leads to a cycle.** -/
theorem Sound.mem_stuck_iff_blocked (h : Sound (graph nodes aliases) p) (hq : p.queue = []) :
    i ∈ stuck nodes p ↔ Blocked nodes aliases i := by
  rw [stuck, List.mem_filter, List.mem_range, decide_eq_true_eq, h.waiting, length_graph]
  constructor
  · rintro ⟨hlt, hpos⟩
    by_contra hfree
    have hplaced := (h.mem_placed_iff_not_blocked hq hlt).2 hfree
    have hopen := ((h.mem_iff i).1 (List.mem_append_left _ hplaced)).2
    rw [if_pos hlt, hopen] at hpos
    exact Int.lt_irrefl 0 hpos
  · intro hblocked
    have hlt := hblocked.lt_length
    have hmissing : missing (graph nodes aliases) p.placed i ≠ [] := by
      intro hopen
      have hmem := (h.mem_iff i).2 ⟨length_graph.symm ▸ hlt, hopen⟩
      rw [hq, List.append_nil] at hmem
      exact (h.mem_placed_iff_not_blocked hq hlt).1 hmem hblocked
    rw [if_pos hlt]
    exact ⟨hlt, Int.natCast_pos.2 (List.length_pos_iff.2 hmissing)⟩

end

theorem order_eq_error {e : Error} (h : order nodes aliases = .error e) :
    (after (graph nodes aliases) nodes.length).queue = [] ∧
      e = .cycle ((arranged nodes (stuck nodes (after (graph nodes aliases) nodes.length))).map (·.code)) := by
  have hsound := sound_after (g := graph nodes aliases) nodup_needs_graph nodes.length
  unfold order at h
  dsimp only at h
  split at h
  · rename_i hfew
    refine ⟨(after_length _ _).resolve_right (by omega), ?_⟩
    rw [← codes_stuck hsound.length_waiting]
    exact (Except.error.inj h).symm
  · cases h

/-- **A failed order names the nodes that lead to a cycle**: those on a cycle of two nodes or more and those that wait
for one, directly or through others.  It fails where there are any, and it names them, and no others, in the order in
which they are declared. -/
theorem order_eq_error_iff_blocked (nodes : List Node) (aliases : Table String) :
    ∃ blocked : List Nat, blocked.Pairwise (· < ·) ∧ (∀ i, i ∈ blocked ↔ Blocked nodes aliases i) ∧
      ∀ e, order nodes aliases = .error e ↔ blocked ≠ [] ∧ e = .cycle ((arranged nodes blocked).map (·.code)) := by
  cases horder : order nodes aliases with
  | ok l =>
    have hfree : ∀ i, ¬ Blocked nodes aliases i := by
      rintro i ⟨j, -, hj⟩
      exact acyclic_of_order horder j (onCycle_iff.1 hj)
    exact ⟨[], .nil, fun i => by simp [hfree i], fun e => by simp⟩
  | error e =>
    obtain ⟨hq, he⟩ := order_eq_error horder
    have hsound := sound_after (g := graph nodes aliases) nodup_needs_graph nodes.length
    refine ⟨_, List.pairwise_lt_range.filter _, fun i => hsound.mem_stuck_iff_blocked hq, fun e' => ?_⟩
    have hsome : stuck nodes (after (graph nodes aliases) nodes.length) ≠ [] := by
      intro hnone
      have hfree : ∀ i, ¬ Blocked nodes aliases i := fun i => by
        rw [← hsound.mem_stuck_iff_blocked hq, hnone]
        exact List.not_mem_nil
      obtain ⟨l, hl⟩ := order_isOk (rank nodes aliases) fun i _ j hj => rank_lt (mem_dependencies_iff_waitsFor.1 hj)
        fun hcycle => hfree j ⟨j, .refl, onCycle_iff.2 hcycle⟩
      rw [horder] at hl
      cases hl
    rw [Except.error.injEq, he]
    exact ⟨fun h => ⟨hsome, h.symm⟩, fun h => h.2.symm⟩

/-- `A` and the second `B` wait for each other, the first `B` and `D` wait for them, and `E` for nothing but itself. -/
def tangled : List Node :=
  [⟨"A", .binary .add (.name "b") (.name "A")⟩, ⟨"B", .name "A"⟩, ⟨"C", .literal (.number 1)⟩,
   ⟨"B", .binary .add (.name "C") (.name "A")⟩, ⟨"D", .name "b"⟩, ⟨"E", .binary .add (.name "C") (.name "E")⟩]

theorem order_eq_error_iff_blocked_tangled : ∃ (aliases : Table String) (blocked : List Nat),
    (∀ i, i ∈ blocked ↔ Blocked tangled aliases i) ∧ (arranged tangled blocked).map (·.code) = ["A", "B", "B", "D"] ∧
      order tangled aliases = .error (.cycle ["A", "B", "B", "D"]) := by
  let aliases : Table String := .ofList [("b", "B")]
  obtain ⟨blocked, -, hblocked, hiff⟩ := order_eq_error_iff_blocked tangled aliases
  have horder : order tangled aliases = .error (.cycle ["A", "B", "B", "D"]) := by decide +kernel
  obtain ⟨-, hcodes⟩ := (hiff _).1 horder
  exact ⟨aliases, blocked, hblocked, (Error.cycle.inj hcodes).symm, horder⟩

end Plan
end Scoresheet
