import Mathlib.Data.Finset.Lattice.Fold
import Mathlib.Order.Lattice.Nat
import Scoresheet.Proofs.Cycles
/-!
# Layers: which order is found

A node joins the queue when the last node that it needs is placed, and the queue is first in, first out.  So the nodes
of an order stand as they joined the queue, and those that joined together as they are declared (`order_sooner`).  What
joins sooner is no deeper, since the last node that the other one waits for comes no sooner than the deepest one below
it (`depth_le_of_sooner`).  An order is therefore sorted by depth, with ties broken by the last dependencies and then by
the declarations, and as no other list of the nodes is sorted so, it is the canonical one (`order_canonical`).
-/
namespace Scoresheet
namespace Plan

/-! ## When a node joins the queue -/

section

variable {g : List (List Nat)} {placed : List Nat} {i j k m : Nat}

/-- How many nodes are placed when a node joins the queue: all up to the last one that it needs. -/
def joinsAt (g : List (List Nat)) (placed : List Nat) (i : Nat) : Nat :=
  (needs g i).toFinset.sup fun j => placed.idxOf j + 1

theorem joinsAt_le_iff : joinsAt g placed i ≤ m ↔ ∀ j ∈ needs g i, placed.idxOf j < m := by
  rw [joinsAt, Finset.sup_le_iff]
  simp only [List.mem_toFinset, Nat.succ_le_iff]

/-- Node `i` joins the queue before node `j`, or together with it and is declared before it. -/
def Sooner (g : List (List Nat)) (placed : List Nat) (i j : Nat) : Prop :=
  joinsAt g placed i < joinsAt g placed j ∨ joinsAt g placed i = joinsAt g placed j ∧ i < j

/-- What is placed and then what is queued stands in the order in which it joined the queue. -/
def InTurn (g : List (List Nat)) (p : Progress) : Prop := (p.placed ++ p.queue).Pairwise (Sooner g p.placed)

theorem pairwise_ready (w : List Int) : (ready w).Pairwise (· < ·) := by
  have hsub : (ready w).Sublist (w.zipIdx.map (·.2)) := List.filter_sublist.map _
  rw [List.zipIdx_map_snd] at hsub
  exact List.Pairwise.sublist hsub List.pairwise_lt_range'

theorem pairwise_dependents (g : List (List Nat)) (i : Nat) : (dependents g i).Pairwise (· < ·) :=
  List.pairwise_lt_range.filter _

theorem joinsAt_append (h : ∀ j ∈ needs g k, j ∈ placed) : joinsAt g (placed ++ [i]) k = joinsAt g placed k := by
  refine Finset.sup_congr rfl fun j hj => ?_
  rw [List.idxOf_append_of_mem (h j (List.mem_toFinset.1 hj))]

theorem joinsAt_le_length (h : ∀ j ∈ needs g k, j ∈ placed) : joinsAt g placed k ≤ placed.length :=
  joinsAt_le_iff.2 fun j hj => List.idxOf_lt_length_of_mem (h j hj)

theorem joinsAt_last (hi : i ∈ needs g k) (hfresh : i ∉ placed) (h : ∀ j ∈ needs g k, j ∈ placed ++ [i]) :
    joinsAt g (placed ++ [i]) k = placed.length + 1 := by
  refine Nat.le_antisymm ?_ (Nat.lt_of_not_le fun hle => ?_)
  · have hall := joinsAt_le_length h
    rwa [List.length_append] at hall
  · have hearly := joinsAt_le_iff.1 hle i hi
    rw [List.idxOf_append_of_notMem hfresh] at hearly
    omega

theorem Sound.needs_placed {p : Progress} (h : Sound g p) (hk : k ∈ p.placed ++ p.queue) :
    ∀ j ∈ needs g k, j ∈ p.placed :=
  (missing_eq_nil_iff _ _ _).1 ((h.mem_iff k).1 hk).2

theorem inTurn_start (g : List (List Nat)) : InTurn g (start g) := by
  have hnone : ∀ k ∈ (start g).queue, joinsAt g [] k = 0 := fun k hk =>
    Nat.le_zero.1 (joinsAt_le_length ((sound_start g).needs_placed hk))
  refine (pairwise_ready _).imp_of_mem fun {i j} hi hj hlt => .inr ⟨?_, hlt⟩
  exact (hnone i hi).trans (hnone j hj).symm

/-- **A step keeps the turns**: what joins the queue now needs the node just placed, and what was queued before it joined
sooner. -/
theorem inTurn_step (hg : ∀ k, (needs g k).Nodup) {p : Progress} (hs : Sound g p) (h : InTurn g p) :
    InTurn g (step g p) := by
  have hs' := sound_step hg hs
  obtain ⟨waiting, queue, placed⟩ := p
  cases queue with
  | nil => exact h
  | cons i rest =>
    obtain ⟨hplaced, -, hqueue⟩ := foldl_release (dependents g i) ⟨waiting, rest, placed ++ [i]⟩ (nodup_dependents g i)
    have hfresh : i ∉ placed := fun hi => (List.nodup_append.1 hs.nodup).2.2 i hi i List.mem_cons_self rfl
    have hold : ∀ k ∈ placed ++ i :: rest, joinsAt g (placed ++ [i]) k = joinsAt g placed k := fun k hk =>
      joinsAt_append (hs.needs_placed hk)
    have hnow : ∀ k ∈ (dependents g i).filter (fun k => decide (waiting[k]? = some 1)),
        joinsAt g (placed ++ [i]) k = placed.length + 1 := fun k hk => by
      have hopen : ∀ j ∈ needs g k, j ∈ (step g ⟨waiting, i :: rest, placed⟩).placed := by
        refine hs'.needs_placed (List.mem_append_right _ ?_)
        rw [step, hqueue]
        exact List.mem_append_right _ hk
      rw [step, hplaced] at hopen
      exact joinsAt_last (mem_dependents.1 (List.mem_filter.1 hk).1).2 hfresh hopen
    rw [InTurn, step, hplaced, hqueue, List.append_assoc, List.singleton_append, ← List.cons_append,
      ← List.append_assoc, List.pairwise_append]
    -- the old ones among themselves, the new ones among themselves, and an old one before a new one
    refine ⟨h.imp_of_mem fun {a b} ha hb hab => ?_, ?_, fun a ha b hb => .inl ?_⟩
    · rw [Sooner, hold a ha, hold b hb]
      exact hab
    · refine ((pairwise_dependents g i).filter _).imp_of_mem fun {a b} ha hb hab => .inr ⟨?_, hab⟩
      rw [hnow a ha, hnow b hb]
    · rw [hold a ha, hnow b hb]
      exact Nat.lt_succ_of_le (joinsAt_le_length (hs.needs_placed ha))

theorem inTurn_after (hg : ∀ k, (needs g k).Nodup) : ∀ n, InTurn g (after g n)
  | 0 => inTurn_start g
  | n + 1 => inTurn_step hg (sound_after hg n) (inTurn_after hg n)

end

variable {nodes : List Node} {aliases : Table String} {l l' : List Nat} {i j k d e : Nat}

/-- **The nodes of an order stand as they joined the queue.** -/
theorem order_sooner (h : order nodes aliases = .ok l) : l.Pairwise (Sooner (graph nodes aliases) l) := by
  obtain ⟨rfl, -⟩ := order_eq_ok_iff.1 h
  exact (List.pairwise_append.1 (inTurn_after nodup_needs_graph nodes.length)).1

/-! ## Depth -/

/-- A chain of dependencies below node `i`: it waits for the first node, and each node for the next one. -/
def Below (nodes : List Node) (aliases : Table String) (i : Nat) (chain : List Nat) : Prop :=
  (i :: chain).IsChain (WaitsFor nodes aliases)

/-- The longest chain of dependencies below node `i` has `d` nodes. -/
structure HasDepth (nodes : List Node) (aliases : Table String) (i d : Nat) : Prop where
  reached : ∃ chain, Below nodes aliases i chain ∧ chain.length = d
  longest : ∀ chain, Below nodes aliases i chain → chain.length ≤ d

theorem below_cons {chain : List Nat} :
    Below nodes aliases i (j :: chain) ↔ WaitsFor nodes aliases i j ∧ Below nodes aliases j chain :=
  List.isChain_cons_cons

theorem below_nil : Below nodes aliases i [] := List.isChain_singleton i

theorem HasDepth.unique (h : HasDepth nodes aliases i d) (h' : HasDepth nodes aliases i e) : d = e := by
  obtain ⟨chain, hchain, rfl⟩ := h.reached
  obtain ⟨chain', hchain', rfl⟩ := h'.reached
  exact Nat.le_antisymm (h'.longest chain hchain) (h.longest chain' hchain')

/-- **What a node waits for is less deep.** -/
theorem HasDepth.lt (h : HasDepth nodes aliases i d) (hw : WaitsFor nodes aliases i j)
    (h' : HasDepth nodes aliases j e) : e < d := by
  obtain ⟨chain, hchain, rfl⟩ := h'.reached
  exact h.longest (j :: chain) (below_cons.2 ⟨hw, hchain⟩)

/-- **A node that is deep waits for one that is one less deep.** -/
theorem HasDepth.exists_waitsFor (h : HasDepth nodes aliases i (d + 1)) :
    ∃ j, WaitsFor nodes aliases i j ∧ HasDepth nodes aliases j d := by
  obtain ⟨chain, hchain, hlength⟩ := h.reached
  cases chain with
  | nil => cases hlength
  | cons j chain =>
    obtain ⟨hw, hbelow⟩ := below_cons.1 hchain
    refine ⟨j, hw, ⟨chain, hbelow, Nat.succ.inj hlength⟩, fun other hother => ?_⟩
    exact Nat.le_of_succ_le_succ (h.longest (j :: other) (below_cons.2 ⟨hw, hother⟩))

theorem HasDepth.not_waitsFor (h : HasDepth nodes aliases i 0) : ¬ WaitsFor nodes aliases i j := fun hw =>
  absurd (h.longest [j] (below_cons.2 ⟨hw, below_nil⟩)) (Nat.not_succ_le_zero 0)

/-- A chain has no more nodes than the first one waits for. -/
theorem length_le_rank (hacyclic : Acyclic nodes aliases) : ∀ {chain : List Nat} {i : Nat},
    Below nodes aliases i chain → chain.length ≤ rank nodes aliases i
  | [], _, _ => Nat.zero_le _
  | j :: chain, i, h => by
    obtain ⟨hw, hbelow⟩ := below_cons.1 h
    exact Nat.succ_le_of_lt (Nat.lt_of_le_of_lt (length_le_rank hacyclic hbelow) (rank_lt hw (hacyclic j)))

/-- **Without a cycle every node has a depth.** -/
theorem exists_hasDepth (hacyclic : Acyclic nodes aliases) (i : Nat) : ∃ d, HasDepth nodes aliases i d := by
  let lengths : Set Nat := {n | ∃ chain, Below nodes aliases i chain ∧ chain.length = n}
  have hbound : BddAbove lengths := ⟨rank nodes aliases i, by
    rintro n ⟨chain, hchain, rfl⟩
    exact length_le_rank hacyclic hchain⟩
  have hsome : lengths.Nonempty := ⟨0, [], below_nil, rfl⟩
  exact ⟨sSup lengths, Nat.sSup_mem hsome hbound, fun chain hchain => le_csSup hbound ⟨chain, hchain, rfl⟩⟩

/-! ## Who comes first -/

/-- Of the nodes that node `i` waits for, `j` is the last one in a list. -/
structure LastPlaced (nodes : List Node) (aliases : Table String) (l : List Nat) (i j : Nat) : Prop where
  waits : WaitsFor nodes aliases i j
  last : ∀ k, WaitsFor nodes aliases i k → l.idxOf k ≤ l.idxOf j

/-- Which of two nodes comes first: the less deep one; of two that wait for none, the one declared first; of two others
equally deep, the one whose last dependency is placed first, or the one declared first where these are the same. -/
inductive Precedes (nodes : List Node) (aliases : Table String) (l : List Nat) (i j : Nat) : Prop where
  | shallower {d e : Nat} : HasDepth nodes aliases i d → HasDepth nodes aliases j e → d < e →
      Precedes nodes aliases l i j
  | independent : HasDepth nodes aliases i 0 → HasDepth nodes aliases j 0 → i < j → Precedes nodes aliases l i j
  | released {d a b : Nat} : HasDepth nodes aliases i (d + 1) → HasDepth nodes aliases j (d + 1) →
      LastPlaced nodes aliases l i a → LastPlaced nodes aliases l j b → l.idxOf a < l.idxOf b →
      Precedes nodes aliases l i j
  | declared {d a b : Nat} : HasDepth nodes aliases i (d + 1) → HasDepth nodes aliases j (d + 1) →
      LastPlaced nodes aliases l i a → LastPlaced nodes aliases l j b → l.idxOf a = l.idxOf b → i < j →
      Precedes nodes aliases l i j

/-- A list of all nodes in which each one precedes those that come after it. -/
structure Canonical (nodes : List Node) (aliases : Table String) (l : List Nat) : Prop where
  perm : l.Perm (List.range nodes.length)
  sorted : l.Pairwise (Precedes nodes aliases l)

theorem mem_needs_graph : j ∈ needs (graph nodes aliases) i ↔ WaitsFor nodes aliases i j := by
  by_cases hi : i < nodes.length
  · rw [needs_graph hi, mem_dependencies_iff_waitsFor]
  · have hnone : needs (graph nodes aliases) i = [] := by simp [needs, graph, hi]
    rw [hnone]
    exact ⟨fun h => absurd h List.not_mem_nil, fun hw => absurd hw.lt_length.1 hi⟩

theorem joinsAt_graph_le_iff {m : Nat} : joinsAt (graph nodes aliases) l i ≤ m ↔
    ∀ j, WaitsFor nodes aliases i j → l.idxOf j < m := by
  simp only [joinsAt_le_iff, mem_needs_graph]

theorem lt_joinsAt (l : List Nat) (hw : WaitsFor nodes aliases i j) :
    l.idxOf j < joinsAt (graph nodes aliases) l i :=
  joinsAt_graph_le_iff.1 (Nat.le_refl _) j hw

/-- **A node that waits for another one joins the queue when the last one that it waits for is placed.** -/
theorem LastPlaced.joinsAt_eq (h : LastPlaced nodes aliases l i j) :
    joinsAt (graph nodes aliases) l i = l.idxOf j + 1 := by
  refine Nat.le_antisymm (joinsAt_graph_le_iff.2 fun k hk => Nat.lt_succ_of_le (h.last k hk)) ?_
  exact lt_joinsAt l h.waits

theorem HasDepth.joinsAt_eq (h : HasDepth nodes aliases i 0) : joinsAt (graph nodes aliases) l i = 0 :=
  Nat.le_zero.1 (joinsAt_graph_le_iff.2 fun _ hw => absurd hw h.not_waitsFor)

theorem exists_lastPlaced (l : List Nat) (hw : WaitsFor nodes aliases i j) : ∃ k, LastPlaced nodes aliases l i k := by
  obtain ⟨k, hk, hsup⟩ := Finset.exists_mem_eq_sup (needs (graph nodes aliases) i).toFinset
    ⟨j, List.mem_toFinset.2 (mem_needs_graph.2 hw)⟩ fun j => l.idxOf j + 1
  refine ⟨k, mem_needs_graph.1 (List.mem_toFinset.1 hk), fun m hm => ?_⟩
  have hlt := joinsAt_graph_le_iff.1 (Nat.le_of_eq hsup) m hm
  exact Nat.le_of_lt_succ hlt

theorem rel_of_idxOf_lt {R : Nat → Nat → Prop} (h : l.Pairwise R) (hj : j ∈ l) (hlt : l.idxOf i < l.idxOf j) :
    R i j := by
  have hj' := List.idxOf_lt_length_of_mem hj
  have hrel := List.pairwise_iff_getElem.1 h _ _ (hlt.trans hj') hj' hlt
  rwa [List.getElem_idxOf, List.getElem_idxOf] at hrel

theorem exists_lastPlaced_of_pos (h : 0 < joinsAt (graph nodes aliases) l i) :
    ∃ k, LastPlaced nodes aliases l i k := by
  by_contra hnone
  refine Nat.not_lt_zero 0 (h.trans_le (joinsAt_graph_le_iff.2 fun j hj => ?_))
  exact absurd (exists_lastPlaced l hj) hnone

section

variable (h : order nodes aliases = .ok l)

include h

theorem mem_of_lt_length (hi : i < nodes.length) : i ∈ l := (order_perm h).mem_iff.2 (List.mem_range.2 hi)

/-- **What joins the queue sooner is no deeper.** -/
theorem depth_le_of_sooner : ∀ {d i j e : Nat}, HasDepth nodes aliases i d → HasDepth nodes aliases j e →
    Sooner (graph nodes aliases) l i j → d ≤ e
  | 0, _, _, _, _, _, _ => Nat.zero_le _
  | d + 1, i, j, e, hi, hj, hsooner => by
    -- below `i` there is a node of depth `d`, and the last node that `j` waits for comes no sooner than that one
    obtain ⟨a, hia, ha⟩ := hi.exists_waitsFor
    have hjoins : l.idxOf a < joinsAt (graph nodes aliases) l j := by
      have hearly := lt_joinsAt l hia
      rcases hsooner with hlt | ⟨heq, -⟩
      · exact hearly.trans hlt
      · exact heq ▸ hearly
    obtain ⟨b, hb⟩ := exists_lastPlaced_of_pos (Nat.zero_lt_of_lt hjoins)
    obtain ⟨c, hc⟩ := exists_hasDepth (acyclic_of_order h) b
    rw [hb.joinsAt_eq] at hjoins
    have hle : d ≤ c := by
      rcases Nat.lt_or_eq_of_le (Nat.le_of_lt_succ hjoins) with hlt | heq
      · have hbl := mem_of_lt_length h hb.waits.lt_length.2
        exact depth_le_of_sooner ha hc (rel_of_idxOf_lt (order_sooner h) hbl hlt)
      · have hal := mem_of_lt_length h hia.lt_length.2
        obtain rfl : a = b := (List.idxOf_inj hal).1 heq
        exact Nat.le_of_eq (ha.unique hc)
    exact Nat.succ_le_of_lt (Nat.lt_of_le_of_lt hle (hj.lt hb.waits hc))

theorem precedes_of_sooner (hsooner : Sooner (graph nodes aliases) l i j) : Precedes nodes aliases l i j := by
  obtain ⟨d, hi⟩ := exists_hasDepth (acyclic_of_order h) i
  obtain ⟨e, hj⟩ := exists_hasDepth (acyclic_of_order h) j
  rcases Nat.lt_or_eq_of_le (depth_le_of_sooner h hi hj hsooner) with hlt | rfl
  · exact .shallower hi hj hlt
  cases d with
  | zero =>
    rw [Sooner, hi.joinsAt_eq, hj.joinsAt_eq] at hsooner
    exact .independent hi hj (hsooner.resolve_left (Nat.lt_irrefl 0)).2
  | succ d =>
    obtain ⟨_, hwi, -⟩ := hi.exists_waitsFor
    obtain ⟨_, hwj, -⟩ := hj.exists_waitsFor
    obtain ⟨a, ha⟩ := exists_lastPlaced l hwi
    obtain ⟨b, hb⟩ := exists_lastPlaced l hwj
    rw [Sooner, ha.joinsAt_eq, hb.joinsAt_eq, Nat.succ_lt_succ_iff, Nat.succ_inj] at hsooner
    rcases hsooner with hlt | ⟨heq, hlt⟩
    · exact .released hi hj ha hb hlt
    · exact .declared hi hj ha hb heq hlt

/-- **The order that is found is canonical.** -/
theorem canonical_of_order : Canonical nodes aliases l :=
  ⟨order_perm h, (order_sooner h).imp (precedes_of_sooner h)⟩

end

/-! ## No other order -/

/-- A node that precedes another one is less deep, or as deep and joins the queue sooner. -/
theorem Precedes.exists_depth (h : Precedes nodes aliases l i j) :
    ∃ d e, HasDepth nodes aliases i d ∧ HasDepth nodes aliases j e ∧
      (d < e ∨ d = e ∧ Sooner (graph nodes aliases) l i j) := by
  cases h with
  | shallower hi hj hlt => exact ⟨_, _, hi, hj, .inl hlt⟩
  | independent hi hj hlt => exact ⟨_, _, hi, hj, .inr ⟨rfl, .inr ⟨hi.joinsAt_eq.trans hj.joinsAt_eq.symm, hlt⟩⟩⟩
  | released hi hj ha hb hlt =>
    refine ⟨_, _, hi, hj, .inr ⟨rfl, .inl ?_⟩⟩
    rw [ha.joinsAt_eq, hb.joinsAt_eq]
    exact Nat.succ_lt_succ hlt
  | declared hi hj ha hb heq hlt =>
    refine ⟨_, _, hi, hj, .inr ⟨rfl, .inr ⟨?_, hlt⟩⟩⟩
    rw [ha.joinsAt_eq, hb.joinsAt_eq, heq]

/-- In a canonical list a node comes after those it waits for. -/
theorem Canonical.idxOf_lt (h : Canonical nodes aliases l) (hw : WaitsFor nodes aliases i j) :
    l.idxOf j < l.idxOf i := by
  have hmem : ∀ {k}, k < nodes.length → k ∈ l := fun hk => h.perm.mem_iff.2 (List.mem_range.2 hk)
  by_contra hle
  have hne : l.idxOf i ≠ l.idxOf j := fun he => hw.1 ((List.idxOf_inj (hmem hw.lt_length.1)).1 he).symm
  have hprecedes := rel_of_idxOf_lt h.sorted (hmem hw.lt_length.2) (show l.idxOf i < l.idxOf j by omega)
  obtain ⟨d, e, hi, hj, hle⟩ := hprecedes.exists_depth
  have hless := hi.lt hw hj
  omega

theorem idxOf_take {a : Nat} (ha : a ∈ l.take k) : (l.take k).idxOf a = l.idxOf a := by
  have hsplit : (l.take k ++ l.drop k).idxOf a = (l.take k).idxOf a := List.idxOf_append_of_mem ha
  rw [List.take_append_drop] at hsplit
  exact hsplit.symm

/-- **Where two canonical lists part**, the next node of the one precedes that of the other, and what it waits for has
the same places in both. -/
theorem Canonical.parting (h : Canonical nodes aliases l) (h' : Canonical nodes aliases l') (hk : k < l.length)
    (hk' : k < l'.length) (htake : l.take k = l'.take k) (hne : l[k] ≠ l'[k]) :
    Precedes nodes aliases l l[k] l'[k] ∧
      joinsAt (graph nodes aliases) l l[k] = joinsAt (graph nodes aliases) l' l[k] := by
  have hidx : l.idxOf l[k] = k := (h.perm.nodup_iff.2 List.nodup_range).idxOf_getElem k hk
  have hidx' : l'.idxOf l'[k] = k := (h'.perm.nodup_iff.2 List.nodup_range).idxOf_getElem k hk'
  constructor
  · have hmem : l'[k] ∈ l := (h.perm.trans h'.perm.symm).mem_iff.2 (List.getElem_mem hk')
    have hlater : ¬ l.idxOf l'[k] < k := by
      rw [← List.mem_take_iff_idxOf_lt hmem, htake, List.mem_take_iff_idxOf_lt (List.getElem_mem hk'), hidx']
      exact Nat.lt_irrefl k
    have hother : l.idxOf l[k] ≠ l.idxOf l'[k] := fun he => hne ((List.idxOf_inj (List.getElem_mem hk)).1 he)
    exact rel_of_idxOf_lt h.sorted hmem (by omega)
  · refine Finset.sup_congr rfl fun j hj => ?_
    have hw := mem_needs_graph.1 (List.mem_toFinset.1 hj)
    have hbefore := h.idxOf_lt hw
    rw [hidx] at hbefore
    have hmem : j ∈ l.take k := by
      rwa [List.mem_take_iff_idxOf_lt (h.perm.mem_iff.2 (List.mem_range.2 hw.lt_length.2))]
    rw [← idxOf_take hmem, htake, idxOf_take (htake ▸ hmem)]

/-- **There is one canonical list.** -/
theorem Canonical.eq (h : Canonical nodes aliases l) (h' : Canonical nodes aliases l') : l = l' := by
  have hlength : l.length = l'.length := (h.perm.trans h'.perm.symm).length_eq
  have htake : ∀ k, l.take k = l'.take k := by
    intro k
    induction k with
    | zero => rfl
    | succ k ih =>
      by_cases hk : k < l.length
      · have hk' := hlength ▸ hk
        rw [List.take_succ_eq_append_getElem hk, List.take_succ_eq_append_getElem hk', ih]
        congr 2
        -- were they to part here, each of the two nodes would come before the other
        by_contra hne
        obtain ⟨hprecedes, hjoins⟩ := h.parting h' hk hk' ih hne
        obtain ⟨hprecedes', hjoins'⟩ := h'.parting h hk' hk ih.symm (Ne.symm hne)
        obtain ⟨d, e, hd, he, hlt⟩ := hprecedes.exists_depth
        obtain ⟨e', d', he', hd', hlt'⟩ := hprecedes'.exists_depth
        obtain rfl := hd.unique hd'
        obtain rfl := he.unique he'
        rw [Sooner] at hlt hlt'
        omega
      · rw [List.take_of_length_le (by omega), List.take_of_length_le (by omega)] at ih ⊢
        exact ih
  have hall := htake l.length
  rwa [List.take_length, hlength, List.take_length] at hall

/-- **The order of evaluation is canonical.**  Without a cycle an order is found, and of all lists of the nodes it is the
one in which each node precedes those that come after it: nodes are sorted by depth, those that wait for none as they
are declared, and others of one depth by the places of their last dependencies, and as they are declared where these
are the same. -/
theorem order_canonical (h : Acyclic nodes aliases) :
    ∃ l, order nodes aliases = .ok l ∧ Canonical nodes aliases l ∧ ∀ l', Canonical nodes aliases l' → l' = l := by
  obtain ⟨l, hl⟩ := order_isOk (rank nodes aliases) fun i _ j hj =>
    rank_lt (mem_dependencies_iff_waitsFor.1 hj) (h j)
  have hcanonical := canonical_of_order hl
  exact ⟨l, hl, hcanonical, fun l' h' => h'.eq hcanonical⟩

/-- `T` waits for `P` and `Q`, `P` and `R` for `Y`, and `Q` and `R` for `X`. -/
def layered : List Node :=
  [⟨"T", .binary .add (.name "P") (.name "q")⟩, ⟨"X", .literal (.number 1)⟩, ⟨"P", .name "Y"⟩, ⟨"Q", .name "X"⟩,
   ⟨"Y", .literal (.number 2)⟩, ⟨"R", .binary .add (.name "X") (.name "Y")⟩]

theorem order_canonical_layered : ∃ (aliases : Table String) (l : List Nat), Acyclic layered aliases ∧
    order layered aliases = .ok l ∧ l = [1, 4, 3, 2, 5, 0] ∧ Canonical layered aliases l ∧
      ∀ l', Canonical layered aliases l' → l' = l := by
  let aliases : Table String := .ofList [("q", "Q")]
  have horder : order layered aliases = .ok [1, 4, 3, 2, 5, 0] := by decide +kernel
  have hacyclic := acyclic_of_order horder
  obtain ⟨l, hl, hcanonical, hunique⟩ := order_canonical hacyclic
  rw [horder] at hl
  exact ⟨aliases, l, hacyclic, hl ▸ horder, (Except.ok.inj hl).symm, hcanonical, hunique⟩

end Plan
end Scoresheet
