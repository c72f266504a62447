import Mathlib.Data.List.Nodup
import Mathlib.Data.List.Perm.Subperm
import Scoresheet.Plan
/-!
# Placing nodes: what holds of every step, and what an order is

A node is *open* while one of its dependencies is not placed.  At every step the counts are the numbers of open
dependencies, and what is placed or queued is exactly what is not open (`Sound`).  So an order that is found places
every node once and after all its dependencies (`order_perm`, `order_pairwise`), and one is found wherever there is one
(`exists_order`).
-/
namespace Scoresheet
namespace Plan

/-- The dependencies of a node, in a graph. -/
def needs (g : List (List Nat)) (i : Nat) : List Nat := g[i]?.getD []

/-- The dependencies of a node that are not placed. -/
def missing (g : List (List Nat)) (placed : List Nat) (i : Nat) : List Nat :=
  (needs g i).filter fun j => !placed.contains j

theorem missing_eq_nil_iff (g : List (List Nat)) (placed : List Nat) (i : Nat) :
    missing g placed i = [] ↔ ∀ j ∈ needs g i, j ∈ placed := by
  simp [missing, List.filter_eq_nil_iff]

theorem mem_dependents {g : List (List Nat)} {i j : Nat} : i ∈ dependents g j ↔ i < g.length ∧ j ∈ needs g i := by
  simp [dependents, needs]

theorem nodup_dependents (g : List (List Nat)) (j : Nat) : (dependents g j).Nodup :=
  List.nodup_range.filter _

/-- **Placing a node takes it off what its dependents miss**, and off nothing else. -/
theorem length_missing_append (g : List (List Nat)) (placed : List Nat) (i k : Nat) (hn : (needs g k).Nodup)
    (hi : i ∉ placed) :
    ((missing g (placed ++ [i]) k).length : Int) =
      (missing g placed k).length - (if i ∈ needs g k then 1 else 0) := by
  have hsplit : missing g (placed ++ [i]) k = (missing g placed k).erase i := by
    rw [missing, missing, (hn.filter _).erase_eq_filter, List.filter_filter]
    refine List.filter_congr fun j _ => ?_
    by_cases hj : j = i <;> simp [hj]
  have hmem : i ∈ missing g placed k ↔ i ∈ needs g k := by simp [missing, hi]
  rw [hsplit, List.length_erase]
  by_cases h : i ∈ needs g k
  · have hpos := List.length_pos_of_mem (hmem.2 h)
    rw [if_pos (hmem.2 h), if_pos h]
    omega
  · rw [if_neg fun hm => h (hmem.1 hm), if_neg h]
    omega

/-! ## Releasing -/

theorem release_placed (p : Progress) (i : Nat) : (release p i).placed = p.placed := rfl

theorem release_waiting (p : Progress) (i k : Nat) :
    (release p i).waiting[k]? = (p.waiting[k]?).map fun w => if i = k then w - 1 else w := by
  simp only [release, List.getElem?_modify]
  by_cases h : i = k <;> simp [h]

theorem release_queue (p : Progress) (i : Nat) :
    (release p i).queue = p.queue ++ if p.waiting[i]? = some 1 then [i] else [] := by
  have hz : (p.waiting.modify i (· - 1))[i]? = some 0 ↔ p.waiting[i]? = some 1 := by
    rw [List.getElem?_modify_eq]
    cases p.waiting[i]? with
    | none => simp
    | some w =>
      show some (w - 1) = some 0 ↔ some w = some 1
      rw [Option.some.injEq, Option.some.injEq]
      omega
  by_cases h : p.waiting[i]? = some 1
  · simp only [release, if_pos (hz.2 h), if_pos h]
  · simp only [release, if_neg (mt hz.1 h), if_neg h, List.append_nil]

/-- **What releasing several nodes comes to**: each counts one less, and those that counted one join the queue. -/
theorem foldl_release : ∀ (l : List Nat) (p : Progress), l.Nodup →
    (l.foldl release p).placed = p.placed ∧
    (∀ k, (l.foldl release p).waiting[k]? = (p.waiting[k]?).map fun w => if k ∈ l then w - 1 else w) ∧
    (l.foldl release p).queue = p.queue ++ l.filter fun i => decide (p.waiting[i]? = some 1)
  | [], p, _ => by simp
  | i :: l, p, h => by
    obtain ⟨hil, hl⟩ := List.nodup_cons.1 h
    obtain ⟨hp, hw, hq⟩ := foldl_release l (release p i) hl
    rw [List.foldl_cons]
    refine ⟨hp.trans (release_placed p i), fun k => ?_, ?_⟩
    · rw [hw, release_waiting, Option.map_map]
      congr 1
      funext w
      by_cases hik : i = k
      · subst hik; simp [hil]
      · simp [hik, Ne.symm hik]
    · rw [hq, release_queue, List.append_assoc]
      congr 1
      have hfilter : (l.filter fun k => decide ((release p i).waiting[k]? = some 1)) =
          l.filter fun k => decide (p.waiting[k]? = some 1) := by
        refine List.filter_congr fun k hk => ?_
        have hik : i ≠ k := fun he => hil (he ▸ hk)
        rw [release_waiting]
        simp [hik]
      rw [hfilter, List.filter_cons]
      by_cases h1 : p.waiting[i]? = some 1 <;> simp [h1]

/-! ## What holds of every step -/

/-- **The invariant of placing**: each node counts its dependencies that are not placed, what is placed or queued is
what misses none, and no placed node needs one placed after it. -/
structure Sound (g : List (List Nat)) (p : Progress) : Prop where
  waiting : ∀ k, p.waiting[k]? = if k < g.length then some ((missing g p.placed k).length : Int) else none
  nodup : (p.placed ++ p.queue).Nodup
  mem_iff : ∀ k, k ∈ p.placed ++ p.queue ↔ k < g.length ∧ missing g p.placed k = []
  ordered : p.placed.Pairwise fun i j => j ∉ needs g i

theorem mem_ready {w : List Int} {k : Nat} : k ∈ ready w ↔ w[k]? = some 0 := by
  simp [ready, List.mem_zipIdx_iff_getElem?]

theorem nodup_ready (w : List Int) : (ready w).Nodup := by
  have hsub : (ready w).Sublist (w.zipIdx.map (·.2)) := List.filter_sublist.map _
  rw [List.zipIdx_map_snd] at hsub
  exact hsub.nodup (List.nodup_range' 1)

theorem sound_start (g : List (List Nat)) : Sound g (start g) := by
  have hmiss : ∀ k, missing g [] k = needs g k := fun k => List.filter_eq_self.2 fun _ _ => rfl
  have hw : ∀ k, (start g).waiting[k]? = if k < g.length then some ((needs g k).length : Int) else none := by
    intro k
    rw [start, List.getElem?_map, needs]
    by_cases hk : k < g.length <;> simp [hk]
  refine ⟨fun k => by rw [hw, ← hmiss k]; rfl, ?_, fun k => ?_, .nil⟩
  · exact nodup_ready _
  · show k ∈ ready (start g).waiting ↔ k < g.length ∧ missing g [] k = []
    rw [mem_ready, hw, hmiss]
    by_cases hk : k < g.length <;> simp [hk]

theorem sound_step {g : List (List Nat)} (hg : ∀ k, (needs g k).Nodup) {p : Progress} (h : Sound g p) :
    Sound g (step g p) := by
  obtain ⟨waiting, queue, placed⟩ := p
  cases queue with
  | nil => exact h
  | cons i rest =>
    obtain ⟨hwait, hnodup, hmem, hord⟩ := h
    dsimp only at hwait hnodup hmem hord
    obtain ⟨hp, hw, hq⟩ := foldl_release (dependents g i) ⟨waiting, rest, placed ++ [i]⟩ (nodup_dependents g i)
    have hi : i ∉ placed := fun hi => (List.nodup_append.1 hnodup).2.2 i hi i List.mem_cons_self rfl
    -- a node joins the queue when the one just placed was all it missed
    have hjoin : ∀ k, k ∈ (dependents g i).filter (fun k => decide (waiting[k]? = some 1)) ↔
        k < g.length ∧ i ∈ needs g k ∧ ((missing g placed k).length : Int) = 1 := by
      intro k
      rw [List.mem_filter, mem_dependents, decide_eq_true_eq, hwait]
      by_cases hk : k < g.length <;> simp [hk]
    have hmiss : ∀ k, i ∈ needs g k → missing g placed k ≠ [] := fun k hk he =>
      hi ((missing_eq_nil_iff g placed k).1 he i hk)
    have hold : ∀ k, k ∈ (placed ++ [i]) ++ rest ↔ k < g.length ∧ missing g placed k = [] := fun k => by
      rw [← hmem k, List.append_assoc]; rfl
    refine ⟨fun k => ?_, ?_, fun k => ?_, ?_⟩
    · show (List.foldl release _ (dependents g i)).waiting[k]? = _
      rw [hw, hwait]
      by_cases hk : k < g.length
      · simp only [step, hp, hk, if_true, Option.map_some, Option.some.injEq, mem_dependents, true_and]
        rw [length_missing_append g placed i k (hg k) hi]
        split <;> omega
      · simp [hk]
    · simp only [step, hp, hq]
      rw [← List.append_assoc, List.nodup_append]
      refine ⟨by rwa [List.append_assoc], (nodup_dependents g i).filter _, fun a ha b hb hab => ?_⟩
      obtain ⟨-, hb1, -⟩ := (hjoin b).1 hb
      exact hmiss b hb1 ((hold b).1 (hab ▸ ha)).2
    · simp only [step, hp, hq]
      rw [← List.append_assoc, List.mem_append, hold, hjoin]
      have hlen := length_missing_append g placed i k (hg k) hi
      rw [← List.length_eq_zero_iff, ← List.length_eq_zero_iff]
      by_cases hk : i ∈ needs g k
      · have := hmiss k hk
        rw [← List.length_pos_iff] at this
        simp only [hk, if_true, true_and] at hlen ⊢
        omega
      · simp only [hk, if_false, false_and, and_false, or_false] at hlen ⊢
        omega
    · simp only [step, hp]
      rw [List.pairwise_append]
      refine ⟨hord, List.pairwise_singleton _ _, fun a ha b hb hn => ?_⟩
      rw [List.mem_singleton.1 hb] at hn
      have hopen : missing g placed a = [] := ((hmem a).1 (List.mem_append_left _ ha)).2
      exact hi ((missing_eq_nil_iff g placed a).1 hopen i hn)

theorem sound_after {g : List (List Nat)} (hg : ∀ k, (needs g k).Nodup) : ∀ n, Sound g (after g n)
  | 0 => sound_start g
  | n + 1 => sound_step hg (sound_after hg n)

/-- A step places a node unless none is queued. -/
theorem after_length (g : List (List Nat)) : ∀ n, (after g n).queue = [] ∨ (after g n).placed.length = n
  | 0 => .inr rfl
  | n + 1 => by
    rw [after]
    cases hq : (after g n).queue with
    | nil => exact .inl (by rw [step, hq]; exact hq)
    | cons i rest =>
      have hlen := (after_length g n).resolve_left (by rw [hq]; exact List.cons_ne_nil i rest)
      refine .inr ?_
      rw [step, hq]
      rw [(foldl_release (dependents g i) _ (nodup_dependents g i)).1, List.length_append, hlen]
      rfl

/-- **Nothing is left that ranks above all it needs**: with the queue empty, nodes are placed if each of them needs none
but such nodes that rank below it. -/
theorem Sound.mem_placed {g : List (List Nat)} {p : Progress} (h : Sound g p) (hq : p.queue = []) (rank : Nat → Nat)
    {P : Nat → Prop} (hrank : ∀ i, P i → i < g.length ∧ ∀ j ∈ needs g i, P j ∧ rank j < rank i) :
    ∀ r i, rank i = r → P i → i ∈ p.placed := by
  intro r
  -- the induction is on the rank: a node of least rank misses nothing
  induction r using Nat.strongRecOn with
  | _ r ih =>
    intro i hr hi
    obtain ⟨hlt, hneeds⟩ := hrank i hi
    have hopen : missing g p.placed i = [] := by
      rw [missing_eq_nil_iff]
      intro j hj
      obtain ⟨hjp, hjr⟩ := hneeds j hj
      exact ih (rank j) (hr ▸ hjr) j rfl hjp
    have hmem := (h.mem_iff i).2 ⟨hlt, hopen⟩
    rwa [hq, List.append_nil] at hmem

/-- An entry that is related to no earlier one comes before it. -/
theorem idxOf_lt_of_pairwise {R : Nat → Nat → Prop} {l : List Nat} (h : l.Pairwise R) {i j : Nat} (hi : i ∈ l)
    (hj : j ∈ l) (hne : j ≠ i) (hR : ¬ R i j) : l.idxOf j < l.idxOf i := by
  have hi' := List.idxOf_lt_length_of_mem hi
  have hj' := List.idxOf_lt_length_of_mem hj
  rcases Nat.lt_trichotomy (l.idxOf j) (l.idxOf i) with hlt | heq | hgt
  · exact hlt
  · have : j = i := by rw [← List.getElem_idxOf hj', ← List.getElem_idxOf hi']; simp only [heq]
    exact absurd this hne
  · have := List.pairwise_iff_getElem.1 h _ _ hi' hj' hgt
    rw [List.getElem_idxOf, List.getElem_idxOf] at this
    exact absurd this hR

/-! ## Orders -/

/-- The code that a name stands for. -/
def target (aliases : Table String) (name : String) : String := (aliases.get? name).getD name

end Plan

/-- **A node depends on another one**: it reads the other's code, or a short name for it. -/
def Node.DependsOn (aliases : Table String) (a b : Node) : Prop :=
  ∃ name ∈ a.expr.reads, Plan.target aliases name = b.code

namespace Plan

variable {nodes : List Node} {aliases : Table String}

theorem length_graph : (graph nodes aliases).length = nodes.length := by
  simp [graph]

theorem needs_graph {i : Nat} (hi : i < nodes.length) :
    needs (graph nodes aliases) i = dependencies nodes aliases i := by
  simp [needs, graph, hi]

theorem nodup_needs_graph (i : Nat) : (needs (graph nodes aliases) i).Nodup := by
  by_cases hi : i < nodes.length
  · rw [needs_graph hi, dependencies]
    split
    · exact List.nodup_nil
    · exact List.nodup_range.filter _
  · simp [needs, graph, hi]

/-- With codes all different, a code has one place. -/
theorem index_eq_of_code (hcodes : (nodes.map (·.code)).Nodup) {i j : Nat} {a b : Node} (ha : nodes[i]? = some a)
    (hb : nodes[j]? = some b) (hcode : a.code = b.code) : i = j := by
  have hget : ∀ {k : Nat} {c : Node}, nodes[k]? = some c → (nodes.map (·.code))[k]? = some c.code := fun h => by
    rw [List.getElem?_map, h]; rfl
  have hi : i < (nodes.map (·.code)).length := (List.getElem?_eq_some_iff.1 (hget ha)).1
  exact (List.getElem?_inj hi hcodes).1 (by rw [hget ha, hget hb, hcode])

/-- With codes all different, a code belongs to the one node that has it. -/
theorem owner?_eq_some_iff (hcodes : (nodes.map (·.code)).Nodup) {code : String} {j : Nat} :
    owner? nodes code = some j ↔ ∃ b, nodes[j]? = some b ∧ b.code = code := by
  have hmem : ∀ (b : Node) (k : Nat), (b, k) ∈ nodes.zipIdx.reverse ↔ nodes[k]? = some b := fun b k => by
    rw [List.mem_reverse, List.mem_zipIdx_iff_getElem?]
  constructor
  · intro h
    obtain ⟨⟨b, k⟩, hfind, rfl⟩ := Option.map_eq_some_iff.1 h
    exact ⟨b, (hmem b k).1 (List.mem_of_find?_eq_some hfind), by simpa using List.find?_some hfind⟩
  · rintro ⟨b, hb, rfl⟩
    rw [owner?]
    cases hfind : nodes.zipIdx.reverse.find? (fun n => n.1.code == b.code) with
    | none =>
      have := List.find?_eq_none.1 hfind (b, j) ((hmem b j).2 hb)
      simp at this
    | some n =>
      obtain ⟨b', k⟩ := n
      have hb' := (hmem b' k).1 (List.mem_of_find?_eq_some hfind)
      have hcode : b'.code = b.code := by simpa using List.find?_some hfind
      rw [Option.map_some, index_eq_of_code hcodes hb' hb hcode]

theorem mem_dependencies_iff (hcodes : (nodes.map (·.code)).Nodup) {i j : Nat} {a : Node} (ha : nodes[i]? = some a) :
    j ∈ dependencies nodes aliases i ↔ j ≠ i ∧ ∃ b, nodes[j]? = some b ∧ a.DependsOn aliases b := by
  simp only [dependencies, ha, List.mem_filter, List.mem_range, Bool.and_eq_true, bne_iff_ne, List.contains_iff_mem,
    List.mem_filterMap, owner?_eq_some_iff hcodes, Node.DependsOn, target]
  constructor
  · rintro ⟨-, hne, name, hname, b, hb, hcode⟩
    exact ⟨hne, b, hb, name, hname, hcode.symm⟩
  · rintro ⟨hne, b, hb, name, hname, hcode⟩
    exact ⟨(List.getElem?_eq_some_iff.1 hb).1, hne, name, hname, b, hb, hcode.symm⟩

theorem order_eq_ok_iff {l : List Nat} :
    order nodes aliases = .ok l ↔
      (after (graph nodes aliases) nodes.length).placed = l ∧ nodes.length ≤ l.length := by
  unfold order
  dsimp only
  split
  · rename_i hlt
    constructor
    · intro h; cases h
    · rintro ⟨rfl, hle⟩; omega
  · rename_i hge
    rw [Except.ok.injEq]
    constructor
    · rintro rfl; exact ⟨rfl, by omega⟩
    · exact fun h => h.1

/-- **An order has every node once.** -/
theorem order_perm {l : List Nat} (h : order nodes aliases = .ok l) : l.Perm (List.range nodes.length) := by
  obtain ⟨rfl, hle⟩ := order_eq_ok_iff.1 h
  have hs := sound_after (g := graph nodes aliases) nodup_needs_graph nodes.length
  have hnd := (List.nodup_append.1 hs.nodup).1
  have hsub : (after (graph nodes aliases) nodes.length).placed ⊆ List.range nodes.length := fun i hi => by
    have := ((hs.mem_iff i).1 (List.mem_append_left _ hi)).1
    rw [length_graph] at this
    exact List.mem_range.2 this
  exact (hnd.subperm hsub).perm_of_length_le (by rwa [List.length_range])

/-- **No node of an order depends on a later one.** -/
theorem order_pairwise {l : List Nat} (h : order nodes aliases = .ok l) :
    l.Pairwise fun i j => j ∉ dependencies nodes aliases i := by
  obtain ⟨rfl, -⟩ := order_eq_ok_iff.1 h
  have hs := sound_after (g := graph nodes aliases) nodup_needs_graph nodes.length
  refine hs.ordered.imp_of_mem fun {i j} hi _ hn hj => hn ?_
  have hil := ((hs.mem_iff i).1 (List.mem_append_left _ hi)).1
  rw [length_graph] at hil
  rwa [needs_graph hil]

/-- **There is an order where the nodes can be ranked** so that each one's dependencies rank below it. -/
theorem order_isOk (rank : Nat → Nat)
    (hrank : ∀ i < nodes.length, ∀ j ∈ dependencies nodes aliases i, rank j < rank i) :
    ∃ l, order nodes aliases = .ok l := by
  have hs := sound_after (g := graph nodes aliases) nodup_needs_graph nodes.length
  refine ⟨_, order_eq_ok_iff.2 ⟨rfl, ?_⟩⟩
  -- as many steps as nodes: they have emptied the queue, or each of them has placed a node
  rcases after_length (graph nodes aliases) nodes.length with hq | hlen
  · have hall : List.range nodes.length ⊆ (after (graph nodes aliases) nodes.length).placed := fun i hi => by
      have hi' : i < (graph nodes aliases).length := length_graph.symm ▸ List.mem_range.1 hi
      refine hs.mem_placed hq rank (P := (· < (graph nodes aliases).length)) (fun i hi => ⟨hi, fun j hj => ?_⟩)
        (rank i) i rfl hi'
      rw [length_graph] at hi ⊢
      rw [needs_graph hi] at hj
      refine ⟨?_, hrank i hi j hj⟩
      rw [dependencies] at hj
      split at hj
      · cases hj
      · exact List.mem_range.1 (List.mem_filter.1 hj).1
    have := (List.nodup_range.subperm hall).length_le
    rwa [List.length_range] at this
  · exact Nat.le_of_eq hlen.symm

/-! ## Orders of nodes -/

/-- The nodes at the places of an order. -/
def arranged (nodes : List Node) (l : List Nat) : List Node := l.filterMap fun i => nodes[i]?

theorem arranged_range : ∀ nodes : List Node, arranged nodes (List.range nodes.length) = nodes
  | [] => rfl
  | n :: nodes => by
    rw [arranged, List.length_cons, List.range_succ_eq_map, List.filterMap_cons, List.filterMap_map]
    exact congrArg (n :: ·) (arranged_range nodes)

theorem arranged_perm {l : List Nat} (h : order nodes aliases = .ok l) : (arranged nodes l).Perm nodes := by
  have := (order_perm h).filterMap fun i => nodes[i]?
  rwa [← arranged, ← arranged, arranged_range] at this

/-- **In an order of nodes with different codes no node depends on a later one.** -/
theorem arranged_pairwise (hcodes : (nodes.map (·.code)).Nodup) {l : List Nat} (h : order nodes aliases = .ok l) :
    (arranged nodes l).Pairwise fun a b => ¬ a.DependsOn aliases b := by
  have hnd : l.Nodup := (order_perm h).nodup_iff.2 List.nodup_range
  refine List.Pairwise.filterMap _ (fun i j hij a ha b hb hdep => ?_) ((order_pairwise h).and hnd)
  exact hij.1 ((mem_dependencies_iff hcodes ha).2 ⟨fun he => hij.2 he.symm, b, hb, hdep⟩)

/-- **Wherever some arrangement has no node before its dependencies, an order is found.** -/
theorem exists_order (hcodes : (nodes.map (·.code)).Nodup) {plan : List Node} (hperm : plan.Perm nodes)
    (hplan : plan.Pairwise fun a b => ¬ a.DependsOn aliases b) : ∃ l, order nodes aliases = .ok l := by
  have hcodes' : (plan.map (·.code)).Nodup := (hperm.map _).nodup_iff.2 hcodes
  -- a node ranks by its place in the arrangement
  refine order_isOk (fun i => (plan.map (·.code)).idxOf ((nodes[i]?.map (·.code)).getD "")) fun i hi j hj => ?_
  have ha : nodes[i]? = some nodes[i] := List.getElem?_eq_getElem hi
  obtain ⟨hne, b, hb, hdep⟩ := (mem_dependencies_iff hcodes ha).1 hj
  rw [ha, hb, Option.map_some, Option.map_some, Option.getD_some, Option.getD_some]
  have hpos : ∀ {a : Node}, a ∈ nodes → ∃ k, plan[k]? = some a ∧ (plan.map (·.code)).idxOf a.code = k := by
    intro a hmem
    obtain ⟨k, hk⟩ := List.mem_iff_getElem?.1 (hperm.mem_iff.2 hmem)
    refine ⟨k, hk, ?_⟩
    obtain ⟨hlt, hget⟩ := List.getElem?_eq_some_iff.1 hk
    have := hcodes'.idxOf_getElem k (by rwa [List.length_map])
    rwa [List.getElem_map, hget] at this
  obtain ⟨m, hm, hmidx⟩ := hpos (List.mem_of_getElem? ha)
  obtain ⟨n, hn, hnidx⟩ := hpos (List.mem_of_getElem? hb)
  rw [hmidx, hnidx]
  rcases Nat.lt_trichotomy n m with hlt | heq | hgt
  · exact hlt
  · subst heq
    rw [hm, Option.some.injEq] at hn
    exact absurd (index_eq_of_code hcodes hb ha (by rw [hn])) hne
  · obtain ⟨hmlt, hmget⟩ := List.getElem?_eq_some_iff.1 hm
    obtain ⟨hnlt, hnget⟩ := List.getElem?_eq_some_iff.1 hn
    have := List.pairwise_iff_getElem.1 hplan m n hmlt hnlt hgt
    rw [hmget, hnget] at this
    exact absurd hdep this

end Plan
end Scoresheet
