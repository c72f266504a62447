import Scoresheet.Proofs.Guards
import Scoresheet.Proofs.Placing
/-!
# Placing stays in range

Two tables carry the placing: how many nodes each node still waits for, a natural number, and for each node those that
depend on it.  Every place that is read or written in them is a node's, and no count is lowered below zero: a node that
is released misses the one just placed (`Guarded.step_eq`).  So an order is found, or a cycle, without an operation out
of its range (`Guarded.stays_order`).
-/
namespace Scoresheet
namespace Guarded

open Plan (Progress graph dependents needs missing)

/-! ## The tables -/

/-- Node `i` among the dependents of node `j`. -/
def enter (i : Nat) (table : List (List Nat)) (j : Nat) : Option (List (List Nat)) := do
  write table j ((← table[j]?) ++ [i])

def enroll (g : List (List Nat)) (tables : List Nat × List (List Nat)) (i : Nat) :
    Option (List Nat × List (List Nat)) := do
  let deps ← g[i]?
  return (← write tables.1 i deps.length, ← deps.foldlM (enter i) tables.2)

/-- The counts of all nodes and their dependents. -/
def tables (g : List (List Nat)) : Option (List Nat × List (List Nat)) :=
  (List.range g.length).foldlM (enroll g) (List.replicate g.length 0, List.replicate g.length [])

theorem foldlM_enter (i : Nat) : ∀ {deps : List Nat} {table : List (List Nat)}, deps.Nodup →
    (∀ j ∈ deps, j < table.length) →
    deps.foldlM (enter i) table = some (table.mapIdx fun j l => if j ∈ deps then l ++ [i] else l)
  | [], table, _, _ => by
    refine congrArg some (List.ext_getElem (by simp) fun j hj hj' => ?_)
    simp
  | d :: deps, table, hnodup, hlt => by
    obtain ⟨hd, hdeps⟩ := List.nodup_cons.1 hnodup
    have hdlt := hlt d List.mem_cons_self
    have henter : enter i table d = some (table.set d (table[d] ++ [i])) := by
      rw [enter, List.getElem?_eq_getElem hdlt]
      exact if_pos hdlt
    have hrest : ∀ j ∈ deps, j < (table.set d (table[d] ++ [i])).length := fun j hj => by
      rw [List.length_set]
      exact hlt j (List.mem_cons_of_mem _ hj)
    rw [List.foldlM_cons, henter, Option.bind_eq_bind, Option.bind_some, foldlM_enter i hdeps hrest]
    refine congrArg some (List.ext_getElem (by simp) fun j hj hj' => ?_)
    by_cases hjd : j = d
    · subst hjd
      simp [hd]
    · simp [hjd, Ne.symm hjd]

/-- Every dependency is a node, and none is counted twice. -/
structure Regular (g : List (List Nat)) : Prop where
  lt : ∀ i, ∀ j ∈ needs g i, j < g.length
  nodup : ∀ i, (needs g i).Nodup

/-- The tables once the first `k` nodes are enrolled. -/
theorem foldlM_enroll {g : List (List Nat)} (h : Regular g) : ∀ {k : Nat}, k ≤ g.length →
    (List.range k).foldlM (enroll g) (List.replicate g.length 0, List.replicate g.length []) =
      some ((List.range g.length).map (fun i => if i < k then (needs g i).length else 0),
        (List.range g.length).map fun j => (List.range k).filter fun i => (needs g i).contains j)
  | 0, _ => by simp [List.map_const']
  | k + 1, hk => by
    rw [List.range_succ, List.foldlM_append, foldlM_enroll h (Nat.le_of_succ_le hk)]
    have hdeps : g[k]? = some (needs g k) := by
      rw [needs, List.getElem?_eq_getElem hk]
      rfl
    have hcounts : write ((List.range g.length).map fun i => if i < k then (needs g i).length else 0) k
        (needs g k).length =
          some ((List.range g.length).map fun i => if i < k + 1 then (needs g i).length else 0) := by
      rw [write, if_pos (by simpa using Nat.lt_of_succ_le hk)]
      refine congrArg some (List.ext_getElem (by simp) fun i hi hi' => ?_)
      rw [List.getElem_set]
      by_cases hik : k = i
      · subst hik
        simp
      · simp only [if_neg hik, List.getElem_map, List.getElem_range]
        split <;> split <;> first | rfl | omega
    have henter := @foldlM_enter k (needs g k)
      ((List.range g.length).map fun j => (List.range k).filter fun i => (needs g i).contains j) (h.nodup k)
      (by simpa using h.lt k)
    simp only [Option.bind_eq_bind, Option.bind_some, List.foldlM_cons, List.foldlM_nil, enroll, hdeps, hcounts,
      henter, Option.pure_def]
    refine congrArg some (Prod.ext rfl (List.ext_getElem (by simp) fun j hj hj' => ?_))
    by_cases hjk : j ∈ needs g k <;> simp [hjk, List.filter_append]

theorem tables_eq {g : List (List Nat)} (h : Regular g) :
    tables g = some (g.map List.length, (List.range g.length).map (dependents g)) := by
  rw [tables, foldlM_enroll h (Nat.le_refl _)]
  refine congrArg some (Prod.ext (List.ext_getElem (by simp) fun i hi hi' => ?_) rfl)
  have hi : i < g.length := by simpa using hi'
  simp [hi, needs]

/-! ## Steps -/

/-- How far the placing has come, with counts that are natural numbers. -/
structure Placing where
  waiting : List Nat
  queue : List Nat
  placed : List Nat

/-- The same progress, with counts that might be any whole numbers. -/
def Placing.progress (p : Placing) : Progress := ⟨p.waiting.map Int.ofNat, p.queue, p.placed⟩

def release (p : Placing) (i : Nat) : Option Placing := do
  let n ← subtract (← p.waiting[i]?) 1
  return ⟨← write p.waiting i n, if n = 0 then p.queue ++ [i] else p.queue, p.placed⟩

def step (table : List (List Nat)) (p : Placing) : Option Placing :=
  match p.queue with
  | [] => some p
  | i :: rest => do (← table[i]?).foldlM release ⟨p.waiting, rest, p.placed ++ [i]⟩

def after (table : List (List Nat)) (p : Placing) : Nat → Option Placing
  | 0 => some p
  | n + 1 => do step table (← after table p n)

theorem release_eq {p : Placing} {i n : Nat} (h : p.waiting[i]? = some (n + 1)) :
    ∃ p', release p i = some p' ∧ p'.progress = Plan.release p.progress i ∧ p'.waiting = p.waiting.set i n := by
  have hi : i < p.waiting.length := (List.getElem?_eq_some_iff.1 h).1
  have hsubtract : subtract (n + 1) 1 = some n := if_pos (Nat.le_add_left 1 n)
  have hwrite : write p.waiting i n = some (p.waiting.set i n) := if_pos hi
  refine ⟨⟨p.waiting.set i n, if n = 0 then p.queue ++ [i] else p.queue, p.placed⟩, ?_, ?_, rfl⟩
  · rw [release, h]
    simp only [Option.bind_eq_bind, Option.bind_some, hsubtract, hwrite]
    rfl
  · have hmodify : (p.waiting.map Int.ofNat).modify i (· - 1) = (p.waiting.set i n).map Int.ofNat := by
      refine List.ext_getElem? fun k => ?_
      rw [List.getElem?_modify, List.getElem?_map, List.getElem?_map, List.getElem?_set]
      by_cases hik : i = k
      · subst hik
        have hget : p.waiting[i] = n + 1 := (List.getElem?_eq_some_iff.1 h).2
        simp [hi, hget]
      · simp [hik]
    simp [Placing.progress, Plan.release, hmodify, hi]

/-- **Nodes that all wait are released one after the other.** -/
theorem foldlM_release : ∀ {l : List Nat} {p : Placing}, l.Nodup → (∀ i ∈ l, ∃ n, p.waiting[i]? = some (n + 1)) →
    ∃ p', l.foldlM release p = some p' ∧ p'.progress = l.foldl Plan.release p.progress
  | [], p, _, _ => ⟨p, rfl, rfl⟩
  | i :: l, p, hnodup, hwaiting => by
    obtain ⟨hil, hl⟩ := List.nodup_cons.1 hnodup
    obtain ⟨n, hn⟩ := hwaiting i List.mem_cons_self
    obtain ⟨p', hp', hprogress, hset⟩ := release_eq hn
    -- no node is released twice, so the others wait for as many as before
    have hrest : ∀ k ∈ l, ∃ m, p'.waiting[k]? = some (m + 1) := by
      intro k hk
      obtain ⟨m, hm⟩ := hwaiting k (List.mem_cons_of_mem _ hk)
      have hne : i ≠ k := fun he => hil (he ▸ hk)
      exact ⟨m, by rw [hset, List.getElem?_set_ne hne, hm]⟩
    obtain ⟨p'', hp'', hprogress'⟩ := foldlM_release hl hrest
    refine ⟨p'', ?_, by rw [hprogress', hprogress, List.foldl_cons]⟩
    rw [List.foldlM_cons, hp']
    exact hp''

/-- **A step stays in range**: the queue holds nodes, and the dependents of the node that is placed wait for it. -/
theorem step_eq {g : List (List Nat)} {p : Placing} (h : Plan.Sound g p.progress) :
    ∃ p', step ((List.range g.length).map (dependents g)) p = some p' ∧ p'.progress = Plan.step g p.progress := by
  obtain ⟨waiting, queue, placed⟩ := p
  cases queue with
  | nil => exact ⟨_, rfl, rfl⟩
  | cons i rest =>
    have hi : i < g.length := ((h.mem_iff i).1 (List.mem_append_right _ List.mem_cons_self)).1
    have hplaced : i ∉ placed := fun hmem => (List.nodup_append.1 h.nodup).2.2 i hmem i List.mem_cons_self rfl
    -- each dependent misses the node that is placed now, so it waits for one at least
    have hwaiting : ∀ k ∈ dependents g i, ∃ n, waiting[k]? = some (n + 1) := by
      intro k hk
      obtain ⟨hk, hneeds⟩ := Plan.mem_dependents.1 hk
      have hpos : 0 < (missing g placed k).length :=
        List.length_pos_of_mem (show i ∈ missing g placed k by simp [missing, hneeds, hplaced])
      have hcount := h.waiting k
      rw [if_pos hk] at hcount
      obtain ⟨n, hn, hcast⟩ := Option.map_eq_some_iff.1 ((List.getElem?_map ..).symm.trans hcount)
      refine ⟨n - 1, hn.trans (congrArg some ?_)⟩
      have hnat : n = (missing g placed k).length := Int.ofNat.inj hcast
      omega
    have hnodup := Plan.nodup_dependents g i
    obtain ⟨p', hp', hprogress⟩ := @foldlM_release _ ⟨waiting, rest, placed ++ [i]⟩ hnodup hwaiting
    refine ⟨p', ?_, hprogress⟩
    have hentry : ((List.range g.length).map (dependents g))[i]? = some (dependents g i) := by simp [hi]
    rw [step]
    simp only [hentry, Option.bind_eq_bind, Option.bind_some]
    exact hp'

/-- **Every run of steps stays in range.** -/
theorem after_eq {g : List (List Nat)} (hg : Regular g) {p : Placing} (h : p.progress = Plan.start g) :
    ∀ n, ∃ p', after ((List.range g.length).map (dependents g)) p n = some p' ∧ p'.progress = Plan.after g n
  | 0 => ⟨p, rfl, h⟩
  | n + 1 => by
    obtain ⟨p', hp', hprogress⟩ := after_eq hg h n
    have hsound : Plan.Sound g p'.progress := hprogress ▸ Plan.sound_after hg.nodup n
    obtain ⟨p'', hp'', hprogress'⟩ := step_eq hsound
    refine ⟨p'', ?_, by rw [hprogress', hprogress, Plan.after]⟩
    rw [after, hp']
    exact hp''

/-! ## Orders -/

def ready (waiting : List Nat) : Option (List Nat) := do
  let counts ← readAll waiting (List.range waiting.length)
  return (counts.zipIdx.filter fun w => w.1 == 0).map (·.2)

/-- The codes of the nodes that still wait. -/
def stuck (nodes : List Node) (p : Placing) : Option (List String) := do
  let codes ← (List.range nodes.length).mapM fun i => do
    if 0 < (← p.waiting[i]?) then return some (← nodes[i]?).code
    return none
  return codes.filterMap id

def order (nodes : List Node) (aliases : Table String) : Guarded (List Nat) := do
  let (waiting, table) ← within (tables (graph nodes aliases))
  let queue ← within (ready waiting)
  let p ← within (after table ⟨waiting, queue, []⟩ nodes.length)
  if p.placed.length < nodes.length then
    let codes ← within (stuck nodes p)
    throw (.cycle codes)
  else return p.placed

theorem length_waiting {g : List (List Nat)} {p : Progress} (h : Plan.Sound g p) : p.waiting.length = g.length := by
  have hle := h.waiting g.length
  have hge := h.waiting p.waiting.length
  rw [if_neg (Nat.lt_irrefl _), List.getElem?_eq_none_iff] at hle
  rw [List.getElem?_eq_none (Nat.le_refl _)] at hge
  by_cases hlt : p.waiting.length < g.length
  · rw [if_pos hlt] at hge
    cases hge
  · omega

theorem ready_eq (waiting : List Nat) : ready waiting = some (Plan.ready (waiting.map Int.ofNat)) := by
  have hread : readAll waiting (List.range waiting.length) = some waiting := by
    have hall : readAll waiting (List.range waiting.length) =
        some ((List.range waiting.length).map fun i => waiting[i]?.getD 0) := by
      refine mapM_eq fun i hi => ?_
      rw [List.getElem?_eq_getElem (List.mem_range.1 hi)]
      rfl
    rw [hall]
    refine congrArg some (List.ext_getElem (by simp) fun i hi hi' => ?_)
    simp [hi']
  rw [ready, hread, Plan.ready, List.zipIdx_map, List.filter_map, List.map_map]
  refine congrArg some (congrArg (List.map _) (List.filter_congr fun w _ => ?_))
  simp

theorem stuck_eq {nodes : List Node} {p : Placing} (h : p.waiting.length = nodes.length) :
    stuck nodes p = some ((nodes.zip p.progress.waiting).filterMap fun n =>
      if 0 < n.2 then some n.1.code else none) := by
  have hcodes : (List.range nodes.length).mapM (fun i => do
      if 0 < (← p.waiting[i]?) then return some (← nodes[i]?).code
      return none) = some ((nodes.zip p.progress.waiting).map fun n => if 0 < n.2 then some n.1.code else none) := by
    have hall : (List.range nodes.length).map (fun i =>
        if 0 < p.waiting[i]?.getD 0 then nodes[i]?.map (·.code) else none) =
          (nodes.zip p.progress.waiting).map fun n => if 0 < n.2 then some n.1.code else none := by
      refine List.ext_getElem (by simp [Placing.progress, h]) fun i hi hi' => ?_
      have hi : i < nodes.length := by simpa using hi
      simp [Placing.progress, hi, h]
    rw [← hall]
    refine mapM_eq fun i hi => ?_
    have hi := List.mem_range.1 hi
    simp only [List.getElem?_eq_getElem hi, List.getElem?_eq_getElem (h ▸ hi : i < p.waiting.length),
      Option.bind_eq_bind, Option.bind_some, Option.getD_some, Option.map_some]
    split <;> rfl
  rw [stuck, hcodes]
  simp only [Option.bind_eq_bind, Option.bind_some, List.filterMap_map]
  rfl

theorem regular_graph (nodes : List Node) (aliases : Table String) : Regular (graph nodes aliases) := by
  refine ⟨fun i j hj => ?_, Plan.nodup_needs_graph⟩
  by_cases hi : i < nodes.length
  · rw [Plan.needs_graph hi, Plan.dependencies, List.getElem?_eq_getElem hi] at hj
    rw [Plan.length_graph]
    exact List.mem_range.1 (List.mem_filter.1 hj).1
  · simp [needs, graph, hi] at hj

/-- **An order is found, or a cycle, with every place a node's and no count below zero.** -/
theorem stays_order (nodes : List Node) (aliases : Table String) :
    Stays (order nodes aliases) (Plan.order nodes aliases) := by
  have hregular := regular_graph nodes aliases
  have hstart : (⟨(graph nodes aliases).map List.length, Plan.ready (((graph nodes aliases).map List.length).map Int.ofNat),
      []⟩ : Placing).progress = Plan.start (graph nodes aliases) := by
    simp [Placing.progress, Plan.start, Function.comp_def]
  obtain ⟨p, hp, hprogress⟩ := after_eq hregular hstart nodes.length
  have hsound : Plan.Sound (graph nodes aliases) p.progress := hprogress ▸ Plan.sound_after hregular.nodup nodes.length
  have hlength : p.waiting.length = nodes.length := by
    have hwaiting := length_waiting hsound
    rwa [Placing.progress, List.length_map, Plan.length_graph] at hwaiting
  refine (stays_within (tables_eq hregular)).bind_ok ((stays_within (ready_eq _)).bind_ok ((stays_within hp).bind_ok ?_))
  unfold Plan.order
  rw [← hprogress]
  dsimp only [Placing.progress]
  by_cases hfewer : p.placed.length < nodes.length
  · rw [if_pos hfewer, if_pos hfewer]
    exact (stays_within (stuck_eq hlength)).bind_ok (stays_throw _)
  · rw [if_neg hfewer, if_neg hfewer]
    exact stays_pure _

end Guarded
end Scoresheet
