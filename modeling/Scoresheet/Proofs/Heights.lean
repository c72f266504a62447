import Scoresheet.Proofs.Accepting
import Scoresheet.Proofs.Taking
/-!
# How high the tree of a formula can be

Levels bound the height of a tree, but not by their number.  A bracketed expression gives its levels back, so the
operators after it take the same levels again, and the tree within the brackets is their left operand: the levels of a
bracket inside are added to the ones outside.  With `n` levels to spare a whole expression is at most
`1 + 2 + ... + n` high, and some are.
-/
namespace Scoresheet

namespace Expr

mutual

/-- The number of trees on the longest way from a tree down to a leaf. -/
def height : Expr → Nat
  | .literal _ | .name _ => 1
  | .binary _ l r => max l.height r.height + 1
  | .unary _ e => e.height + 1
  | .call _ ps ks => max (heightOfAll ps) (heightOfKeywords ks) + 1
  | .subscript b i => max b.height i.height + 1
  | .list es | .tuple es => heightOfAll es + 1
  | .dict es => heightOfEntries es + 1

def heightOfAll : List Expr → Nat
  | [] => 0
  | e :: es => max e.height (heightOfAll es)

def heightOfKeywords : List (String × Expr) → Nat
  | [] => 0
  | (_, e) :: ks => max e.height (heightOfKeywords ks)

def heightOfEntries : List (Expr × Expr) → Nat
  | [] => 0
  | (k, v) :: es => max (max k.height v.height) (heightOfEntries es)

end

theorem heightOfAll_le {n : Nat} : ∀ {es : List Expr}, (∀ e ∈ es, e.height ≤ n) → heightOfAll es ≤ n
  | [], _ => Nat.zero_le n
  | _ :: _, h => by
    rw [List.forall_mem_cons] at h
    exact Nat.max_le.2 ⟨h.1, heightOfAll_le h.2⟩

theorem heightOfKeywords_le {n : Nat} : ∀ {ks : List (String × Expr)}, (∀ k ∈ ks, k.2.height ≤ n) →
    heightOfKeywords ks ≤ n
  | [], _ => Nat.zero_le n
  | _ :: _, h => by
    rw [List.forall_mem_cons] at h
    exact Nat.max_le.2 ⟨h.1, heightOfKeywords_le h.2⟩

theorem heightOfEntries_le {n : Nat} : ∀ {es : List (Expr × Expr)},
    (∀ e ∈ es, e.1.height ≤ n ∧ e.2.height ≤ n) → heightOfEntries es ≤ n
  | [], _ => Nat.zero_le n
  | _ :: _, h => by
    rw [List.forall_mem_cons] at h
    exact Nat.max_le.2 ⟨Nat.max_le.2 h.1, heightOfEntries_le h.2⟩

end Expr

namespace Parse

open Grammar

/-- The greatest height of a whole expression, by the levels to spare. -/
def tower : Nat → Nat
  | 0 => 0
  | n + 1 => tower n + (n + 1)

theorem tower_mono {m n : Nat} (h : m ≤ n) : tower m ≤ tower n := by
  induction h with
  | refl => exact Nat.le_refl _
  | step _ ih => exact Nat.le_trans ih (Nat.le_add_right _ _)

/-- With `start` levels before it and `spare` after it, `e` is no higher than a whole expression with `start` levels in
brackets and one tree more for each level it keeps. -/
def Fits (start : Nat) (e : Expr) (spare : Nat) : Prop := spare ≤ start ∧ e.height + spare ≤ tower start + 1 + start

namespace Fits

variable {start spare spare' : Nat} {e l r b i : Expr}

theorem of_height (h : e.height ≤ tower start + 1) : Fits start e start := ⟨Nat.le_refl start, by omega⟩

theorem height_le (h : Fits start e spare) : e.height ≤ tower (start + 1) := by
  have := h.2
  rw [tower]
  omega

theorem binary {op : BinaryOp} (hl : Fits start l (spare + 1)) (hr : Fits spare r spare') :
    Fits start (.binary op l r) spare' := by
  obtain ⟨hspare, hl⟩ := hl
  obtain ⟨hspare', hr⟩ := hr
  -- the operator takes the level that makes room for its node above either operand
  have := tower_mono (Nat.le_of_succ_le hspare)
  refine ⟨by omega, ?_⟩
  rw [Expr.height]
  omega

theorem sign {s : Sign} (h : Fits start e spare) : Fits (start + 1) (.unary s e) spare := by
  obtain ⟨hspare, h⟩ := h
  refine ⟨by omega, ?_⟩
  rw [Expr.height, tower]
  omega

theorem subscript (hb : Fits start b (spare + 1)) (hi : i.height ≤ tower spare) :
    Fits start (.subscript b i) spare := by
  obtain ⟨hspare, hb⟩ := hb
  have := tower_mono (Nat.le_of_succ_le hspare)
  refine ⟨by omega, ?_⟩
  rw [Expr.height]
  omega

theorem call {f : Function} {ps : List Expr} {ks : List (String × Expr)} (hb : Fits start b (spare + 1))
    (hps : ∀ e ∈ ps, e.height ≤ tower spare) (hks : ∀ k ∈ ks, k.2.height ≤ tower spare) :
    Fits start (.call f ps ks) spare := by
  have hspare := hb.1
  have := tower_mono (Nat.le_of_succ_le hspare)
  have := Expr.heightOfAll_le hps
  have := Expr.heightOfKeywords_le hks
  refine ⟨by omega, ?_⟩
  rw [Expr.height]
  omega

end Fits

theorem descend_eq_ok {spare inner : Nat} (h : descend spare = .ok inner) : spare = inner + 1 := by
  cases spare with
  | zero => cases h
  | succ n =>
    cases h
    rfl

theorem height_of_word {s : String} {e : Expr} (h : wordExpr s = .ok e) : e.height = 1 := by
  unfold wordExpr at h
  split at h
  · cases h
    rfl
  · split at h
    · cases h
      rfl
    · split at h
      · cases h
        rfl
      · split at h
        · cases h
        · cases h
          rfl

mutual

theorem fits_expr (stop spare : Nat) (ts : List Token) :
    Finds (found (expr stop spare ts)) fun e s _ => s = spare ∧ e.height ≤ tower spare := by
  rw [found_expr]
  refine .lift fun inner hinner => (fits_additive stop inner ts).bind fun e s rest _ he => ?_
  obtain rfl := descend_eq_ok hinner
  exact .ok ⟨rfl, he.height_le⟩
termination_by 9 * ts.length + 6

theorem fits_additive (stop spare : Nat) (ts : List Token) :
    Finds (found (additive stop spare ts)) fun e s _ => Fits spare e s := by
  rw [found_additive]
  exact (fits_term stop spare ts).bind fun l s rest _ hl => fits_additiveRest stop s rest hl
termination_by 9 * ts.length + 5

theorem fits_additiveRest (stop spare : Nat) (ts : List Token) {start : Nat} {l : Expr} (hl : Fits start l spare) :
    Finds (found (additiveRest stop spare l ts)) fun e s _ => Fits start e s := by
  rw [found_additiveRest]
  generalize hts : ts = tokens
  split
  · exact .ok hl
  · rename_i t more
    split
    · exact .ok hl
    · refine .lift fun inner hinner => (fits_term stop inner more).bind fun r s rest _ hr => ?_
      obtain rfl := descend_eq_ok hinner
      exact fits_additiveRest stop s rest (hl.binary hr)
termination_by 9 * ts.length + 4
decreasing_by all_goals (subst_vars; (try simp only [List.length_cons]); omega)

theorem fits_term (stop spare : Nat) (ts : List Token) :
    Finds (found (term stop spare ts)) fun e s _ => Fits spare e s := by
  rw [found_term]
  exact (fits_unary stop spare ts).bind fun l s rest _ hl => fits_termRest stop s rest hl
termination_by 9 * ts.length + 3

theorem fits_termRest (stop spare : Nat) (ts : List Token) {start : Nat} {l : Expr} (hl : Fits start l spare) :
    Finds (found (termRest stop spare l ts)) fun e s _ => Fits start e s := by
  rw [found_termRest]
  generalize hts : ts = tokens
  split
  · exact .ok hl
  · rename_i t more
    split
    · refine .lift fun inner hinner => (fits_unary stop inner more).bind fun r s rest _ hr => ?_
      obtain rfl := descend_eq_ok hinner
      exact fits_termRest stop s rest (hl.binary hr)
    · split
      · exact .error
      · exact .ok hl
termination_by 9 * ts.length + 2
decreasing_by all_goals (subst_vars; (try simp only [List.length_cons]); omega)

theorem fits_unary (stop spare : Nat) (ts : List Token) :
    Finds (found (unary stop spare ts)) fun e s _ => Fits spare e s := by
  rw [found_unary]
  generalize hts : ts = tokens
  split
  · exact .error
  · rename_i t more
    split
    · refine .lift fun inner hinner => (fits_unary stop inner more).bind fun e s rest _ he => ?_
      obtain rfl := descend_eq_ok hinner
      exact .ok he.sign
    · split
      · exact .error
      · refine (fits_postfixed stop spare (t :: more)).bind fun e s rest _ he => ?_
        unfold refusePower
        split
        · exact .error
        · exact .ok he
termination_by 9 * ts.length + 2
decreasing_by all_goals (subst_vars; (try simp only [List.length_cons]); omega)

theorem fits_postfixed (stop spare : Nat) (ts : List Token) :
    Finds (found (postfixed stop spare ts)) fun e s _ => Fits spare e s := by
  rw [found_postfixed]
  refine (fits_primary stop spare ts).bind fun b s rest _ hb => ?_
  obtain ⟨rfl, hb⟩ := hb
  exact fits_postfixRest stop s rest (.of_height hb)
termination_by 9 * ts.length + 1

theorem fits_postfixRest (stop spare : Nat) (ts : List Token) {start : Nat} {b : Expr} (hb : Fits start b spare) :
    Finds (found (postfixRest stop spare b ts)) fun e s _ => Fits start e s := by
  rw [found_postfixRest]
  generalize hts : ts = tokens
  split
  · rename_i more
    refine .lift fun inner hinner => ?_
    obtain rfl := descend_eq_ok hinner
    split
    · split
      · exact .error
      · rename_i f hf
        have hargs := fits_arguments stop inner more (f := f) (List.forall_mem_nil _) (List.forall_mem_nil _)
        refine hargs.bind fun args s rest _ hargs => ?_
        obtain ⟨rfl, hps, hks⟩ := hargs
        exact fits_postfixRest stop s rest (hb.call hps hks)
    · exact .error
  · rename_i more
    refine .lift fun inner hinner => (fits_expr stop inner more).bind fun i s rest hlt hi => ?_
    obtain rfl := descend_eq_ok hinner
    obtain ⟨rfl, hi⟩ := hi
    unfold afterIndex
    dsimp only
    split
    · exact .error
    · have hlt := Nat.lt_of_succ_lt hlt
      exact fits_postfixRest stop s _ (hb.subscript hi)
    · exact .error
  · exact .error
  · exact .ok hb
termination_by 9 * ts.length + 0
decreasing_by all_goals (subst_vars; (try simp only [List.length_cons]); omega)

theorem fits_arguments (stop spare : Nat) (ts : List Token) {f : Function} {ps : List Expr}
    {ks : List (String × Expr)} (hps : ∀ e ∈ ps, e.height ≤ tower spare) (hks : ∀ k ∈ ks, k.2.height ≤ tower spare) :
    Finds (found (arguments stop spare f ps ks ts)) fun args s _ =>
      s = spare ∧ (∀ e ∈ args.1, e.height ≤ tower spare) ∧ ∀ k ∈ args.2, k.2.height ≤ tower spare := by
  rw [found_arguments]
  generalize hts : ts = tokens
  split
  · exact .ok ⟨rfl, hps, hks⟩
  · rename_i k _ _ more
    split
    · exact .error
    · refine (fits_expr stop spare more).bind fun e s rest _ he => ?_
      obtain ⟨rfl, he⟩ := he
      exact fits_argumentsRest stop s rest hps (List.forall_mem_append.2 ⟨hks, List.forall_mem_singleton.2 he⟩)
  · split
    · subst hts
      refine (fits_expr stop spare ts).bind fun e s rest _ he => ?_
      obtain ⟨rfl, he⟩ := he
      exact fits_argumentsRest stop s rest (List.forall_mem_append.2 ⟨hps, List.forall_mem_singleton.2 he⟩) hks
    · exact .error
termination_by 9 * ts.length + 8
decreasing_by all_goals (subst_vars; (try simp only [List.length_cons]); omega)

theorem fits_argumentsRest (stop spare : Nat) (ts : List Token) {f : Function} {ps : List Expr}
    {ks : List (String × Expr)} (hps : ∀ e ∈ ps, e.height ≤ tower spare) (hks : ∀ k ∈ ks, k.2.height ≤ tower spare) :
    Finds (found (argumentsRest stop spare f ps ks ts)) fun args s _ =>
      s = spare ∧ (∀ e ∈ args.1, e.height ≤ tower spare) ∧ ∀ k ∈ args.2, k.2.height ≤ tower spare := by
  rw [found_argumentsRest]
  generalize hts : ts = tokens
  split
  · exact fits_arguments stop spare _ hps hks
  · exact .ok ⟨rfl, hps, hks⟩
  · exact .error
termination_by 9 * ts.length + 7
decreasing_by all_goals (subst_vars; (try simp only [List.length_cons]); omega)

theorem fits_primary (stop spare : Nat) (ts : List Token) :
    Finds (found (primary stop spare ts)) fun e s _ => s = spare ∧ e.height ≤ tower spare + 1 := by
  rw [found_primary]
  generalize hts : ts = tokens
  split
  · exact .ok ⟨rfl, by simp [Expr.height]⟩
  · exact .ok ⟨rfl, by simp [Expr.height]⟩
  · refine .lift fun e he => .ok ⟨rfl, ?_⟩
    rw [height_of_word he]
    omega
  · rename_i more
    split
    · exact .ok ⟨rfl, by simp [Expr.height, Expr.heightOfAll]⟩
    · refine (fits_expr stop spare _).bind fun e s rest hlt he => ?_
      obtain ⟨rfl, he⟩ := he
      unfold afterFirst
      dsimp only
      split
      · exact .ok ⟨rfl, by omega⟩
      · have hlt := Nat.lt_of_succ_lt hlt
        refine (fits_items stop s _ (List.forall_mem_singleton.2 he)).bind fun es s' rest _ hes => ?_
        obtain ⟨rfl, hes⟩ := hes
        exact .ok ⟨rfl, Nat.succ_le_succ (Expr.heightOfAll_le hes)⟩
      · exact .error
  · rename_i more
    refine (fits_items stop spare more (by simp)).bind fun es s rest _ hes => ?_
    obtain ⟨rfl, hes⟩ := hes
    exact .ok ⟨rfl, Nat.succ_le_succ (Expr.heightOfAll_le hes)⟩
  · rename_i more
    refine (fits_dictEntries stop spare more (by simp)).bind fun es s rest _ hes => ?_
    obtain ⟨rfl, hes⟩ := hes
    exact .ok ⟨rfl, Nat.succ_le_succ (Expr.heightOfEntries_le hes)⟩
  · exact .error
termination_by 9 * ts.length + 0
decreasing_by all_goals (subst_vars; (try simp only [List.length_cons]); omega)

theorem fits_items (stop spare : Nat) (ts : List Token) {close : Symbol} {es : List Expr}
    (hes : ∀ e ∈ es, e.height ≤ tower spare) :
    Finds (found (items stop spare close es ts)) fun all s _ => s = spare ∧ ∀ e ∈ all, e.height ≤ tower spare := by
  rw [found_items]
  split
  · exact .ok ⟨rfl, hes⟩
  · refine (fits_expr stop spare ts).bind fun e s rest _ he => ?_
    obtain ⟨rfl, he⟩ := he
    exact fits_itemsRest stop s rest (List.forall_mem_append.2 ⟨hes, List.forall_mem_singleton.2 he⟩)
termination_by 9 * ts.length + 8

theorem fits_itemsRest (stop spare : Nat) (ts : List Token) {close : Symbol} {es : List Expr}
    (hes : ∀ e ∈ es, e.height ≤ tower spare) :
    Finds (found (itemsRest stop spare close es ts)) fun all s _ => s = spare ∧ ∀ e ∈ all, e.height ≤ tower spare := by
  rw [found_itemsRest]
  generalize hts : ts = tokens
  split
  · exact .error
  · rename_i t more
    split
    · exact fits_items stop spare more hes
    · split
      · exact .ok ⟨rfl, hes⟩
      · exact .error
termination_by 9 * ts.length + 7
decreasing_by all_goals (subst_vars; (try simp only [List.length_cons]); omega)

theorem fits_dictEntries (stop spare : Nat) (ts : List Token) {es : List (Expr × Expr)}
    (hes : ∀ e ∈ es, e.1.height ≤ tower spare ∧ e.2.height ≤ tower spare) :
    Finds (found (dictEntries stop spare es ts)) fun all s _ =>
      s = spare ∧ ∀ e ∈ all, e.1.height ≤ tower spare ∧ e.2.height ≤ tower spare := by
  rw [found_dictEntries]
  generalize hts : ts = tokens
  split
  · exact .ok ⟨rfl, hes⟩
  · subst hts
    refine (fits_expr stop spare ts).bind fun k s rest hlt hk => ?_
    obtain ⟨rfl, hk⟩ := hk
    unfold afterKey
    dsimp only
    split
    · have hlt := Nat.lt_of_succ_lt hlt
      refine (fits_expr stop s _).bind fun v s' rest _ hv => ?_
      obtain ⟨rfl, hv⟩ := hv
      exact fits_dictEntriesRest stop s' rest (List.forall_mem_append.2 ⟨hes, List.forall_mem_singleton.2 ⟨hk, hv⟩⟩)
    · exact .error
termination_by 9 * ts.length + 8
decreasing_by all_goals (subst_vars; omega)

theorem fits_dictEntriesRest (stop spare : Nat) (ts : List Token) {es : List (Expr × Expr)}
    (hes : ∀ e ∈ es, e.1.height ≤ tower spare ∧ e.2.height ≤ tower spare) :
    Finds (found (dictEntriesRest stop spare es ts)) fun all s _ =>
      s = spare ∧ ∀ e ∈ all, e.1.height ≤ tower spare ∧ e.2.height ≤ tower spare := by
  rw [found_dictEntriesRest]
  generalize hts : ts = tokens
  split
  · exact fits_dictEntries stop spare _ hes
  · exact .ok ⟨rfl, hes⟩
  · exact .error
termination_by 9 * ts.length + 7
decreasing_by all_goals (subst_vars; (try simp only [List.length_cons]); omega)

end

/-! ## Whole texts -/

theorem height_of_topItems {stop : Nat} {before all : List Expr} {ts rest : List Token}
    (h : topItems stop before ts = .ok (all, rest)) (hbefore : ∀ e ∈ before, e.height ≤ tower maxLevel) :
    ∀ e ∈ all, e.height ≤ tower maxLevel := by
  rw [topItems_eq] at h
  generalize hts : ts = tokens at h
  cases tokens with
  | nil =>
    cases h
    exact hbefore
  | cons t more =>
    obtain ⟨⟨e, s, rest'⟩, hfound, h⟩ := bind_eq_ok_iff.1 h
    have hall := List.forall_mem_append.2
      ⟨hbefore, List.forall_mem_singleton.2 (fits_expr stop maxLevel (t :: more) e s rest' hfound).2⟩
    have hlt := length_lt_of_found hfound
    dsimp only at h
    split at h
    · have hlt := Nat.lt_of_succ_lt hlt
      exact height_of_topItems h hall
    · cases h
      exact hall
termination_by ts.length
decreasing_by
  rw [hts]
  exact hlt

theorem height_of_tokens {stop : Nat} {ts : List Token} {e : Expr} (h : tokens stop ts = .ok e) :
    e.height ≤ tower maxLevel + 1 := by
  unfold tokens at h
  obtain ⟨⟨a, rest⟩, htop, h⟩ := bind_eq_ok_iff.1 h
  obtain ⟨_, -, h⟩ := bind_eq_ok_iff.1 h
  cases h
  rw [top_eq] at htop
  obtain ⟨⟨l, s, rest⟩, hfound, htop⟩ := bind_eq_ok_iff.1 htop
  have hl := (fits_expr stop maxLevel ts l s rest hfound).2
  dsimp only at htop
  split at htop
  · obtain ⟨⟨all, rest⟩, hitems, htop⟩ := bind_eq_ok_iff.1 htop
    cases htop
    exact Nat.succ_le_succ (Expr.heightOfAll_le (height_of_topItems hitems (List.forall_mem_singleton.2 hl)))
  · cases htop
    exact Nat.le_succ_of_le hl

/-! ## A highest tree -/

/-- An operand of its own. -/
theorem term_of_primary {stop spare : Nat} {t : Token} {more rest : List Token} {e : Expr}
    (h : found (primary stop spare (t :: more)) = .ok (e, spare, rest)) (ht : opens t.lexeme = true)
    (hrest : Loose 1 rest) : found (term stop spare (t :: more)) = .ok (e, spare, rest) := by
  have hpostfixed : found (postfixed stop spare (t :: more)) = .ok (e, spare, rest) := by
    rw [found_postfixed, h]
    exact postfixRest_of_loose (hrest.mono (by decide))
  have hunary : found (unary stop spare (t :: more)) = .ok (e, spare, rest) := by
    rw [found_unary]
    simp only [sign?_of_opens ht, foreignSign?_of_opens ht, hpostfixed]
    exact refusePower_of_loose (hrest.mono (by decide))
  rw [found_term, hunary]
  exact termRest_of_loose hrest

/-- `n` operators and operands. -/
def chain : Nat → List Token
  | 0 => []
  | n + 1 => ⟨.symbol .plus, 0⟩ :: ⟨.name "x", 0⟩ :: chain n

theorem loose_chain {rest : List Token} (hrest : Loose 0 rest) : ∀ n, Loose 1 (chain n ++ rest)
  | 0 => hrest.mono (by decide)
  | _ + 1 => .cons (by decide)

theorem height_of_chain (stop : Nat) {rest : List Token} (hrest : Loose 0 rest) : ∀ {n spare : Nat} {l : Expr},
    n ≤ spare → 1 ≤ l.height →
    ∃ e s, found (additiveRest stop spare l (chain n ++ rest)) = .ok (e, s, rest) ∧ e.height = l.height + n
  | 0, spare, l, _, _ => ⟨l, spare, additiveRest_of_loose hrest, rfl⟩
  | n + 1, spare + 1, l, hn, hl => by
    have hright : found (term stop spare (⟨.name "x", 0⟩ :: (chain n ++ rest))) =
        .ok (.name "x", spare, chain n ++ rest) := by
      refine term_of_primary ?_ rfl (loose_chain hrest n)
      rw [found_primary]
      rfl
    obtain ⟨e, s, he, hheight⟩ := height_of_chain stop (l := .binary .add l (.name "x")) hrest
      (Nat.le_of_succ_le_succ hn) (by rw [Expr.height]; omega)
    refine ⟨e, s, ?_, ?_⟩
    · rw [chain, List.cons_append, found_additiveRest]
      show found (term stop spare (⟨.name "x", 0⟩ :: (chain n ++ rest))) >>= _ = _
      rw [hright]
      exact he
    · rw [hheight, Expr.height, Expr.height, Nat.max_eq_left hl]
      omega

/-- A list of one item in brackets, and a chain that takes all levels which the item gave back. -/
def high : Nat → List Token
  | 0 => [⟨.name "x", 0⟩]
  | n + 1 => ⟨.symbol .openBracket, 0⟩ :: (high n ++ ⟨.symbol .closeBracket, 0⟩ :: chain (n + 1))

theorem head_high (n : Nat) : ∃ t more, high n = t :: more ∧ opens t.lexeme = true := by
  cases n <;> exact ⟨_, _, rfl, rfl⟩

theorem height_of_high (stop : Nat) : ∀ (n : Nat) (rest : List Token), Loose 0 rest →
    ∃ e, found (expr stop (n + 1) (high n ++ rest)) = .ok (e, n + 1, rest) ∧ e.height = tower (n + 1)
  | 0, rest, hrest => by
    have hterm : found (term stop 0 (⟨.name "x", 0⟩ :: rest)) = .ok (.name "x", 0, rest) := by
      refine term_of_primary ?_ rfl (hrest.mono (by decide))
      rw [found_primary]
      rfl
    refine ⟨.name "x", ?_, rfl⟩
    rw [found_expr]
    show found (additive stop 0 (⟨.name "x", 0⟩ :: rest)) >>= _ = _
    rw [found_additive, hterm]
    show found (additiveRest stop 0 (.name "x") rest) >>= _ = _
    rw [additiveRest_of_loose hrest]
    rfl
  | n + 1, rest, hrest => by
    obtain ⟨i, hi, hheight⟩ := height_of_high stop n (⟨.symbol .closeBracket, 0⟩ :: (chain (n + 1) ++ rest))
      (.cons (by decide))
    have hitems : found (items stop (n + 1) .closeBracket []
        (high n ++ ⟨.symbol .closeBracket, 0⟩ :: (chain (n + 1) ++ rest))) =
        .ok ([i], n + 1, chain (n + 1) ++ rest) := by
      rw [found_items, if_neg, hi]
      · show found (itemsRest stop (n + 1) .closeBracket [i] _) = _
        rw [found_itemsRest]
        rfl
      · obtain ⟨t, more, hhigh, ht⟩ := head_high n
        have hbegins : begins t.lexeme = true := by rw [begins, ht, Bool.true_or]
        simpa [hhigh] using head_ne_of_begins hbegins (show Symbol.closeBracket ∈ closers by decide)
    have hterm : found (term stop (n + 1) (high (n + 1) ++ rest)) = .ok (.list [i], n + 1, chain (n + 1) ++ rest) := by
      rw [high, List.cons_append, List.append_assoc, List.cons_append]
      refine term_of_primary ?_ rfl (loose_chain hrest _)
      rw [found_primary]
      dsimp only
      rw [hitems]
      rfl
    have hlist : (Expr.list [i]).height = tower (n + 1) + 1 := by
      rw [Expr.height, Expr.heightOfAll, Expr.heightOfAll, hheight]
      simp
    obtain ⟨e, s, he, hchain⟩ := height_of_chain stop (l := .list [i]) hrest (Nat.le_refl (n + 1)) (by omega)
    refine ⟨e, ?_, ?_⟩
    · rw [found_expr]
      show found (additive stop (n + 1) (high (n + 1) ++ rest)) >>= _ = _
      rw [found_additive, hterm]
      show found (additiveRest stop (n + 1) (.list [i]) (chain (n + 1) ++ rest)) >>= _ = _
      rw [he]
      rfl
    · have hstep : tower (n + 1 + 1) = tower (n + 1) + (n + 1 + 1) := rfl
      omega

end Parse

/-- **The height of a parsed tree is bounded.** -/
theorem height_le_of_parse {source : String} {e : Expr} (h : parse source = .ok e) :
    e.height ≤ maxLevel * (maxLevel + 1) / 2 + 1 := by
  unfold parse at h
  obtain ⟨ts, -, h⟩ := bind_eq_ok_iff.1 h
  exact Parse.height_of_tokens h

theorem height_le_of_parse_calls :
    ∃ e, parse "sum([a, -b])[0]" = .ok e ∧ e.height ≤ maxLevel * (maxLevel + 1) / 2 + 1 := by
  have hok : (parse "sum([a, -b])[0]").isOk = true := by decide +kernel
  cases h : parse "sum([a, -b])[0]" with
  | error f =>
    rw [h] at hok
    cases hok
  | ok e => exact ⟨e, rfl, height_le_of_parse h⟩

/-- The signs take all levels but the two of their brackets, and give them back to the three operators after. -/
def signsThenChain : String := "(" ++ String.ofList (List.replicate 98 '-') ++ "1)+1+1+1"

/-- **A tree may be higher than there are levels.** -/
theorem not_height_le_maxLevel : ¬ ∀ source e, parse source = .ok e → e.height ≤ maxLevel + 1 := by
  intro hall
  have htall : (parse signsThenChain).toOption.map Expr.height = some 102 := by decide +kernel
  obtain ⟨e, he, hheight⟩ := Option.map_eq_some_iff.1 htall
  have := hall signsThenChain e (toOption_eq_some_iff.1 he)
  rw [hheight] at this
  revert this
  decide

/-- **The bound is reached.** -/
theorem exists_height_eq : ∃ ts e, Parse.tokens 0 ts = .ok e ∧ e.height = maxLevel * (maxLevel + 1) / 2 + 1 := by
  obtain ⟨e, he, hheight⟩ := Parse.height_of_high 0 99 [⟨.symbol .comma, 0⟩] (.cons (by decide))
  refine ⟨Parse.high 99 ++ [⟨.symbol .comma, 0⟩], .tuple [e], ?_, ?_⟩
  · have htop : Parse.top 0 (Parse.high 99 ++ [⟨.symbol .comma, 0⟩]) = .ok (.tuple [e], []) := by
      rw [Parse.top_eq, show maxLevel = 99 + 1 from rfl, he]
      show Parse.topItems 0 [e] [] >>= _ = _
      rw [Parse.topItems_eq]
      rfl
    rw [Parse.tokens, htop]
    rfl
  · rw [Expr.height, Expr.heightOfAll, Expr.heightOfAll, hheight]
    rfl

end Scoresheet
