import Scoresheet.Proofs.Accepting
import Scoresheet.Proofs.Grammar
import Scoresheet.Proofs.Readers
/-!
# What a reader reads, the grammar derives

`Reads x ts P` says of all that `x` can find in `ts` that the tokens it took satisfy `P`.  Its rules follow the shape of
the readers, so that each reader has one short proof.  The loops take what was derived before them as a prefix of what
they take themselves.
-/
namespace Scoresheet
namespace Parse

open Grammar

/-- What `x` finds in `ts` is the meaning, by `P`, of the tokens at the front that it takes. -/
def Reads {α : Type} (x : Except FormulaFault (α × Nat × List Token)) (ts : List Token)
    (P : List Token → α → Prop) : Prop :=
  Finds x fun a _ rest => ∃ us, ts = us ++ rest ∧ P us a

namespace Reads

variable {α β γ : Type} {ts more : List Token} {P Q : List Token → α → Prop}

theorem error {f : FormulaFault} : Reads (.error f) ts P := Finds.error

theorem ok {a : α} {s : Nat} {rest : List Token} (us : List Token) (h : P us a) (hts : ts = us ++ rest) :
    Reads (.ok (a, s, rest)) ts P :=
  Finds.ok ⟨us, hts, h⟩

theorem done {a : α} {s : Nat} (h : P [] a) : Reads (.ok (a, s, ts)) ts P := ok [] h rfl

/-- Nothing is taken after what was derived before. -/
theorem stopped {a : α} {s : Nat} {us : List Token} (h : P us a) :
    Reads (.ok (a, s, ts)) ts fun vs => P (us ++ vs) :=
  done (by rwa [List.append_nil])

theorem mono {x : Except FormulaFault (α × Nat × List Token)} (hx : Reads x ts P) (h : ∀ us a, P us a → Q us a) :
    Reads x ts Q :=
  Finds.mono hx fun a _ _ ⟨us, hts, ha⟩ => ⟨us, hts, h us a ha⟩

theorem cons {x : Except FormulaFault (α × Nat × List Token)} {t : Token} (h : Reads x more fun us => P (t :: us)) :
    Reads x (t :: more) P :=
  Finds.mono h fun a _ rest ⟨us, hmore, ha⟩ => ⟨t :: us, by rw [hmore]; rfl, ha⟩

theorem bind {b : Nat} {r : Read β b} {k : β × Nat × List Token → Except FormulaFault (α × Nat × List Token)}
    {P : List Token → β → Prop} (hr : Reads (found r) ts P)
    (hk : ∀ c s us rest, rest.length < b → P us c → Reads (k (c, s, rest)) rest fun vs => Q (us ++ vs)) :
    Reads (found r >>= k) ts Q := by
  refine Finds.bind hr fun c s rest hlt hread => ?_
  obtain ⟨us, hts, hc⟩ := hread
  refine Finds.mono (hk c s us rest hlt hc) fun a _ rest' hread' => ?_
  obtain ⟨vs, hrest, ha⟩ := hread'
  exact ⟨us ++ vs, by rw [hts, hrest, List.append_assoc], ha⟩

theorem lift {x : Except FormulaFault γ} {k : γ → Except FormulaFault (α × Nat × List Token)}
    (h : ∀ c, x = .ok c → Reads (k c) ts P) : Reads (x >>= k) ts P :=
  Finds.lift h

end Reads

/-! ## Single tokens -/

theorem additiveOp?_eq_some {x : Lexeme} {op : BinaryOp} (h : additiveOp? x = some op) :
    x = .symbol op.symbol ∧ op ∈ [BinaryOp.add, .sub] := by
  unfold additiveOp? at h
  split at h <;> cases h <;> exact ⟨rfl, by decide⟩

theorem termOp?_eq_some {x : Lexeme} {op : BinaryOp} (h : termOp? x = some op) :
    x = .symbol op.symbol ∧ op ∈ [BinaryOp.mul, .div, .mod] := by
  unfold termOp? at h
  split at h <;> cases h <;> exact ⟨rfl, by decide⟩

theorem sign?_eq_some {x : Lexeme} {s : Sign} (h : sign? x = some s) : x = .symbol s.symbol := by
  unfold sign? at h
  split at h <;> cases h <;> rfl

theorem isPrimary_of_word {s : String} {e : Expr} (p : Nat) (h : wordExpr s = .ok e) :
    IsPrimary [⟨.name s, p⟩] e := by
  unfold wordExpr at h
  split at h
  · rename_i hs
    cases h
    rw [hs]
    exact .true
  · split at h
    · rename_i hs
      cases h
      rw [hs]
      exact .false
    · split at h
      · rename_i hs
        cases h
        rw [hs]
        exact .none
      · split at h
        · cases h
        · rename_i htrue hfalse hnone hword
          cases h
          exact .name (by simpa using hword) (by simp [htrue, hfalse, hnone])

theorem adjacentTexts_eq : ∀ ts : List Token, ∃ ss : List (String × Nat),
    ts = (ss.map fun s => ⟨.text s.1, s.2⟩) ++ (adjacentTexts ts).2 ∧ (adjacentTexts ts).1 = ss.map Prod.fst
  | ⟨.text s, p⟩ :: more => by
    obtain ⟨ss, hsplit, hss⟩ := adjacentTexts_eq more
    refine ⟨(s, p) :: ss, ?_, ?_⟩
    · rw [adjacentTexts, List.map_cons, List.cons_append, ← hsplit]
    · rw [adjacentTexts, List.map_cons, hss]
  | [] => ⟨[], rfl, rfl⟩
  | ⟨.number _, _⟩ :: _ => ⟨[], rfl, rfl⟩
  | ⟨.name _, _⟩ :: _ => ⟨[], rfl, rfl⟩
  | ⟨.symbol _, _⟩ :: _ => ⟨[], rfl, rfl⟩
  | ⟨.finish, _⟩ :: _ => ⟨[], rfl, rfl⟩

/-! ## Lists -/

/-- The elements `P` gives to the tokens before the closing symbol stand after those read before. -/
def Closed {β : Type} (close : Symbol) (P : List Token → List β → Prop) (before : List β) (us : List Token)
    (all : List β) : Prop :=
  ∃ vs q bs, us = vs ++ [⟨.symbol close, q⟩] ∧ all = before ++ bs ∧ P vs bs

/-- The same for arguments.  No positional one follows a keyword, and all keywords differ. -/
def ClosedArguments (before : CallArguments) (us : List Token) (all : CallArguments) : Prop :=
  ∃ vs q ps ks, us = vs ++ [⟨.symbol .closeParen, q⟩] ∧ all = (before.1 ++ ps, before.2 ++ ks) ∧
    AreArguments vs ps ks ∧ (before.2 = [] ∨ ps = []) ∧ (all.2.map Prod.fst).Nodup

/-- After an element: the closing symbol, and that was all, or a comma and more by `P`. -/
def Continued {β : Type} (close : Symbol) (P : List Token → β → Prop) (before : β) (us : List Token) (all : β) : Prop :=
  (∃ q, us = [⟨.symbol close, q⟩] ∧ all = before) ∨ ∃ p vs, us = ⟨.symbol .comma, p⟩ :: vs ∧ P vs all

theorem Closed.item {close : Symbol} {before all : List Expr} {e : Expr} {us vs : List Token} (he : IsExpr us e)
    (h : Continued close (Closed close AreItems (before ++ [e])) (before ++ [e]) vs all) :
    Closed close AreItems before (us ++ vs) all := by
  rcases h with ⟨q, rfl, rfl⟩ | ⟨p, _, rfl, ws, q, es, rfl, rfl, hes⟩
  · exact ⟨us, q, [e], rfl, rfl, .last he⟩
  · exact ⟨us ++ ⟨.symbol .comma, p⟩ :: ws, q, e :: es, by simp, by simp, .cons he hes⟩

theorem Closed.entry {before all : List (Expr × Expr)} {k v : Expr} {us vs ws : List Token} {p : Nat}
    (hk : IsExpr us k) (hv : IsExpr vs v)
    (h : Continued .closeBrace (Closed .closeBrace AreEntries (before ++ [(k, v)])) (before ++ [(k, v)]) ws all) :
    Closed .closeBrace AreEntries before (us ++ ⟨.symbol .colon, p⟩ :: (vs ++ ws)) all := by
  rcases h with ⟨q, rfl, rfl⟩ | ⟨p', _, rfl, ws, q, es, rfl, rfl, hes⟩
  · exact ⟨us ++ ⟨.symbol .colon, p⟩ :: vs, q, [(k, v)], by simp, rfl, .last hk hv⟩
  · exact ⟨us ++ ⟨.symbol .colon, p⟩ :: (vs ++ ⟨.symbol .comma, p'⟩ :: ws), q, (k, v) :: es, by simp, by simp,
      .cons hk hv hes⟩

theorem ClosedArguments.positional {ps : List Expr} {all : CallArguments} {e : Expr} {us vs : List Token}
    (he : IsExpr us e) (h : Continued .closeParen (ClosedArguments (ps ++ [e], [])) (ps ++ [e], []) vs all) :
    ClosedArguments (ps, []) (us ++ vs) all := by
  rcases h with ⟨q, rfl, rfl⟩ | ⟨p, _, rfl, ws, q, ps', ks, rfl, rfl, hargs, -, hnodup⟩
  · exact ⟨us, q, [e], [], rfl, rfl, .last he, .inl rfl, List.nodup_nil⟩
  · exact ⟨us ++ ⟨.symbol .comma, p⟩ :: ws, q, e :: ps', ks, by simp, by simp, .cons he hargs, .inl rfl, hnodup⟩

theorem ClosedArguments.keyword {ps : List Expr} {ks : List (String × Expr)} {all : CallArguments} {k : String}
    {e : Expr} {us vs : List Token} {p q : Nat} (he : IsExpr us e) (hnodup : ((ks ++ [(k, e)]).map Prod.fst).Nodup)
    (h : Continued .closeParen (ClosedArguments (ps, ks ++ [(k, e)])) (ps, ks ++ [(k, e)]) vs all) :
    ClosedArguments (ps, ks) (⟨.name k, p⟩ :: ⟨.symbol .assign, q⟩ :: (us ++ vs)) all := by
  rcases h with ⟨r, rfl, rfl⟩ | ⟨r, _, rfl, ws, r', ps', ks', rfl, rfl, hargs, hps, hnodup⟩
  · exact ⟨⟨.name k, p⟩ :: ⟨.symbol .assign, q⟩ :: us, r, [], [(k, e)], rfl, by simp, .keywords (.last he), .inr rfl,
      hnodup⟩
  · -- only keywords follow a keyword
    obtain rfl : ps' = [] := hps.resolve_left (by simp)
    cases hargs with
    | keywords hks =>
      exact ⟨⟨.name k, p⟩ :: ⟨.symbol .assign, q⟩ :: (us ++ ⟨.symbol .comma, r⟩ :: ws), r', [], (k, e) :: ks',
        by simp, by simp, .keywords (.cons he hks), .inr rfl, by simpa using hnodup⟩

/-! ## The readers -/

mutual

theorem reads_expr (stop spare : Nat) (ts : List Token) : Reads (found (expr stop spare ts)) ts IsExpr := by
  rw [found_expr]
  refine .lift fun inner _ => (reads_additive stop inner ts).bind fun e s us rest _ he => ?_
  exact .stopped he
termination_by 9 * ts.length + 6

theorem reads_additive (stop spare : Nat) (ts : List Token) : Reads (found (additive stop spare ts)) ts IsExpr := by
  rw [found_additive]
  exact (reads_term stop spare ts).bind fun l s us rest _ hl => reads_additiveRest stop s rest (.term hl)
termination_by 9 * ts.length + 5

theorem reads_additiveRest (stop spare : Nat) (ts : List Token) {us : List Token} {l : Expr} (hl : IsExpr us l) :
    Reads (found (additiveRest stop spare l ts)) ts fun vs => IsExpr (us ++ vs) := by
  rw [found_additiveRest]
  -- the recursion goes by the number of tokens, which `hts` keeps in sight
  generalize hts : ts = tokens
  split
  · exact .stopped hl
  · rename_i t more
    split
    · exact .stopped hl
    · rename_i op hop
      obtain ⟨hx, hop⟩ := additiveOp?_eq_some hop
      have ht : t = ⟨.symbol op.symbol, t.position⟩ := by cases t; cases hx; rfl
      rw [ht]
      refine .lift fun inner _ => .cons ((reads_term stop inner more).bind fun r s vs rest _ hr => ?_)
      refine (reads_additiveRest stop s rest (.binary (p := t.position) hl hop hr)).mono fun ws e he => ?_
      simpa using he
termination_by 9 * ts.length + 4
decreasing_by all_goals (subst_vars; (try simp only [List.length_cons]); omega)

theorem reads_term (stop spare : Nat) (ts : List Token) : Reads (found (term stop spare ts)) ts IsTerm := by
  rw [found_term]
  exact (reads_unary stop spare ts).bind fun l s us rest _ hl => reads_termRest stop s rest (.unary hl)
termination_by 9 * ts.length + 3

theorem reads_termRest (stop spare : Nat) (ts : List Token) {us : List Token} {l : Expr} (hl : IsTerm us l) :
    Reads (found (termRest stop spare l ts)) ts fun vs => IsTerm (us ++ vs) := by
  rw [found_termRest]
  generalize hts : ts = tokens
  split
  · exact .stopped hl
  · rename_i t more
    split
    · rename_i op hop
      obtain ⟨hx, hop⟩ := termOp?_eq_some hop
      have ht : t = ⟨.symbol op.symbol, t.position⟩ := by cases t; cases hx; rfl
      rw [ht]
      refine .lift fun inner _ => .cons ((reads_unary stop inner more).bind fun r s vs rest _ hr => ?_)
      refine (reads_termRest stop s rest (.binary (p := t.position) hl hop hr)).mono fun ws e he => ?_
      simpa using he
    · split
      · exact .error
      · exact .stopped hl
termination_by 9 * ts.length + 2
decreasing_by all_goals (subst_vars; (try simp only [List.length_cons]); omega)

theorem reads_unary (stop spare : Nat) (ts : List Token) : Reads (found (unary stop spare ts)) ts IsUnary := by
  rw [found_unary]
  generalize hts : ts = tokens
  split
  · exact .error
  · rename_i t more
    split
    · rename_i sign hsign
      have ht : t = ⟨.symbol sign.symbol, t.position⟩ := by cases t; cases sign?_eq_some hsign; rfl
      rw [ht]
      refine .lift fun inner _ => .cons ((reads_unary stop inner more).bind fun e s us rest _ he => ?_)
      exact .done (by rw [List.append_nil]; exact .sign he)
    · split
      · exact .error
      · refine (reads_postfixed stop spare (t :: more)).bind fun e s us rest _ he => ?_
        unfold refusePower
        split
        · exact .error
        · exact .stopped (.operand he)
termination_by 9 * ts.length + 2
decreasing_by all_goals (subst_vars; (try simp only [List.length_cons]); omega)

theorem reads_postfixed (stop spare : Nat) (ts : List Token) :
    Reads (found (postfixed stop spare ts)) ts IsPostfix := by
  rw [found_postfixed]
  exact (reads_primary stop spare ts).bind fun b s us rest _ hb => reads_postfixRest stop s rest (.primary hb)
termination_by 9 * ts.length + 1

theorem reads_postfixRest (stop spare : Nat) (ts : List Token) {us : List Token} {b : Expr} (hb : IsPostfix us b) :
    Reads (found (postfixRest stop spare b ts)) ts fun vs => IsPostfix (us ++ vs) := by
  rw [found_postfixRest]
  generalize hts : ts = tokens
  split
  · rename_i p more
    refine .lift fun inner _ => .cons ?_
    split
    · rename_i s
      split
      · exact .error
      · rename_i f hf
        obtain rfl := Function.name_of_ofName? hf
        refine (reads_arguments stop inner more [] List.nodup_nil).bind fun args s vs rest _ hargs => ?_
        obtain ⟨ws, q, ps, ks, rfl, rfl, hargs, -, hnodup⟩ := hargs
        refine (reads_postfixRest stop s rest (.call (p := p) (q := q) hb hargs hnodup)).mono fun xs e he => ?_
        simpa using he
    · exact .error
  · rename_i p more
    refine .lift fun inner _ => .cons ((reads_expr stop inner more).bind fun i s vs rest hlt hi => ?_)
    unfold afterIndex
    dsimp only
    split
    · exact .error
    · rename_i q rest
      have hlt := Nat.lt_of_succ_lt hlt
      refine .cons ((reads_postfixRest stop s rest (.subscript (p := p) (q := q) hb hi)).mono fun ws e he => ?_)
      simpa using he
    · exact .error
  · exact .error
  · exact .stopped hb
termination_by 9 * ts.length + 0
decreasing_by all_goals (subst_vars; (try simp only [List.length_cons]); omega)

theorem reads_arguments (stop spare : Nat) (ts : List Token) {f : Function} {ps : List Expr}
    (ks : List (String × Expr)) (hks : (ks.map Prod.fst).Nodup) :
    Reads (found (arguments stop spare f ps ks ts)) ts (ClosedArguments (ps, ks)) := by
  rw [found_arguments]
  generalize hts : ts = tokens
  split
  · rename_i q more
    exact .ok [⟨.symbol .closeParen, q⟩]
      ⟨[], q, [], [], rfl, by simp, .keywords .nil, .inr rfl, hks⟩ rfl
  · rename_i k p q more
    split
    · exact .error
    · rename_i hany
      refine .cons (.cons ((reads_expr stop spare more).bind fun e s us rest _ he => ?_))
      have hnodup : ((ks ++ [(k, e)]).map Prod.fst).Nodup := by
        rw [List.map_append, List.nodup_append]
        refine ⟨hks, by simp, ?_⟩
        rintro _ hmem _ hk rfl
        simp_all
      exact (reads_argumentsRest stop s rest hnodup).mono fun vs all h => .keyword he hnodup h
  · split
    · rename_i hempty
      obtain rfl := List.isEmpty_iff.1 hempty
      subst hts
      refine (reads_expr stop spare ts).bind fun e s us rest _ he => ?_
      exact (reads_argumentsRest stop s rest hks).mono fun vs all h => .positional he h
    · exact .error
termination_by 9 * ts.length + 8
decreasing_by all_goals (subst_vars; (try simp only [List.length_cons]); omega)

theorem reads_argumentsRest (stop spare : Nat) (ts : List Token) {f : Function} {ps : List Expr}
    {ks : List (String × Expr)} (hks : (ks.map Prod.fst).Nodup) :
    Reads (found (argumentsRest stop spare f ps ks ts)) ts
      (Continued .closeParen (ClosedArguments (ps, ks)) (ps, ks)) := by
  rw [found_argumentsRest]
  generalize hts : ts = tokens
  split
  · rename_i p more
    exact .cons ((reads_arguments stop spare more ks hks).mono fun us all h => .inr ⟨p, us, rfl, h⟩)
  · rename_i q more
    exact .ok [⟨.symbol .closeParen, q⟩] (.inl ⟨q, rfl, rfl⟩) rfl
  · exact .error
termination_by 9 * ts.length + 7
decreasing_by all_goals (subst_vars; (try simp only [List.length_cons]); omega)

theorem reads_primary (stop spare : Nat) (ts : List Token) : Reads (found (primary stop spare ts)) ts IsPrimary := by
  rw [found_primary]
  generalize hts : ts = tokens
  split
  · exact .ok [_] .number rfl
  · rename_i s p more
    obtain ⟨ss, hmore, hss⟩ := adjacentTexts_eq more
    refine .ok (((s, p) :: ss).map fun s => ⟨.text s.1, s.2⟩) ?_ ?_
    · rw [hss]
      exact .texts (by simp)
    · rw [List.map_cons, List.cons_append, ← hmore]
  · exact .lift fun e he => .ok [_] (isPrimary_of_word _ he) rfl
  · refine .cons ?_
    split
    · exact .ok [_] .unit rfl
    · rename_i more _
      refine (reads_expr stop spare _).bind fun e s us rest hlt he => ?_
      unfold afterFirst
      dsimp only
      split
      · exact .ok [_] (.parens he) rfl
      · have hlt := Nat.lt_of_succ_lt hlt
        refine .cons ((reads_items stop s _).bind fun es s vs rest _ hes => ?_)
        obtain ⟨ws, q, es, rfl, rfl, hes⟩ := hes
        exact .done (by simpa using .tuple he hes)
      · exact .error
  · rename_i more
    refine .cons ((reads_items stop spare more).bind fun es s us rest _ hes => ?_)
    obtain ⟨vs, q, es, rfl, rfl, hes⟩ := hes
    exact .done (by simpa using .list hes)
  · rename_i more
    refine .cons ((reads_dictEntries stop spare more).bind fun es s us rest _ hes => ?_)
    obtain ⟨vs, q, es, rfl, rfl, hes⟩ := hes
    exact .done (by simpa using .dict hes)
  · exact .error
termination_by 9 * ts.length + 0
decreasing_by all_goals (subst_vars; (try simp only [List.length_cons]); omega)

theorem reads_items (stop spare : Nat) (ts : List Token) {close : Symbol} {es : List Expr} :
    Reads (found (items stop spare close es ts)) ts (Closed close AreItems es) := by
  rw [found_items]
  split
  · rename_i hclose
    obtain ⟨⟨x, q⟩, hhead, rfl⟩ := Option.map_eq_some_iff.1 hclose
    obtain ⟨more, rfl⟩ := List.head?_eq_some_iff.1 hhead
    exact .ok [⟨.symbol close, q⟩] ⟨[], q, [], rfl, by simp, .nil⟩ rfl
  · refine (reads_expr stop spare ts).bind fun e s us rest _ he => ?_
    exact (reads_itemsRest stop s rest).mono fun vs all h => .item he h
termination_by 9 * ts.length + 8

theorem reads_itemsRest (stop spare : Nat) (ts : List Token) {close : Symbol} {es : List Expr} :
    Reads (found (itemsRest stop spare close es ts)) ts (Continued close (Closed close AreItems es) es) := by
  rw [found_itemsRest]
  generalize hts : ts = tokens
  split
  · exact .error
  · rename_i t more
    obtain ⟨x, p⟩ := t
    dsimp only
    split
    · rename_i hx
      subst hx
      exact .cons ((reads_items stop spare more).mono fun us all h => .inr ⟨p, us, rfl, h⟩)
    · split
      · rename_i hx
        subst hx
        exact .ok [⟨.symbol close, p⟩] (.inl ⟨p, rfl, rfl⟩) rfl
      · exact .error
termination_by 9 * ts.length + 7
decreasing_by all_goals (subst_vars; (try simp only [List.length_cons]); omega)

theorem reads_dictEntries (stop spare : Nat) (ts : List Token) {es : List (Expr × Expr)} :
    Reads (found (dictEntries stop spare es ts)) ts (Closed .closeBrace AreEntries es) := by
  rw [found_dictEntries]
  generalize hts : ts = tokens
  split
  · rename_i q more
    exact .ok [⟨.symbol .closeBrace, q⟩] ⟨[], q, [], rfl, by simp, .nil⟩ rfl
  · subst hts
    refine (reads_expr stop spare ts).bind fun k s us rest hlt hk => ?_
    unfold afterKey
    dsimp only
    split
    · rename_i p rest
      have hlt := Nat.lt_of_succ_lt hlt
      refine .cons ((reads_expr stop s rest).bind fun v s vs rest _ hv => ?_)
      exact (reads_dictEntriesRest stop s rest).mono fun ws all h => .entry hk hv h
    · exact .error
termination_by 9 * ts.length + 8
decreasing_by all_goals (subst_vars; omega)

theorem reads_dictEntriesRest (stop spare : Nat) (ts : List Token) {es : List (Expr × Expr)} :
    Reads (found (dictEntriesRest stop spare es ts)) ts
      (Continued .closeBrace (Closed .closeBrace AreEntries es) es) := by
  rw [found_dictEntriesRest]
  generalize hts : ts = tokens
  split
  · rename_i p more
    exact .cons ((reads_dictEntries stop spare more).mono fun us all h => .inr ⟨p, us, rfl, h⟩)
  · rename_i q more
    exact .ok [⟨.symbol .closeBrace, q⟩] (.inl ⟨q, rfl, rfl⟩) rfl
  · exact .error
termination_by 9 * ts.length + 7
decreasing_by all_goals (subst_vars; (try simp only [List.length_cons]); omega)

end

/-! ## Whole texts -/

theorem areItems_of_topItems {stop : Nat} {before all : List Expr} {ts rest : List Token}
    (h : topItems stop before ts = .ok (all, rest)) :
    ∃ us es, ts = us ++ rest ∧ all = before ++ es ∧ AreItems us es := by
  rw [topItems_eq] at h
  generalize hts : ts = tokens at h ⊢
  cases tokens with
  | nil =>
    cases h
    exact ⟨[], [], rfl, by simp, .nil⟩
  | cons t more =>
    obtain ⟨⟨e, s, rest'⟩, hfound, h⟩ := bind_eq_ok_iff.1 h
    obtain ⟨us, hus, he⟩ := reads_expr stop maxLevel (t :: more) e s rest' hfound
    dsimp only at h
    split at h
    · rename_i p rest'
      have hlt : rest'.length < ts.length := by rw [hts, hus]; simp; omega
      obtain ⟨vs, es, rfl, rfl, hes⟩ := areItems_of_topItems h
      exact ⟨us ++ ⟨.symbol .comma, p⟩ :: vs, e :: es, by rw [hus]; simp, by simp, .cons he hes⟩
    · cases h
      exact ⟨us, [e], hus, rfl, .last he⟩
termination_by ts.length

theorem eq_nil_of_finish {stop : Nat} {ts : List Token} (h : finish stop ts = .ok ()) : ts = [] := by
  unfold finish at h
  split at h
  · rfl
  · split at h <;> cases h

/-- **Only a formula is read.** -/
theorem isFormula_of_tokens {stop : Nat} {ts : List Token} {e : Expr} (h : tokens stop ts = .ok e) :
    IsFormula ts e := by
  unfold tokens at h
  obtain ⟨⟨a, rest⟩, htop, h⟩ := bind_eq_ok_iff.1 h
  obtain ⟨_, hfinish, h⟩ := bind_eq_ok_iff.1 h
  cases h
  obtain rfl := eq_nil_of_finish hfinish
  rw [top_eq] at htop
  obtain ⟨⟨l, s, rest⟩, hfound, htop⟩ := bind_eq_ok_iff.1 htop
  obtain ⟨us, hts, hl⟩ := reads_expr stop maxLevel ts l s rest hfound
  dsimp only at htop
  split at htop
  · obtain ⟨⟨all, rest⟩, hitems, htop⟩ := bind_eq_ok_iff.1 htop
    cases htop
    obtain ⟨vs, es, rfl, rfl, hes⟩ := areItems_of_topItems hitems
    rw [hts, List.append_nil]
    exact .tuple hl hes
  · cases htop
    rw [hts, List.append_nil]
    exact .expr hl

end Parse
end Scoresheet
