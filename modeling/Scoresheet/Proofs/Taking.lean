import Scoresheet.Proofs.Grammar
import Scoresheet.Proofs.Readers
/-!
# What the grammar derives, a reader takes

`Takes r ts k next` is one step of a reader that may be followed by others: on `ts` and any more tokens `r` does what
`next` does on these alone, unless the levels run out first.  How many levels `ts` needs, and how many it keeps, is a
matter of the derivation and not of the tree, since brackets leave no trace in it.
-/
namespace Scoresheet
namespace Parse

open Grammar

/-! ## What holds on to the expression before it -/

/-- How tightly a token holds on to the expression before it.  Each reader stops before the tokens that hold on less
than the ones it looks for. -/
def grip : Lexeme → Nat
  | .text _ => 4
  | .symbol .openParen | .symbol .openBracket | .symbol .dot | .symbol .power => 3
  | .symbol .times | .symbol .divide | .symbol .modulo | .symbol .floorDivide | .symbol .atSign
  | .symbol .ampersand | .symbol .bar | .symbol .caret => 2
  | .symbol .plus | .symbol .minus | .symbol .assign => 1
  | _ => 0

/-- The next token holds on to nothing by more than `k`. -/
def Loose (k : Nat) (rest : List Token) : Prop := ∀ t ∈ rest.head?, grip t.lexeme ≤ k

theorem Loose.nil {k : Nat} : Loose k [] := by
  intro t ht
  cases ht

theorem Loose.cons {k p : Nat} {x : Lexeme} {rest : List Token} (h : grip x ≤ k) : Loose k (⟨x, p⟩ :: rest) := by
  intro u hu
  cases hu
  exact h

theorem Loose.mono {k l : Nat} {rest : List Token} (h : Loose k rest) (hkl : k ≤ l) : Loose l rest :=
  fun t ht => Nat.le_trans (h t ht) hkl

theorem additiveOp?_eq_none {x : Lexeme} (h : grip x ≤ 0) : additiveOp? x = none := by
  unfold additiveOp?
  split <;> simp_all [grip]

theorem termOp?_eq_none {x : Lexeme} (h : grip x ≤ 1) : termOp? x = none := by
  unfold termOp?
  split <;> simp_all [grip]

theorem foreignOp?_eq_none {x : Lexeme} (h : grip x ≤ 1) : foreignOp? x = none := by
  unfold foreignOp?
  split <;> simp_all [grip]

theorem sign?_of_opens {x : Lexeme} (h : opens x = true) : sign? x = none := by
  unfold sign?
  split <;> simp_all [opens]

theorem foreignSign?_of_opens {x : Lexeme} (h : opens x = true) : foreignSign? x = none := by
  unfold foreignSign?
  split <;> simp_all [opens]

section

variable {stop spare : Nat} {e : Expr} {rest : List Token}

theorem additiveRest_of_loose (h : Loose 0 rest) : found (additiveRest stop spare e rest) = .ok (e, spare, rest) := by
  rw [found_additiveRest]
  cases rest with
  | nil => rfl
  | cons t more => simp only [additiveOp?_eq_none (h t rfl)]

theorem termRest_of_loose (h : Loose 1 rest) : found (termRest stop spare e rest) = .ok (e, spare, rest) := by
  rw [found_termRest]
  cases rest with
  | nil => rfl
  | cons t more => simp only [termOp?_eq_none (h t rfl), foreignOp?_eq_none (h t rfl)]

theorem postfixRest_of_loose (h : Loose 2 rest) : found (postfixRest stop spare e rest) = .ok (e, spare, rest) := by
  rw [found_postfixRest]
  split
  · exact absurd (h _ rfl) (by simp [grip])
  · exact absurd (h _ rfl) (by simp [grip])
  · exact absurd (h _ rfl) (by simp [grip])
  · rfl

theorem refusePower_of_loose (h : Loose 2 rest) : refusePower (e, spare, rest) = .ok (e, spare, rest) := by
  unfold refusePower
  split
  · rename_i heq
    dsimp only at heq
    subst heq
    exact absurd (h _ rfl) (by simp [grip])
  · rfl

theorem adjacentTexts_of_loose (h : Loose 3 rest) : adjacentTexts rest = ([], rest) := by
  unfold adjacentTexts
  split
  · exact absurd (h _ rfl) (by simp [grip])
  · rfl

end

/-! ## Levels -/

/-- `x`, when the levels to spare are as many as `peak`. -/
def within {α : Type} (peak spare : Nat) (x : Except FormulaFault α) : Except FormulaFault α :=
  if peak ≤ spare then x else .error (.tooDeep maxLevel)

section

variable {α β : Type} {peak spare : Nat}

theorem within_zero {x : Except FormulaFault α} : within 0 spare x = x := if_pos spare.zero_le

theorem within_of_le {x : Except FormulaFault α} (h : peak ≤ spare) : within peak spare x = x := if_pos h

theorem within_bind {x : Except FormulaFault α} {k : α → Except FormulaFault β} :
    within peak spare x >>= k = within peak spare (x >>= k) := by
  unfold within
  split <;> rfl

theorem descend_bind {k : Nat → Except FormulaFault α} : descend spare >>= k = within 1 spare (k (spare - 1)) := by
  cases spare <;> rfl

theorem within_within {kept peak' : Nat} {x : Except FormulaFault α} (h : kept ≤ peak) :
    within peak spare (within peak' (spare - kept) x) = within (max peak (kept + peak')) spare x := by
  unfold within
  by_cases hpeak : peak ≤ spare
  · rw [if_pos hpeak]
    by_cases hpeak' : peak' ≤ spare - kept
    · rw [if_pos hpeak', if_pos (by omega)]
    · rw [if_neg hpeak', if_neg (by omega)]
  · rw [if_neg hpeak, if_neg (by omega)]

end

/-! ## Steps of readers -/

/-- What a reader finds, by the levels to spare and the tokens. -/
abbrev Reader (α : Type) := Nat → List Token → Except FormulaFault (α × Nat × List Token)

/-- The reader that has found `a`. -/
def done {α : Type} (a : α) : Reader α := fun spare ts => .ok (a, spare, ts)

/-- `r` takes `ts` and goes on as `next`, if the token after `ts` holds on by no more than `k`. -/
def Takes {α : Type} (r : Reader α) (ts : List Token) (k : Nat) (next : Reader α) : Prop :=
  ∃ peak kept, kept ≤ peak ∧
    ∀ spare rest, Loose k rest → r spare (ts ++ rest) = within peak spare (next (spare - kept) rest)

namespace Takes

variable {α β : Type} {r r' next next' : Reader α} {ts us : List Token} {k k' : Nat}

theorem of_eq (h : ∀ spare rest, Loose k rest → r spare (ts ++ rest) = next spare rest) : Takes r ts k next :=
  ⟨0, 0, Nat.le_refl 0, fun spare rest hrest => by rw [h spare rest hrest, within_zero, Nat.sub_zero]⟩

theorem trans (h : Takes r ts k next) (h' : Takes next us k' next')
    (hk : ∀ rest, Loose k' rest → Loose k (us ++ rest)) : Takes r (ts ++ us) k' next' := by
  obtain ⟨peak, kept, hkept, h⟩ := h
  obtain ⟨peak', kept', hkept', h'⟩ := h'
  refine ⟨max peak (kept + peak'), kept + kept', by omega, fun spare rest hrest => ?_⟩
  rw [List.append_assoc, h spare _ (hk rest hrest), h' _ rest hrest, within_within hkept, Nat.sub_sub]

theorem bind (h : Takes r ts k next) (c : α × Nat × List Token → Except FormulaFault (β × Nat × List Token)) :
    Takes (fun spare ts => r spare ts >>= c) ts k fun spare rest => next spare rest >>= c := by
  obtain ⟨peak, kept, hkept, h⟩ := h
  refine ⟨peak, kept, hkept, fun spare rest hrest => ?_⟩
  dsimp only
  rw [h spare rest hrest, within_bind]

theorem descend (h : Takes r ts k next) :
    Takes (fun spare ts => descend spare >>= fun spare => r spare ts) ts k next := by
  obtain ⟨peak, kept, hkept, h⟩ := h
  refine ⟨max 1 (1 + peak), 1 + kept, by omega, fun spare rest hrest => ?_⟩
  dsimp only
  rw [descend_bind, h _ rest hrest, within_within (Nat.le_refl 1), Nat.sub_sub]

theorem mono (h : Takes r ts k next) (hk : k' ≤ k)
    (hnext : ∀ spare rest, Loose k' rest → next spare rest = next' spare rest) : Takes r ts k' next' := by
  obtain ⟨peak, kept, hkept, h⟩ := h
  exact ⟨peak, kept, hkept, fun spare rest hrest => by rw [h spare rest (hrest.mono hk), hnext _ rest hrest]⟩

theorem congr (h : Takes r ts k next)
    (hr : ∀ spare rest, Loose k rest → r' spare (us ++ rest) = r spare (ts ++ rest)) : Takes r' us k next := by
  obtain ⟨peak, kept, hkept, h⟩ := h
  exact ⟨peak, kept, hkept, fun spare rest hrest => by rw [hr spare rest hrest, h spare rest hrest]⟩

end Takes

/-! ## Productions -/

section

variable (stop : Nat)

abbrev TakesExpr (ts : List Token) (e : Expr) : Prop := Takes (fun s ts => found (expr stop s ts)) ts 0 (done e)

abbrev TakesAdditive (ts : List Token) (e : Expr) : Prop :=
  Takes (fun s ts => found (additive stop s ts)) ts 1 fun s ts => found (additiveRest stop s e ts)

abbrev TakesTerm (ts : List Token) (e : Expr) : Prop :=
  Takes (fun s ts => found (term stop s ts)) ts 2 fun s ts => found (termRest stop s e ts)

abbrev TakesUnary (ts : List Token) (e : Expr) : Prop := Takes (fun s ts => found (unary stop s ts)) ts 2 (done e)

abbrev TakesPostfix (ts : List Token) (e : Expr) : Prop :=
  Takes (fun s ts => found (postfixed stop s ts)) ts 3 fun s ts => found (postfixRest stop s e ts)

abbrev TakesPrimary (ts : List Token) (e : Expr) : Prop :=
  Takes (fun s ts => found (primary stop s ts)) ts 3 (done e)

end

section

variable {stop : Nat} {ts us : List Token} {e l r b i : Expr} {p q : Nat}

theorem TakesAdditive.expr (h : TakesAdditive stop ts e) : TakesExpr stop ts e := by
  obtain ⟨peak, kept, -, h⟩ := h
  -- the levels kept inside are given back at the end
  refine ⟨max 1 (1 + peak), 0, Nat.zero_le _, fun s rest hrest => ?_⟩
  have hadditive := h (s - 1) rest (hrest.mono (Nat.zero_le 1))
  dsimp only at hadditive ⊢
  rw [found_expr, descend_bind, hadditive, additiveRest_of_loose hrest, within_bind, within_within (Nat.le_refl 1)]
  rfl

theorem TakesTerm.additive (h : TakesTerm stop ts e) : TakesAdditive stop ts e := by
  refine ((h.bind _).mono (by omega) fun s rest hrest => ?_).congr fun s rest _ => found_additive stop s (ts ++ rest)
  rw [termRest_of_loose hrest]
  rfl

theorem TakesAdditive.binary {op : BinaryOp} (hl : TakesAdditive stop ts l) (hop : op ∈ [BinaryOp.add, .sub])
    (hr : TakesTerm stop us r) : TakesAdditive stop (ts ++ ⟨.symbol op.symbol, p⟩ :: us) (.binary op l r) := by
  have hgrip : grip (.symbol op.symbol) ≤ 1 := by revert hop; cases op <;> decide
  have hop : additiveOp? (.symbol op.symbol) = some op := by revert hop; cases op <;> decide
  have hright : Takes (fun s ts => found (term stop s ts) >>= fun p =>
      found (additiveRest stop p.2.1 (.binary op l p.1) p.2.2)) us 1
      fun s ts => found (additiveRest stop s (.binary op l r) ts) := by
    refine (hr.bind _).mono (by omega) fun s rest hrest => ?_
    rw [termRest_of_loose hrest]
    rfl
  refine hl.trans (hright.descend.congr fun s rest _ => ?_) fun rest _ => .cons hgrip
  rw [List.cons_append, found_additiveRest]
  simp only [hop]

theorem TakesUnary.term (h : TakesUnary stop ts e) : TakesTerm stop ts e :=
  (h.bind fun p => found (termRest stop p.2.1 p.1 p.2.2)).congr fun s rest _ => found_term stop s (ts ++ rest)

theorem TakesTerm.binary {op : BinaryOp} (hl : TakesTerm stop ts l) (hop : op ∈ [BinaryOp.mul, .div, .mod])
    (hr : TakesUnary stop us r) : TakesTerm stop (ts ++ ⟨.symbol op.symbol, p⟩ :: us) (.binary op l r) := by
  have hgrip : grip (.symbol op.symbol) ≤ 2 := by revert hop; cases op <;> decide
  have hop : termOp? (.symbol op.symbol) = some op := by revert hop; cases op <;> decide
  have hright := hr.bind fun p => found (termRest stop p.2.1 (.binary op l p.1) p.2.2)
  refine hl.trans (hright.descend.congr fun s rest _ => ?_) fun rest _ => .cons hgrip
  rw [List.cons_append, found_termRest]
  simp only [hop]

theorem TakesUnary.sign {sign : Sign} (h : TakesUnary stop ts e) :
    TakesUnary stop (⟨.symbol sign.symbol, p⟩ :: ts) (.unary sign e) := by
  have hsign : sign? (.symbol sign.symbol) = some sign := by cases sign <;> rfl
  have hoperand := h.bind fun p => .ok (Expr.unary sign p.1, p.2.1, p.2.2)
  refine hoperand.descend.congr fun s rest _ => ?_
  rw [List.cons_append, found_unary]
  simp only [hsign]
  rfl

theorem TakesPostfix.unary (h : TakesPostfix stop ts e) (hts : IsPostfix ts e) : TakesUnary stop ts e := by
  obtain ⟨t, more, rfl, ht⟩ := opens_of_isPostfix hts
  refine ((h.bind refusePower).mono (by omega) fun s rest hrest => ?_).congr fun s rest _ => ?_
  · rw [postfixRest_of_loose hrest]
    exact refusePower_of_loose hrest
  · rw [List.cons_append, found_unary]
    simp only [sign?_of_opens ht, foreignSign?_of_opens ht]

theorem TakesPrimary.postfixed (h : TakesPrimary stop ts e) : TakesPostfix stop ts e :=
  (h.bind fun p => found (postfixRest stop p.2.1 p.1 p.2.2)).congr fun s rest _ => found_postfixed stop s (ts ++ rest)

theorem TakesPostfix.subscript (hb : TakesPostfix stop ts b) (hi : TakesExpr stop us i) :
    TakesPostfix stop (ts ++ ⟨.symbol .openBracket, p⟩ :: (us ++ [⟨.symbol .closeBracket, q⟩])) (.subscript b i) := by
  have hindex := hi.bind fun p => afterIndex stop b p.1 p.2.1 p.2.2
  have hclose : Takes (fun s ts => afterIndex stop b i s ts) [⟨.symbol .closeBracket, q⟩] 3
      fun s ts => found (postfixRest stop s (.subscript b i) ts) := .of_eq fun _ _ _ => rfl
  have hboth := hindex.trans hclose fun rest _ => .cons (by decide)
  refine hb.trans (hboth.descend.congr fun s rest _ => ?_) fun rest _ => .cons (by decide)
  rw [List.cons_append, found_postfixRest]

theorem TakesPostfix.call {f : Function} {ps : List Expr} {ks : List (String × Expr)}
    (hb : TakesPostfix stop ts (.name f.name))
    (hargs : Takes (fun s ts => found (arguments stop s f [] [] ts)) us 4 (done (ps, ks))) :
    TakesPostfix stop (ts ++ ⟨.symbol .openParen, p⟩ :: us) (.call f ps ks) := by
  have hcall := hargs.bind fun p => found (postfixRest stop p.2.1 (.call f p.1.1 p.1.2) p.2.2)
  refine hb.trans ?_ fun rest _ => .cons (by decide)
  refine (hcall.mono (by omega) fun _ _ _ => rfl).descend.congr fun s rest _ => ?_
  rw [List.cons_append, found_postfixRest]
  simp only [Function.ofName?_name]

end

/-! ## Lists -/

def closers : List Symbol := [.closeParen, .closeBracket, .closeBrace]

theorem grip_closer {close : Symbol} (h : close ∈ closers) : grip (.symbol close) ≤ 0 := by
  revert h
  cases close <;> decide

theorem ne_comma {close : Symbol} (h : close ∈ closers) : close ≠ .comma := by
  rintro rfl
  revert h
  decide

theorem head_ne_of_begins {t : Token} (ht : begins t.lexeme = true) {close : Symbol} (hclose : close ∈ closers) :
    t.lexeme ≠ .symbol close := by
  rintro h
  rw [h] at ht
  revert hclose ht
  cases close <;> decide

section

variable {stop : Nat} {ts us vs : List Token} {e k v : Expr} {p q : Nat}

theorem TakesExpr.item {close : Symbol} (h : TakesExpr stop ts e) (hts : IsExpr ts e)
    (hclose : close ∈ closers) (before : List Expr) :
    Takes (fun s ts => found (items stop s close before ts)) ts 0
      fun s ts => found (itemsRest stop s close (before ++ [e]) ts) := by
  obtain ⟨t, more, rfl, ht⟩ := begins_of_isExpr hts
  refine (h.bind fun p => found (itemsRest stop p.2.1 close (before ++ [p.1]) p.2.2)).congr fun s rest _ => ?_
  rw [found_items, if_neg]
  simpa using head_ne_of_begins ht hclose

/-- The reader of items takes `ts`, the closing symbol among them, and finds `es`. -/
abbrev TakesItems (stop : Nat) (close : Symbol) (ts : List Token) (es : List Expr) : Prop :=
  ∀ before, Takes (fun s ts => found (items stop s close before ts)) ts 4 (done (before ++ es))

theorem TakesItems.nil {close : Symbol} : TakesItems stop close [⟨.symbol close, q⟩] [] := by
  refine fun before => .of_eq fun s rest _ => ?_
  rw [List.singleton_append, found_items]
  simp [done]

theorem TakesExpr.items {close : Symbol} (h : TakesExpr stop ts e)
    (hts : IsExpr ts e) (hclose : close ∈ closers) :
    TakesItems stop close (ts ++ [⟨.symbol close, q⟩]) [e] := by
  intro before
  have hnext : Takes (fun s ts => found (itemsRest stop s close (before ++ [e]) ts)) [⟨.symbol close, q⟩] 4
      (done (before ++ [e])) := by
    refine .of_eq fun s rest _ => ?_
    rw [List.singleton_append, found_itemsRest]
    simp [ne_comma hclose, done]
  exact (h.item hts hclose before).trans hnext fun rest _ => .cons (grip_closer hclose)

theorem TakesItems.cons {close : Symbol} {es : List Expr} (h : TakesExpr stop ts e)
    (hts : IsExpr ts e) (hclose : close ∈ closers)
    (hes : TakesItems stop close us es) : TakesItems stop close (ts ++ ⟨.symbol .comma, p⟩ :: us) (e :: es) := by
  intro before
  have hnext := hes (before ++ [e])
  rw [List.append_assoc] at hnext
  refine (h.item hts hclose before).trans (hnext.congr fun s rest _ => ?_) fun rest _ => .cons (by decide)
  rw [List.cons_append, found_itemsRest]
  simp

/-- The same for entries, of which the brace is the closing symbol. -/
abbrev TakesEntries (stop : Nat) (ts : List Token) (es : List (Expr × Expr)) : Prop :=
  ∀ before, Takes (fun s ts => found (dictEntries stop s before ts)) ts 4 (done (before ++ es))

theorem TakesEntries.nil : TakesEntries stop [⟨.symbol .closeBrace, q⟩] [] := by
  refine fun before => .of_eq fun s rest _ => ?_
  rw [List.singleton_append, found_dictEntries]
  simp [done]

theorem TakesExpr.entry (hk : TakesExpr stop ts k) (hts : IsExpr ts k)
    (hv : TakesExpr stop us v) (before : List (Expr × Expr)) :
    Takes (fun s ts => found (dictEntries stop s before ts)) (ts ++ ⟨.symbol .colon, p⟩ :: us) 0
      fun s ts => found (dictEntriesRest stop s (before ++ [(k, v)]) ts) := by
  obtain ⟨t, more, rfl, ht⟩ := begins_of_isExpr hts
  have hkey := hk.bind fun p => afterKey stop before p.1 p.2.1 p.2.2
  have hvalue := hv.bind fun p => found (dictEntriesRest stop p.2.1 (before ++ [(k, p.1)]) p.2.2)
  have hnext : Takes (fun s ts => afterKey stop before k s ts) (⟨.symbol .colon, p⟩ :: us) 0
      fun s ts => found (dictEntriesRest stop s (before ++ [(k, v)]) ts) := hvalue.congr fun _ _ _ => rfl
  refine (hkey.trans hnext fun rest _ => .cons (by decide)).congr fun s rest _ => ?_
  rw [found_dictEntries]
  split
  · rename_i heq
    cases heq
    exact absurd rfl (head_ne_of_begins ht (by decide))
  · rfl

theorem TakesExpr.entries (hk : TakesExpr stop ts k) (hts : IsExpr ts k)
    (hv : TakesExpr stop us v) :
    TakesEntries stop (ts ++ ⟨.symbol .colon, p⟩ :: us ++ [⟨.symbol .closeBrace, q⟩]) [(k, v)] := by
  intro before
  have hnext : Takes (fun s ts => found (dictEntriesRest stop s (before ++ [(k, v)]) ts)) [⟨.symbol .closeBrace, q⟩] 4
      (done (before ++ [(k, v)])) := by
    refine .of_eq fun s rest _ => ?_
    rw [List.singleton_append, found_dictEntriesRest]
    rfl
  exact (hk.entry hts hv before).trans hnext fun rest _ => .cons (by decide)

theorem TakesEntries.cons {es : List (Expr × Expr)} (hk : TakesExpr stop ts k)
    (hts : IsExpr ts k) (hv : TakesExpr stop us v)
    (hes : TakesEntries stop vs es) :
    TakesEntries stop (ts ++ ⟨.symbol .colon, p⟩ :: us ++ ⟨.symbol .comma, q⟩ :: vs) ((k, v) :: es) := by
  intro before
  have hnext := hes (before ++ [(k, v)])
  rw [List.append_assoc] at hnext
  refine (hk.entry hts hv before).trans (hnext.congr fun s rest _ => ?_) fun rest _ => .cons (by decide)
  rw [List.cons_append, found_dictEntriesRest]

/-! ## Arguments -/

variable {f : Function} {ps : List Expr} {ks : List (String × Expr)} {n : String}

theorem not_mem_of_nodup {ks' : List (String × Expr)} (h : ((ks ++ (n, e) :: ks').map Prod.fst).Nodup) :
    n ∉ ks.map Prod.fst := by
  rw [List.map_append, List.map_cons, List.nodup_append] at h
  exact fun hn => h.2.2 n hn n List.mem_cons_self rfl

theorem takes_noArguments :
    Takes (fun s ts => found (arguments stop s f ps ks ts)) [⟨.symbol .closeParen, q⟩] 4 (done (ps, ks)) := by
  refine .of_eq fun s rest _ => ?_
  rw [List.singleton_append, found_arguments]
  rfl

theorem takes_closeArguments :
    Takes (fun s ts => found (argumentsRest stop s f ps ks ts)) [⟨.symbol .closeParen, q⟩] 4 (done (ps, ks)) := by
  refine .of_eq fun s rest _ => ?_
  rw [List.singleton_append, found_argumentsRest]
  rfl

theorem Takes.nextArgument {args : CallArguments}
    (h : Takes (fun s ts => found (arguments stop s f ps ks ts)) us 4 (done args)) :
    Takes (fun s ts => found (argumentsRest stop s f ps ks ts)) (⟨.symbol .comma, p⟩ :: us) 4 (done args) := by
  refine h.congr fun s rest _ => ?_
  rw [List.cons_append, found_argumentsRest]

theorem TakesExpr.keyword (h : TakesExpr stop ts e) (hn : n ∉ ks.map Prod.fst) :
    Takes (fun s ts => found (arguments stop s f ps ks ts)) (⟨.name n, p⟩ :: ⟨.symbol .assign, q⟩ :: ts) 0
      fun s ts => found (argumentsRest stop s f ps (ks ++ [(n, e)]) ts) := by
  refine (h.bind fun p => found (argumentsRest stop p.2.1 f ps (ks ++ [(n, p.1)]) p.2.2)).congr fun s rest _ => ?_
  rw [List.cons_append, List.cons_append, found_arguments]
  dsimp only
  rw [if_neg]
  simpa using hn

theorem TakesExpr.positional (h : TakesExpr stop ts e) (hts : IsExpr ts e) :
    Takes (fun s ts => found (arguments stop s f ps [] ts)) ts 0
      fun s ts => found (argumentsRest stop s f (ps ++ [e]) [] ts) := by
  refine (h.bind fun p => found (argumentsRest stop p.2.1 f (ps ++ [p.1]) [] p.2.2)).congr fun s rest hrest => ?_
  -- a name at the front is no keyword, since no `=` follows
  have hkeyword : startsKeyword (ts ++ rest) = false :=
    startsKeyword_of_isExpr hts fun t ht hassign => absurd (hrest t ht) (by rw [hassign]; decide)
  obtain ⟨t, more, rfl, ht⟩ := begins_of_isExpr hts
  rw [found_arguments]
  split
  · rename_i heq
    cases heq
    exact absurd rfl (head_ne_of_begins ht (by decide))
  · rename_i heq
    rw [heq] at hkeyword
    cases hkeyword
  · rfl

end

/-! ## Literals, names and brackets -/

section

variable {stop : Nat} {ts us : List Token} {e : Expr} {p q r : Nat}

theorem adjacentTexts_append {rest : List Token} (h : Loose 3 rest) : ∀ ss : List (String × Nat),
    adjacentTexts ((ss.map fun s => ⟨.text s.1, s.2⟩) ++ rest) = (ss.map Prod.fst, rest)
  | [] => adjacentTexts_of_loose h
  | s :: ss => by
    rw [List.map_cons, List.cons_append, adjacentTexts, adjacentTexts_append h ss]
    rfl

theorem takes_texts {ss : List (String × Nat)} (hss : ss ≠ []) :
    TakesPrimary stop (ss.map fun s => ⟨.text s.1, s.2⟩) (.literal (.text (String.join (ss.map Prod.fst)))) := by
  obtain ⟨s, ss, rfl⟩ := List.exists_cons_of_ne_nil hss
  refine .of_eq fun spare rest hrest => ?_
  rw [List.map_cons, List.cons_append, found_primary]
  dsimp only
  rw [adjacentTexts_append hrest]
  rfl

theorem takes_word {s : String} (h : wordExpr s = .ok e) : TakesPrimary stop [⟨.name s, p⟩] e := by
  refine .of_eq fun spare rest _ => ?_
  rw [List.singleton_append, found_primary]
  dsimp only
  rw [h]
  rfl

theorem wordExpr_name {s : String} (hs : s ∉ keywords) (hconstant : s ∉ ["True", "False", "None"]) :
    wordExpr s = .ok (.name s) := by
  simp only [List.mem_cons, List.not_mem_nil, or_false, not_or] at hconstant
  unfold wordExpr
  rw [if_neg hconstant.1, if_neg hconstant.2.1, if_neg hconstant.2.2, if_neg (by simpa using hs)]

/-- The first expression in parentheses, after which `)` or a comma is looked for. -/
theorem TakesExpr.first (h : TakesExpr stop ts e) (hts : IsExpr ts e) :
    Takes (fun s ts => found (primary stop s ts)) (⟨.symbol .openParen, p⟩ :: ts) 0
      fun s ts => afterFirst stop e s ts := by
  refine (h.bind fun p => afterFirst stop p.1 p.2.1 p.2.2).congr fun s rest _ => ?_
  obtain ⟨t, more, rfl, ht⟩ := begins_of_isExpr hts
  rw [List.cons_append, found_primary]
  dsimp only
  split
  · rename_i heq
    cases heq
    exact absurd rfl (head_ne_of_begins ht (by decide))
  · rfl

theorem TakesExpr.parens (h : TakesExpr stop ts e) (hts : IsExpr ts e) :
    TakesPrimary stop (⟨.symbol .openParen, p⟩ :: (ts ++ [⟨.symbol .closeParen, q⟩])) e := by
  have hclose : Takes (fun s ts => afterFirst stop e s ts) [⟨.symbol .closeParen, q⟩] 3 (done e) :=
    .of_eq fun _ _ _ => rfl
  exact (h.first hts).trans hclose fun rest _ => .cons (by decide)

theorem TakesExpr.tuple {es : List Expr} (h : TakesExpr stop ts e) (hts : IsExpr ts e)
    (hes : TakesItems stop .closeParen us es) :
    TakesPrimary stop (⟨.symbol .openParen, p⟩ :: (ts ++ ⟨.symbol .comma, q⟩ :: us)) (.tuple (e :: es)) := by
  have hitems := (hes [e]).bind fun p => .ok (Expr.tuple p.1, p.2.1, p.2.2)
  have hnext : Takes (fun s ts => afterFirst stop e s ts) (⟨.symbol .comma, q⟩ :: us) 3 (done (.tuple (e :: es))) :=
    (hitems.mono (by omega) fun _ _ _ => rfl).congr fun _ _ _ => rfl
  exact (h.first hts).trans hnext fun rest _ => .cons (by decide)

theorem takes_unit : TakesPrimary stop [⟨.symbol .openParen, p⟩, ⟨.symbol .closeParen, q⟩] (.tuple []) := by
  refine .of_eq fun s rest _ => ?_
  rw [List.cons_append, found_primary]
  rfl

theorem TakesItems.list {es : List Expr} (h : TakesItems stop .closeBracket ts es) :
    TakesPrimary stop (⟨.symbol .openBracket, p⟩ :: ts) (.list es) := by
  have hitems := (h []).bind fun p => .ok (Expr.list p.1, p.2.1, p.2.2)
  refine (hitems.mono (by omega) fun _ _ _ => rfl).congr fun s rest _ => ?_
  rw [List.cons_append, found_primary]
  rfl

theorem TakesEntries.dict {es : List (Expr × Expr)} (h : TakesEntries stop ts es) :
    TakesPrimary stop (⟨.symbol .openBrace, p⟩ :: ts) (.dict es) := by
  have hentries := (h []).bind fun p => .ok (Expr.dict p.1, p.2.1, p.2.2)
  refine (hentries.mono (by omega) fun _ _ _ => rfl).congr fun s rest _ => ?_
  rw [List.cons_append, found_primary]
  rfl

end

/-! ## Derivations -/

mutual

theorem takes_isExpr (stop : Nat) {ts : List Token} {e : Expr} : IsExpr ts e → TakesAdditive stop ts e
  | .term h => (takes_isTerm stop h).additive
  | .binary hl hop hr => (takes_isExpr stop hl).binary hop (takes_isTerm stop hr)

theorem takes_isTerm (stop : Nat) {ts : List Token} {e : Expr} : IsTerm ts e → TakesTerm stop ts e
  | .unary h => (takes_isUnary stop h).term
  | .binary hl hop hr => (takes_isTerm stop hl).binary hop (takes_isUnary stop hr)

theorem takes_isUnary (stop : Nat) {ts : List Token} {e : Expr} : IsUnary ts e → TakesUnary stop ts e
  | .sign h => (takes_isUnary stop h).sign
  | .operand h => (takes_isPostfix stop h).unary h

theorem takes_isPostfix (stop : Nat) {ts : List Token} {e : Expr} : IsPostfix ts e → TakesPostfix stop ts e
  | .primary h => (takes_isPrimary stop h).postfixed
  | .subscript hb hi => (takes_isPostfix stop hb).subscript (takes_isExpr stop hi).expr
  | .call hb hargs hks => (takes_isPostfix stop hb).call (takes_areArguments stop _ _ hargs [] hks)

theorem takes_isPrimary (stop : Nat) {ts : List Token} {e : Expr} : IsPrimary ts e → TakesPrimary stop ts e
  | .number => .of_eq fun s rest _ => by rw [List.singleton_append, found_primary]; rfl
  | .texts hss => takes_texts hss
  | .true | .false | .none => takes_word (by simp [wordExpr])
  | .name hs hconstant => takes_word (wordExpr_name hs hconstant)
  | .parens h => (takes_isExpr stop h).expr.parens h
  | .unit => takes_unit
  | .tuple h hes => (takes_isExpr stop h).expr.tuple h (takes_areItems stop hes (by decide))
  | .list hes => (takes_areItems stop hes (by decide)).list
  | .dict hes => (takes_areEntries stop hes).dict

theorem takes_areItems (stop : Nat) {close : Symbol} {ts : List Token} {q : Nat} {es : List Expr} :
    AreItems ts es → close ∈ closers → TakesItems stop close (ts ++ [⟨.symbol close, q⟩]) es
  | .nil, _ => .nil
  | .last h, hclose => (takes_isExpr stop h).expr.items h hclose
  | .cons h hes, hclose => by
    rw [List.append_assoc]
    exact .cons (takes_isExpr stop h).expr h hclose (takes_areItems stop hes hclose)

theorem takes_areEntries (stop : Nat) {ts : List Token} {q : Nat} {es : List (Expr × Expr)} :
    AreEntries ts es → TakesEntries stop (ts ++ [⟨.symbol .closeBrace, q⟩]) es
  | .nil => .nil
  | .last hk hv => (takes_isExpr stop hk).expr.entries hk (takes_isExpr stop hv).expr
  | .cons hk hv hes => by
    simpa using TakesEntries.cons (takes_isExpr stop hk).expr hk (takes_isExpr stop hv).expr
      (takes_areEntries stop hes)

theorem takes_areKeywords (stop : Nat) (f : Function) (q : Nat) {ts : List Token} {ks : List (String × Expr)} :
    AreKeywords ts ks → ∀ (ps : List Expr) (before : List (String × Expr)), ((before ++ ks).map Prod.fst).Nodup →
      Takes (fun s ts => found (arguments stop s f ps before ts)) (ts ++ [⟨.symbol .closeParen, q⟩]) 4
        (done (ps, before ++ ks))
  | .nil, ps, before, _ => by
    rw [List.append_nil]
    exact takes_noArguments
  | .last h, ps, before, hks =>
    have hkeyword := (takes_isExpr stop h).expr.keyword (not_mem_of_nodup hks)
    hkeyword.trans takes_closeArguments fun rest _ => .cons (by decide)
  | .cons (k := k) (e := e) h hes, ps, before, hks => by
    have hnext := takes_areKeywords stop f q hes ps (before ++ [(k, e)]) (by simpa using hks)
    rw [List.append_assoc] at hnext
    simpa using ((takes_isExpr stop h).expr.keyword (not_mem_of_nodup hks)).trans hnext.nextArgument
      fun rest _ => .cons (by decide)

theorem takes_areArguments (stop : Nat) (f : Function) (q : Nat) {ts : List Token} {args : List Expr}
    {ks : List (String × Expr)} : AreArguments ts args ks → ∀ before : List Expr, (ks.map Prod.fst).Nodup →
      Takes (fun s ts => found (arguments stop s f before [] ts)) (ts ++ [⟨.symbol .closeParen, q⟩]) 4
        (done (before ++ args, ks))
  | .keywords h, before, hks => by
    rw [List.append_nil]
    exact takes_areKeywords stop f q h before [] hks
  | .last h, before, _ =>
    ((takes_isExpr stop h).expr.positional h).trans takes_closeArguments fun rest _ => .cons (by decide)
  | .cons (e := e) h hargs, before, hks => by
    have hnext := takes_areArguments stop f q hargs (before ++ [e]) hks
    rw [List.append_assoc] at hnext ⊢
    exact ((takes_isExpr stop h).expr.positional h).trans hnext.nextArgument fun rest _ => .cons (by decide)

end

end Parse
end Scoresheet
