import Scoresheet.Formula.Parse
/-!
# Readers without their bounds

The readers carry the proof that fewer tokens are left, so that they end.  What they find needs no such proof: `found`
forgets it, and each reader has one equation in which no bound occurs.  `Finds x P` says of all that `x` can find that
`P` holds.
-/
namespace Scoresheet
namespace Parse

/-- What a reader found, the levels to spare after it, and the tokens left. -/
def found {α : Type} {bound : Nat} (r : Read α bound) : Except FormulaFault (α × Nat × List Token) :=
  r.map fun p => (p.value, p.spare, p.rest)

theorem length_lt_of_found {α : Type} {bound spare : Nat} {r : Read α bound} {a : α} {rest : List Token}
    (h : found r = .ok (a, spare, rest)) : rest.length < bound := by
  cases r with
  | error f => cases h
  | ok p =>
    cases h
    exact p.shorter

section

variable {α β : Type} {b c : Nat}

theorem found_bind {x : Read α b} {k : Parsed α b → Read β c}
    {k' : α × Nat × List Token → Except FormulaFault (β × Nat × List Token)}
    (h : ∀ p, found (k p) = k' (p.value, p.spare, p.rest)) : found (x >>= k) = found x >>= k' := by
  cases x with
  | error f => rfl
  | ok p => exact h p

theorem found_ite {p : Prop} [Decidable p] {x y : Read α b} {x' y' : Except FormulaFault (α × Nat × List Token)}
    (hx : found x = x') (hy : found y = y') : found (if p then x else y) = if p then x' else y' := by
  rw [apply_ite found, hx, hy]

/-- Nothing is found but what was found before. -/
theorem found_rebound {x : Read α b} {k : Parsed α b → Read α c}
    (h : ∀ p, found (k p) = .ok (p.value, p.spare, p.rest)) : found (x >>= k) = found x := by
  cases x with
  | error f => rfl
  | ok p => exact h p

theorem bind_eq_found_bind {γ : Type} {x : Read α b} {k : Parsed α b → Except FormulaFault γ}
    {k' : α × Nat × List Token → Except FormulaFault γ} (h : ∀ p, k p = k' (p.value, p.spare, p.rest)) :
    x >>= k = found x >>= k' := by
  cases x with
  | error f => rfl
  | ok p => exact h p

theorem found_lift {γ : Type} {x : Except FormulaFault γ} {k : γ → Read α b}
    {k' : γ → Except FormulaFault (α × Nat × List Token)} (h : ∀ c, found (k c) = k' c) :
    found (x >>= k) = x >>= k' := by
  cases x with
  | error f => rfl
  | ok c => exact h c

end

/-! ## A logic for readers -/

/-- Of all that `x` can find, `P` holds: the value, the levels to spare and the tokens left. -/
def Finds {α : Type} (x : Except FormulaFault (α × Nat × List Token)) (P : α → Nat → List Token → Prop) : Prop :=
  ∀ a s rest, x = .ok (a, s, rest) → P a s rest

namespace Finds

variable {α β γ : Type} {P Q : α → Nat → List Token → Prop}

theorem error {f : FormulaFault} : Finds (.error f) P := fun _ _ _ h => by cases h

theorem ok {a : α} {s : Nat} {rest : List Token} (h : P a s rest) : Finds (.ok (a, s, rest)) P := by
  intro b t rest' hok
  cases hok
  exact h

theorem mono {x : Except FormulaFault (α × Nat × List Token)} (hx : Finds x P)
    (h : ∀ a s rest, P a s rest → Q a s rest) : Finds x Q :=
  fun a s rest hok => h a s rest (hx a s rest hok)

/-- What follows a reader is told that fewer tokens are left. -/
theorem bind {b : Nat} {r : Read β b} {k : β × Nat × List Token → Except FormulaFault (α × Nat × List Token)}
    {P : β → Nat → List Token → Prop} (hr : Finds (found r) P)
    (hk : ∀ c s rest, rest.length < b → P c s rest → Finds (k (c, s, rest)) Q) : Finds (found r >>= k) Q := by
  cases hfound : found r with
  | error f => exact error
  | ok p =>
    obtain ⟨c, s, rest⟩ := p
    exact hk c s rest (length_lt_of_found hfound) (hr c s rest hfound)

theorem lift {x : Except FormulaFault γ} {k : γ → Except FormulaFault (α × Nat × List Token)}
    (h : ∀ c, x = .ok c → Finds (k c) P) : Finds (x >>= k) P := by
  cases x with
  | error f => exact error
  | ok c => exact h c rfl

end Finds

/-! ## Chains of operators -/

theorem found_expr (stop spare : Nat) (ts : List Token) :
    found (expr stop spare ts) = (do
      let inner ← descend spare
      let (e, _, rest) ← found (additive stop inner ts)
      return (e, spare, rest)) := by
  rw [expr]
  exact found_lift fun inner => found_bind fun p => rfl

theorem found_additive (stop spare : Nat) (ts : List Token) :
    found (additive stop spare ts) = (do
      let (l, spare, rest) ← found (term stop spare ts)
      found (additiveRest stop spare l rest)) := by
  rw [additive]
  exact found_bind fun p => found_rebound fun q => rfl

theorem found_additiveRest (stop spare : Nat) (l : Expr) (ts : List Token) :
    found (additiveRest stop spare l ts) = (
      match ts with
      | [] => .ok (l, spare, [])
      | t :: more =>
        match additiveOp? t.lexeme with
        | none => .ok (l, spare, t :: more)
        | some op => do
          let spare ← descend spare
          let (r, spare, rest) ← found (term stop spare more)
          found (additiveRest stop spare (.binary op l r) rest)) := by
  rw [additiveRest.eq_def]
  cases ts with
  | nil => rfl
  | cons t more =>
    cases hop : additiveOp? t.lexeme with
    | none => simp only [hop]; rfl
    | some op =>
      simp only [hop]
      exact found_lift fun s => found_bind fun p => found_rebound fun q => rfl

theorem found_term (stop spare : Nat) (ts : List Token) :
    found (term stop spare ts) = (do
      let (l, spare, rest) ← found (unary stop spare ts)
      found (termRest stop spare l rest)) := by
  rw [term]
  exact found_bind fun p => found_rebound fun q => rfl

theorem found_termRest (stop spare : Nat) (l : Expr) (ts : List Token) :
    found (termRest stop spare l ts) = (
      match ts with
      | [] => .ok (l, spare, [])
      | t :: more =>
        match termOp? t.lexeme with
        | some op => do
          let spare ← descend spare
          let (r, spare, rest) ← found (unary stop spare more)
          found (termRest stop spare (.binary op l r) rest)
        | none =>
          match foreignOp? t.lexeme with
          | some s => .error (.operator s)
          | none => .ok (l, spare, t :: more)) := by
  rw [termRest.eq_def]
  cases ts with
  | nil => rfl
  | cons t more =>
    cases hop : termOp? t.lexeme with
    | some op =>
      simp only [hop]
      exact found_lift fun s => found_bind fun p => found_rebound fun q => rfl
    | none =>
      cases hforeign : foreignOp? t.lexeme <;> simp only [hop, hforeign] <;> rfl

/-- Nothing before a power sign is an operand. -/
def refusePower (r : Expr × Nat × List Token) : Except FormulaFault (Expr × Nat × List Token) :=
  match r.2.2 with
  | ⟨.symbol .power, _⟩ :: _ => .error (.operator .power)
  | _ => .ok r

theorem found_unary (stop spare : Nat) (ts : List Token) :
    found (unary stop spare ts) = (
      match ts with
      | [] => .error (expected stop .expression [])
      | t :: more =>
        match sign? t.lexeme with
        | some sign => do
          let spare ← descend spare
          let (e, spare, rest) ← found (unary stop spare more)
          return (.unary sign e, spare, rest)
        | none =>
          match foreignSign? t.lexeme with
          | some s => .error (.operator s)
          | none => found (postfixed stop spare (t :: more)) >>= refusePower) := by
  rw [unary.eq_def]
  cases ts with
  | nil => rfl
  | cons t more =>
    cases hsign : sign? t.lexeme with
    | some sign =>
      simp only [hsign]
      exact found_lift fun s => found_bind fun p => rfl
    | none =>
      cases hforeign : foreignSign? t.lexeme with
      | some s => simp only [hsign, hforeign]; rfl
      | none =>
        simp only [hsign, hforeign]
        refine found_bind fun p => ?_
        obtain ⟨e, s, rest, h⟩ := p
        unfold refusePower
        cases rest with
        | nil => rfl
        | cons u rest =>
          obtain ⟨x, q⟩ := u
          cases x with
          | symbol y => cases y <;> rfl
          | _ => rfl

/-! ## Subscripts and calls -/

theorem found_postfixed (stop spare : Nat) (ts : List Token) :
    found (postfixed stop spare ts) = (do
      let (base, spare, rest) ← found (primary stop spare ts)
      found (postfixRest stop spare base rest)) := by
  rw [postfixed]
  exact found_bind fun p => found_rebound fun q => rfl

/-- What follows the expression after an opening bracket. -/
def afterIndex (stop : Nat) (base index : Expr) (spare : Nat) (ts : List Token) :
    Except FormulaFault (Expr × Nat × List Token) :=
  match ts with
  | ⟨.symbol .colon, _⟩ :: _ => .error .slice
  | ⟨.symbol .closeBracket, _⟩ :: more => found (postfixRest stop spare (.subscript base index) more)
  | ts => .error (expected stop (.symbol .closeBracket) ts)

theorem found_postfixRest (stop spare : Nat) (base : Expr) (ts : List Token) :
    found (postfixRest stop spare base ts) = (
      match ts with
      | ⟨.symbol .openParen, _⟩ :: more => do
        let spare ← descend spare
        match base with
        | .name s =>
          match Function.ofName? s with
          | none => throw (.unknownFunction s)
          | some f => do
            let ((ps, ks), spare, rest) ← found (arguments stop spare f [] [] more)
            found (postfixRest stop spare (.call f ps ks) rest)
        | _ => throw .indirectCall
      | ⟨.symbol .openBracket, _⟩ :: more => do
        let spare ← descend spare
        let (index, spare, rest) ← found (expr stop spare more)
        afterIndex stop base index spare rest
      | ⟨.symbol .dot, _⟩ :: _ => .error .attribute
      | ts => .ok (base, spare, ts)) := by
  rw [postfixRest.eq_def]
  cases ts with
  | nil => rfl
  | cons t more =>
    obtain ⟨x, q⟩ := t
    cases x with
    | symbol y =>
      cases y with
      | openParen =>
        refine found_lift fun s => ?_
        cases base with
        | name s =>
          cases hf : Function.ofName? s with
          | none => simp only [hf]; rfl
          | some f => simp only [hf]; exact found_bind fun p => found_rebound fun q => rfl
        | _ => rfl
      | openBracket =>
        refine found_lift fun s => found_bind fun p => ?_
        obtain ⟨index, s, rest, h⟩ := p
        cases rest with
        | nil => rfl
        | cons u rest =>
          obtain ⟨x, q⟩ := u
          cases x with
          | symbol y =>
            cases y with
            | closeBracket => exact found_rebound fun q => rfl
            | _ => rfl
          | _ => rfl
      | _ => rfl
    | _ => rfl

theorem found_arguments (stop spare : Nat) (f : Function) (ps : List Expr) (ks : List (String × Expr))
    (ts : List Token) :
    found (arguments stop spare f ps ks ts) = (
      match ts with
      | ⟨.symbol .closeParen, _⟩ :: more => .ok ((ps, ks), spare, more)
      | ⟨.name k, _⟩ :: ⟨.symbol .assign, _⟩ :: more =>
        if ks.any fun p => p.1 == k then .error (.repeatedKeyword f k)
        else do
          let (e, spare, rest) ← found (expr stop spare more)
          found (argumentsRest stop spare f ps (ks ++ [(k, e)]) rest)
      | ts =>
        if ks.isEmpty then do
          let (e, spare, rest) ← found (expr stop spare ts)
          found (argumentsRest stop spare f (ps ++ [e]) ks rest)
        else .error (expected stop .noMorePositional ts)) := by
  rw [arguments.eq_def]
  cases ts with
  | nil => exact found_ite (found_bind fun p => found_rebound fun q => rfl) rfl
  | cons t more =>
    obtain ⟨x, q⟩ := t
    cases x with
    | symbol y =>
      cases y with
      | closeParen => rfl
      | _ => exact found_ite (found_bind fun p => found_rebound fun q => rfl) rfl
    | name k =>
      -- a name begins a keyword argument only before an equals sign
      cases more with
      | nil => exact found_ite (found_bind fun p => found_rebound fun q => rfl) rfl
      | cons u more =>
        obtain ⟨x, q⟩ := u
        cases x with
        | symbol y =>
          cases y with
          | assign => exact found_ite rfl (found_bind fun p => found_rebound fun q => rfl)
          | _ => exact found_ite (found_bind fun p => found_rebound fun q => rfl) rfl
        | _ => exact found_ite (found_bind fun p => found_rebound fun q => rfl) rfl
    | _ => exact found_ite (found_bind fun p => found_rebound fun q => rfl) rfl

theorem found_argumentsRest (stop spare : Nat) (f : Function) (ps : List Expr) (ks : List (String × Expr))
    (ts : List Token) :
    found (argumentsRest stop spare f ps ks ts) = (
      match ts with
      | ⟨.symbol .comma, _⟩ :: more => found (arguments stop spare f ps ks more)
      | ⟨.symbol .closeParen, _⟩ :: more => .ok ((ps, ks), spare, more)
      | ts => .error (expected stop (.symbol .closeParen) ts)) := by
  rw [argumentsRest.eq_def]
  cases ts with
  | nil => rfl
  | cons t more =>
    obtain ⟨x, q⟩ := t
    cases x with
    | symbol y =>
      cases y with
      | comma => exact found_rebound fun p => rfl
      | _ => rfl
    | _ => rfl

/-! ## Literals, names and brackets -/

/-- What follows the first expression after an opening parenthesis. -/
def afterFirst (stop : Nat) (e : Expr) (spare : Nat) (ts : List Token) :
    Except FormulaFault (Expr × Nat × List Token) :=
  match ts with
  | ⟨.symbol .closeParen, _⟩ :: more => .ok (e, spare, more)
  | ⟨.symbol .comma, _⟩ :: more => do
    let (es, spare, rest) ← found (items stop spare .closeParen [e] more)
    return (.tuple es, spare, rest)
  | ts => .error (expected stop (.symbol .closeParen) ts)

theorem found_primary (stop spare : Nat) (ts : List Token) :
    found (primary stop spare ts) = (
      match ts with
      | ⟨.number n, _⟩ :: more => .ok (.literal (.number n), spare, more)
      | ⟨.text s, _⟩ :: more =>
        .ok (.literal (.text (String.join (s :: (adjacentTexts more).1))), spare, (adjacentTexts more).2)
      | ⟨.name s, _⟩ :: more => do
        let e ← wordExpr s
        return (e, spare, more)
      | ⟨.symbol .openParen, _⟩ :: more =>
        match more with
        | ⟨.symbol .closeParen, _⟩ :: more => .ok (.tuple [], spare, more)
        | more => do
          let (e, spare, rest) ← found (expr stop spare more)
          afterFirst stop e spare rest
      | ⟨.symbol .openBracket, _⟩ :: more => do
        let (es, spare, rest) ← found (items stop spare .closeBracket [] more)
        return (.list es, spare, rest)
      | ⟨.symbol .openBrace, _⟩ :: more => do
        let (es, spare, rest) ← found (dictEntries stop spare [] more)
        return (.dict es, spare, rest)
      | ts => .error (expected stop .expression ts)) := by
  rw [primary.eq_def]
  split
  · rfl
  · rfl
  · exact found_lift fun e => rfl
  · rfl
  · rename_i more hmore
    dsimp only
    split
    · exact (hmore _ _ rfl).elim
    · refine found_bind fun p => ?_
      obtain ⟨e, s, rest, h⟩ := p
      cases rest with
      | nil => rfl
      | cons u rest =>
        obtain ⟨x, q⟩ := u
        cases x with
        | symbol y =>
          cases y with
          | closeParen => rfl
          | comma => exact found_bind fun q => rfl
          | _ => rfl
        | _ => rfl
  · exact found_bind fun p => rfl
  · exact found_bind fun p => rfl
  · rename_i hnumber htext hname _ hparen hbracket hbrace
    cases ts with
    | nil => rfl
    | cons t more =>
      obtain ⟨x, q⟩ := t
      cases x with
      | number n => exact (hnumber _ _ _ rfl).elim
      | text s => exact (htext _ _ _ rfl).elim
      | name s => exact (hname _ _ _ rfl).elim
      | finish => rfl
      | symbol y =>
        cases y with
        | openParen => exact (hparen _ _ rfl).elim
        | openBracket => exact (hbracket _ _ rfl).elim
        | openBrace => exact (hbrace _ _ rfl).elim
        | _ => rfl

theorem found_items (stop spare : Nat) (close : Symbol) (es : List Expr) (ts : List Token) :
    found (items stop spare close es ts) = (
      if ts.head?.map (·.lexeme) = some (.symbol close) then .ok (es, spare, ts.tail)
      else do
        let (e, spare, rest) ← found (expr stop spare ts)
        found (itemsRest stop spare close (es ++ [e]) rest)) := by
  rw [items.eq_def]
  split
  · rfl
  · exact found_bind fun p => found_rebound fun q => rfl

theorem found_itemsRest (stop spare : Nat) (close : Symbol) (es : List Expr) (ts : List Token) :
    found (itemsRest stop spare close es ts) = (
      match ts with
      | [] => .error (expected stop (.symbol close) [])
      | t :: more =>
        if t.lexeme = .symbol .comma then found (items stop spare close es more)
        else if t.lexeme = .symbol close then .ok (es, spare, more)
        else .error (expected stop (.symbol close) (t :: more))) := by
  rw [itemsRest.eq_def]
  cases ts with
  | nil => rfl
  | cons t more =>
    dsimp only
    split
    · exact found_rebound fun p => rfl
    · split <;> rfl

/-- What follows the key of an entry. -/
def afterKey (stop : Nat) (es : List (Expr × Expr)) (k : Expr) (spare : Nat) (ts : List Token) :
    Except FormulaFault (List (Expr × Expr) × Nat × List Token) :=
  match ts with
  | ⟨.symbol .colon, _⟩ :: more => do
    let (v, spare, rest) ← found (expr stop spare more)
    found (dictEntriesRest stop spare (es ++ [(k, v)]) rest)
  | _ => .error .setLiteral

theorem found_dictEntries (stop spare : Nat) (es : List (Expr × Expr)) (ts : List Token) :
    found (dictEntries stop spare es ts) = (
      match ts with
      | ⟨.symbol .closeBrace, _⟩ :: more => .ok (es, spare, more)
      | ts => do
        let (k, spare, rest) ← found (expr stop spare ts)
        afterKey stop es k spare rest) := by
  rw [dictEntries.eq_def]
  split
  · rfl
  · rename_i hclose
    refine (found_bind fun p => ?_ :
      found _ = found (expr stop spare ts) >>= fun p => afterKey stop es p.1 p.2.1 p.2.2).trans ?_
    · obtain ⟨k, s, rest, h⟩ := p
      cases rest with
      | nil => rfl
      | cons u rest =>
        obtain ⟨x, q⟩ := u
        cases x with
        | symbol y =>
          cases y with
          | colon => exact found_bind fun p => found_rebound fun q => rfl
          | _ => rfl
        | _ => rfl
    · cases ts with
      | nil => rfl
      | cons t more =>
        obtain ⟨x, q⟩ := t
        cases x with
        | symbol y =>
          cases y with
          | closeBrace => exact (hclose _ _ rfl).elim
          | _ => rfl
        | _ => rfl

theorem found_dictEntriesRest (stop spare : Nat) (es : List (Expr × Expr)) (ts : List Token) :
    found (dictEntriesRest stop spare es ts) = (
      match ts with
      | ⟨.symbol .comma, _⟩ :: more => found (dictEntries stop spare es more)
      | ⟨.symbol .closeBrace, _⟩ :: more => .ok (es, spare, more)
      | ts => .error (expected stop (.symbol .closeBrace) ts)) := by
  rw [dictEntriesRest.eq_def]
  cases ts with
  | nil => rfl
  | cons t more =>
    obtain ⟨x, q⟩ := t
    cases x with
    | symbol y =>
      cases y with
      | comma => exact found_rebound fun p => rfl
      | _ => rfl
    | _ => rfl

/-! ## Whole texts -/

theorem topItems_eq (stop : Nat) (es : List Expr) (ts : List Token) :
    topItems stop es ts = (
      match ts with
      | [] => .ok (es, [])
      | t :: more => do
        let (e, _, rest) ← found (expr stop maxLevel (t :: more))
        match rest with
        | ⟨.symbol .comma, _⟩ :: rest => topItems stop (es ++ [e]) rest
        | rest => return (es ++ [e], rest)) := by
  rw [topItems.eq_def]
  cases ts with
  | nil => rfl
  | cons t more =>
    refine bind_eq_found_bind fun p => ?_
    obtain ⟨e, s, rest, h⟩ := p
    dsimp only
    split
    · rfl
    · rename_i hcomma
      split
      · exact (hcomma _ _ _ rfl HEq.rfl).elim
      · rfl

theorem top_eq (stop : Nat) (ts : List Token) :
    top stop ts = (do
      let (e, _, rest) ← found (expr stop maxLevel ts)
      match rest with
      | ⟨.symbol .comma, _⟩ :: rest => do
        let (es, rest) ← topItems stop [e] rest
        return (.tuple es, rest)
      | rest => return (e, rest)) := by
  rw [top]
  exact bind_eq_found_bind fun p => rfl

end Parse
end Scoresheet
