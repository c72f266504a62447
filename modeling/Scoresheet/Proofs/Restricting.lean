import Scoresheet.Proofs.Referring
/-!
# Expressions over numbers

Item expressions and aggregate expressions are checked node by node before they run.  What passes the check is what can
be written with numbers, texts, truth values, the names of the dialect and operators (`Dialect.has_iff_plain`), and an
induction over that syntax shows what the check is for.  Such an expression fails at nothing but calculating: its names
have numbers, and a scope is never asked for a call (`calculates_of_compile`).
-/
namespace Scoresheet

/-! ## The syntax of the small dialects -/

namespace Dialect

/-- Nothing in an expression is outside a dialect. -/
def Has (d : Dialect) (e : Expr) : Prop := ∀ t ∈ e.subterms, d.fault? t = none

/-- What can be written with values, the names of a dialect and operators. -/
inductive Plain (d : Dialect) : Expr → Prop
  | literal {l : Literal} : l ≠ .none → Plain d (.literal l)
  | name {s : String} : d.allowsName s = true → Plain d (.name s)
  | binary {op : BinaryOp} {l r : Expr} : Plain d l → Plain d r → Plain d (.binary op l r)
  | unary {sign : Sign} {e : Expr} : Plain d e → Plain d (.unary sign e)

variable {d : Dialect} {e : Expr}

theorem Has.fault?_eq_none (h : d.Has e) : d.fault? e = none := by
  refine h e ?_
  cases e <;> simp [Expr.subterms]

theorem Has.allowsName (h : d.Has e) {s : String} (hs : .name s ∈ e.subterms) : d.allowsName s = true := by
  simpa [fault?] using h _ hs

theorem has_binary {op : BinaryOp} {l r : Expr} : d.Has (.binary op l r) ↔ d.Has l ∧ d.Has r := by
  simp [Has, Expr.subterms, fault?, or_imp, forall_and]

theorem has_unary {sign : Sign} : d.Has (.unary sign e) ↔ d.Has e := by
  simp [Has, Expr.subterms, fault?]

theorem Plain.has (h : d.Plain e) : d.Has e := by
  induction h with
  | @literal l hl =>
    cases l with
    | none => exact absurd rfl hl
    | number n | text s | bool b => simp [Has, Expr.subterms, fault?]
  | name hallows => simp [Has, Expr.subterms, fault?, hallows]
  | binary _ _ ihl ihr => exact has_binary.2 ⟨ihl, ihr⟩
  | unary _ ih => exact has_unary.2 ih

/-- In a small dialect each node that is no operator is a value or a name. -/
theorem Has.plain (hd : d.isFull = false) : ∀ e : Expr, d.Has e → d.Plain e
  | .literal l, h => by
    have hfault := h.fault?_eq_none
    cases l with
    | none => simp [fault?, hd] at hfault
    | number n | text s | bool b => exact .literal (by simp)
  | .name s, h => .name (h.allowsName (by simp [Expr.subterms]))
  | .binary op l r, h => .binary (Has.plain hd l (has_binary.1 h).1) (Has.plain hd r (has_binary.1 h).2)
  | .unary sign e, h => .unary (Has.plain hd e (has_unary.1 h))
  | .call _ _ _, h | .subscript _ _, h | .list _, h | .tuple _, h | .dict _, h => by
    have hfault := h.fault?_eq_none
    simp [fault?, hd] at hfault

/-- **The nodes of an expression are all in a small dialect just when it is plain.** -/
theorem has_iff_plain (hd : d.isFull = false) : d.Has e ↔ d.Plain e := ⟨Has.plain hd e, Plain.has⟩

end Dialect

/-! ## Calculating -/

namespace Dialect.Plain

variable {d : Dialect} {e : Expr}

/-- **A plain expression fails at nothing but calculating** where the names of its dialect mean something. -/
theorem calculated (h : d.Plain e) {s : Scope Result} (hs : ∀ n, d.allowsName n = true → (s.lookup n).isSome = true) :
    Calculated (evaluate s e) := by
  induction h with
  | literal _ =>
    rw [evaluate]
    exact calculated_ok _
  | @name n hallows =>
    obtain ⟨v, hv⟩ := Option.isSome_iff_exists.1 (hs n hallows)
    rw [evaluate, hv]
    exact calculated_ok v
  | @binary op l r _ _ ihl ihr =>
    rw [evaluate]
    refine ihl.bind fun a => ihr.bind fun b => ?_
    rw [answer_eq]
    exact op.calculated_apply a b
  | @unary sign e _ ih =>
    rw [evaluate]
    refine ih.bind fun v => ?_
    rw [answer_eq]
    exact sign.calculated_apply v

/-- **A plain expression reaches no call**: scopes with the same names give it the same value. -/
theorem evaluate_congr (h : d.Plain e) {m : Type → Type} [Monad m] [MonadExcept Error m] {s s' : Scope m}
    (hs : s.lookup = s'.lookup) : evaluate s e = evaluate s' e := by
  induction h with
  | literal _ => simp only [evaluate]
  | name _ => simp only [evaluate, hs]
  | binary _ _ ihl ihr => simp only [evaluate, ihl, ihr]
  | unary _ ih => simp only [evaluate, ih]

end Dialect.Plain

/-- An expression comes to a number or fails at calculating.  All its names have numbers, and whatever a call means, it
comes to the same. -/
structure Expr.Calculates (e : Expr) (names : List (String × Score)) : Prop where
  outcome : Calculated (evaluateNumber e names)
  bound : ∀ name, .name name ∈ e.subterms → ∃ n, (Scope.ofNumbers names).lookup name = some (.number n)
  callFree : ∀ call, evaluate { Scope.ofNumbers names with call } e = evaluate (Scope.ofNumbers names) e

theorem Dialect.Plain.calculates {d : Dialect} {e : Expr} (h : d.Plain e) {names : List (String × Score)}
    (hnames : ∀ name, d.allowsName name = true → ∃ n, (Scope.ofNumbers names).lookup name = some (.number n)) :
    e.Calculates names := by
  have hsome : ∀ name, d.allowsName name = true → ((Scope.ofNumbers names).lookup name).isSome = true := by
    intro name hallows
    obtain ⟨n, hn⟩ := hnames name hallows
    rw [hn]
    rfl
  refine ⟨?_, fun name hname => hnames name (h.has.allowsName hname), fun call => h.evaluate_congr rfl⟩
  rw [evaluateNumber]
  rcases h.calculated hsome with ⟨v, hv⟩ | ⟨fault, hfault⟩ | ⟨fault, hfault⟩
  · rw [hv]
    dsimp only
    split
    · exact calculated_ok _
    · exact calculated_type _
  · rw [hfault]
    exact .inr (.inl ⟨fault, rfl⟩)
  · rw [hfault]
    exact calculated_type fault

theorem calculates_of_item {e : Expr} (he : Dialect.item.Has e) (x i : Score) : e.Calculates [("x", x), ("i", i)] := by
  refine ((Dialect.has_iff_plain rfl).1 he).calculates fun name hallows => ?_
  simp only [Dialect.allowsName, Bool.or_eq_true, beq_iff_eq] at hallows
  rcases hallows with rfl | rfl
  · exact ⟨x, rfl⟩
  · exact ⟨i, rfl⟩

theorem calculates_of_aggregate {e : Expr} (he : Dialect.aggregate.Has e) (m : Score) : e.Calculates [("m", m)] := by
  refine ((Dialect.has_iff_plain rfl).1 he).calculates fun name hallows => ?_
  simp only [Dialect.allowsName, beq_iff_eq] at hallows
  subst hallows
  exact ⟨m, rfl⟩

/-- **Item expressions and aggregate expressions are safe once they compile.**  Whatever the numbers under their names,
they come to a number, to a division by zero or to an operation on the wrong kind of value; every name has a number and
no call is reached. -/
theorem calculates_of_compile (source : String) :
    (∀ e, Dialect.item.compile source = .ok e → ∀ x i : Score, e.Calculates [("x", x), ("i", i)]) ∧
      ∀ e, Dialect.aggregate.compile source = .ok e → ∀ m : Score, e.Calculates [("m", m)] :=
  ⟨fun _ he => calculates_of_item (Dialect.fault?_of_compile he),
    fun _ he => calculates_of_aggregate (Dialect.fault?_of_compile he)⟩

theorem calculates_of_compile_division : ∃ e e', Dialect.item.compile "x / (i - 1)" = .ok e ∧
    Dialect.aggregate.compile "'m' * m" = .ok e' ∧ e.Calculates [("x", 3), ("i", 1)] ∧ e'.Calculates [("m", 2)] ∧
    (evaluateNumber e [("x", 3), ("i", 1)]).isOk = false ∧ (evaluateNumber e' [("m", 2)]).isOk = false := by
  have hdivision : (Dialect.item.compile "x / (i - 1)").toOption.map
      (fun e => (evaluateNumber e [("x", 3), ("i", 1)]).isOk) = some false := by decide +kernel
  have htext : (Dialect.aggregate.compile "'m' * m").toOption.map
      (fun e => (evaluateNumber e [("m", 2)]).isOk) = some false := by decide +kernel
  obtain ⟨e, he, hdivision⟩ := Option.map_eq_some_iff.1 hdivision
  obtain ⟨e', he', htext⟩ := Option.map_eq_some_iff.1 htext
  rw [toOption_eq_some_iff] at he he'
  have hitem := (calculates_of_compile "x / (i - 1)").1 e he 3 1
  have haggregate := (calculates_of_compile "'m' * m").2 e' he' 2
  exact ⟨e, e', he, he', hitem, haggregate, hdivision, htext⟩

end Scoresheet
