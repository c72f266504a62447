import Scoresheet.Proofs.Deriving
import Scoresheet.Proofs.Taking
/-!
# The parser accepts its grammar

`parse` answers with a tree exactly when the tokens of the text are a formula with that tree, apart from formulas that
nest too deeply, and no list of tokens is a formula in two ways.  The last comes from the readers themselves: with
levels enough they find every derivation, and they find one tree.
-/
namespace Scoresheet
namespace Parse

open Grammar

section

variable {α : Type} {r : Reader α} {ts us rest rest' : List Token} {k l : Nat} {a b : α}

theorem Takes.enough (h : Takes r ts k (done a)) :
    ∃ peak, ∀ spare, peak ≤ spare → ∀ rest, Loose k rest → ∃ s, r spare (ts ++ rest) = .ok (a, s, rest) := by
  obtain ⟨peak, kept, -, h⟩ := h
  refine ⟨peak, fun spare hspare rest hrest => ⟨spare - kept, ?_⟩⟩
  rw [h spare rest hrest, within_of_le hspare]
  rfl

theorem Takes.ok_or_tooDeep (h : Takes r ts k (done a)) (spare : Nat) (hrest : Loose k rest) :
    (∃ s, r spare (ts ++ rest) = .ok (a, s, rest)) ∨ r spare (ts ++ rest) = .error (.tooDeep maxLevel) := by
  obtain ⟨peak, kept, -, h⟩ := h
  rw [h spare rest hrest]
  unfold within
  split
  · exact .inl ⟨spare - kept, rfl⟩
  · exact .inr rfl

/-- A reader takes the front of its tokens in one way only. -/
theorem Takes.unique (h : Takes r ts k (done a)) (h' : Takes r us l (done b)) (hrest : Loose k rest)
    (hrest' : Loose l rest') (heq : ts ++ rest = us ++ rest') : a = b ∧ rest = rest' := by
  obtain ⟨peak, h⟩ := h.enough
  obtain ⟨peak', h'⟩ := h'.enough
  obtain ⟨s, hs⟩ := h (max peak peak') (Nat.le_max_left _ _) rest hrest
  obtain ⟨s', hs'⟩ := h' (max peak peak') (Nat.le_max_right _ _) rest' hrest'
  rw [heq, hs'] at hs
  cases hs
  exact ⟨rfl, rfl⟩

end

theorem topItems_of_areItems (stop : Nat) {ts : List Token} {es : List Expr} : AreItems ts es → ∀ before : List Expr,
    topItems stop before ts = .ok (before ++ es, []) ∨ topItems stop before ts = .error (.tooDeep maxLevel)
  | .nil, before => by
    rw [topItems_eq, List.append_nil]
    exact .inl rfl
  | .last (e := e) h, before => by
    obtain ⟨t, more, rfl, -⟩ := begins_of_isExpr h
    rcases (takes_isExpr stop h).expr.ok_or_tooDeep maxLevel Loose.nil with ⟨s, hs⟩ | hs
    · rw [List.append_nil] at hs
      rw [topItems_eq]
      dsimp only
      rw [hs]
      exact .inl rfl
    · rw [List.append_nil] at hs
      rw [topItems_eq]
      dsimp only
      rw [hs]
      exact .inr rfl
  | @AreItems.cons ts us p e es h hes, before => by
    have hcomma : Loose 0 (⟨.symbol .comma, p⟩ :: us) := .cons (by decide)
    have htail := topItems_of_areItems stop hes (before ++ [e])
    rw [List.append_assoc] at htail
    obtain ⟨t, more, rfl, -⟩ := begins_of_isExpr h
    rw [List.cons_append, topItems_eq]
    dsimp only
    rw [← List.cons_append]
    rcases (takes_isExpr stop h).expr.ok_or_tooDeep maxLevel hcomma with ⟨s, hs⟩ | hs
    · rw [hs]
      exact htail
    · rw [hs]
      exact .inr rfl

theorem tokens_of_isFormula (stop : Nat) {ts : List Token} {e : Expr} (h : IsFormula ts e) :
    tokens stop ts = .ok e ∨ tokens stop ts = .error (.tooDeep maxLevel) := by
  unfold tokens
  rw [top_eq]
  cases h with
  | expr h =>
    rcases (takes_isExpr stop h).expr.ok_or_tooDeep maxLevel Loose.nil with ⟨s, hs⟩ | hs
    · rw [List.append_nil] at hs
      rw [hs]
      exact .inl rfl
    · rw [List.append_nil] at hs
      rw [hs]
      exact .inr rfl
  | @tuple ts us p e es h hes =>
    have hcomma : Loose 0 (⟨.symbol .comma, p⟩ :: us) := .cons (by decide)
    rcases (takes_isExpr stop h).expr.ok_or_tooDeep maxLevel hcomma with ⟨s, hs⟩ | hs
    · rw [hs]
      rcases topItems_of_areItems stop hes [e] with hitems | hitems
      · refine .inl ?_
        show ((topItems stop [e] us >>= fun p => pure (Expr.tuple p.1, p.2)) >>= _) = _
        rw [hitems]
        rfl
      · refine .inr ?_
        show ((topItems stop [e] us >>= fun p => pure (Expr.tuple p.1, p.2)) >>= _) = _
        rw [hitems]
        rfl
    · rw [hs]
      exact .inr rfl

end Parse

namespace Grammar

open Parse

theorem areItems_unique {ts : List Token} {es es' : List Expr} (h : AreItems ts es) (h' : AreItems ts es') :
    es = es' := by
  have hclose : Symbol.closeParen ∈ closers := by decide
  have hes := takes_areItems 0 (q := 0) h hclose []
  have hes' := takes_areItems 0 (q := 0) h' hclose []
  simpa using (hes.unique hes' Loose.nil Loose.nil rfl).1

/-- **No list of tokens is a formula in two ways.** -/
theorem isFormula_unique {ts : List Token} {e e' : Expr} (h : IsFormula ts e) (h' : IsFormula ts e') : e = e' := by
  have hexpr : ∀ {us : List Token} {e : Expr}, IsExpr us e → Takes (fun s ts => found (expr 0 s ts)) us 0 (done e) :=
    fun h => (takes_isExpr 0 h).expr
  have hcomma : ∀ {p : Nat} {us : List Token}, Loose 0 (⟨.symbol .comma, p⟩ :: us) := .cons (by decide)
  generalize hts : ts = tokens at h'
  cases h with
  | expr h =>
    cases h' with
    | expr h' => exact ((hexpr h).unique (hexpr h') Loose.nil Loose.nil (by rw [hts])).1
    | tuple h' hes' =>
      have hrest := ((hexpr h).unique (hexpr h') Loose.nil hcomma (by rw [List.append_nil, hts])).2
      cases hrest
  | tuple h hes =>
    cases h' with
    | expr h' =>
      have hrest := ((hexpr h).unique (hexpr h') hcomma Loose.nil (by rw [List.append_nil, hts])).2
      cases hrest
    | tuple h' hes' =>
      obtain ⟨rfl, hrest⟩ := (hexpr h).unique (hexpr h') hcomma hcomma hts
      cases hrest
      rw [areItems_unique hes hes']

end Grammar

/-- **The parser accepts its grammar.** On a text with tokens, a tree is only answered where the tokens are a formula
with that tree, every formula is answered with its tree or with the fault of nesting too deeply, and no tokens are a
formula in two ways. -/
theorem parse_accepts_formulas {source : String} {ts : List Token} (h : scan source = .ok ts) :
    (∀ e, parse source = .ok e → Grammar.IsFormula ts e) ∧
    (∀ e, Grammar.IsFormula ts e → parse source = .ok e ∨ parse source = .error (.tooDeep maxLevel)) ∧
    ∀ us e e', Grammar.IsFormula us e → Grammar.IsFormula us e' → e = e' := by
  have hparse : parse source = Parse.tokens source.length ts := by
    unfold parse
    rw [h]
    rfl
  refine ⟨?_, ?_, fun us e e' => Grammar.isFormula_unique⟩
  · intro e he
    exact Parse.isFormula_of_tokens (hparse.symm.trans he)
  · intro e he
    rw [hparse]
    exact Parse.tokens_of_isFormula source.length he

/-- A sign holds tighter than `*`. -/
theorem parse_accepts_formulas_sign :
    ∃ ts, scan "-a*b" = .ok ts ∧ parse "-a*b" = .ok (.binary .mul (.unary .minus (.name "a")) (.name "b")) ∧
      ∀ e, Grammar.IsFormula ts e → e = .binary .mul (.unary .minus (.name "a")) (.name "b") := by
  have hscan : scan "-a*b" = .ok [⟨.symbol .minus, 0⟩, ⟨.name "a", 1⟩, ⟨.symbol .times, 2⟩, ⟨.name "b", 3⟩] := by
    decide +kernel
  have hok : (parse "-a*b").isOk = true := by decide +kernel
  obtain ⟨-, hcomplete, hunique⟩ := parse_accepts_formulas hscan
  have hname : ∀ s p, s ∉ keywords → s ∉ ["True", "False", "None"] → Grammar.IsUnary [⟨.name s, p⟩] (.name s) :=
    fun s p hs hconstant => .operand (.primary (.name hs hconstant))
  have hminus : Grammar.IsTerm [⟨.symbol .minus, 0⟩, ⟨.name "a", 1⟩] (.unary .minus (.name "a")) :=
    .unary (.sign (s := .minus) (hname "a" 1 (by decide) (by decide)))
  have hformula : Grammar.IsFormula
      ([⟨.symbol .minus, 0⟩, ⟨.name "a", 1⟩] ++ ⟨.symbol BinaryOp.mul.symbol, 2⟩ :: [⟨.name "b", 3⟩])
      (.binary .mul (.unary .minus (.name "a")) (.name "b")) :=
    .expr (.term (.binary hminus (by decide) (hname "b" 3 (by decide) (by decide))))
  refine ⟨_, hscan, ?_, fun e he => hunique _ e _ he hformula⟩
  rcases hcomplete _ hformula with h | h
  · exact h
  · rw [h] at hok
    cases hok

end Scoresheet
