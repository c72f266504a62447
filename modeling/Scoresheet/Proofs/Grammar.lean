import Scoresheet.Formula.Parse
/-!
# The grammar of formulas

Which lists of tokens are a formula, and with which tree, said by rules alone: no reader, no look-ahead and no levels.
Lists may end in a comma, except that a lone comma is none.

    formula   = expr | expr ',' [items]
    expr      = term | expr ('+' | '-') term
    term      = unary | term ('*' | '/' | '%') unary
    unary     = ('-' | '+') unary | postfix
    postfix   = primary | postfix '[' expr ']' | postfix '(' [arguments] ')'
    primary   = number | text text* | 'True' | 'False' | 'None' | name | '(' expr ')' | '(' ')'
              | '(' expr ',' [items] ')' | '[' [items] ']' | '{' [entries] '}'
    items     = expr [','] | expr ',' items
    entries   = expr ':' expr [','] | expr ':' expr ',' entries
    arguments = keywords | expr [','] | expr ',' arguments
    keywords  = name '=' expr [','] | name '=' expr ',' keywords
-/
namespace Scoresheet

/-- The symbol that an operator is written with. -/
def BinaryOp.symbol : BinaryOp → Symbol
  | .add => .plus
  | .sub => .minus
  | .mul => .times
  | .div => .divide
  | .mod => .modulo

theorem BinaryOp.symbol_ne_assign (op : BinaryOp) : op.symbol ≠ .assign := by
  cases op <;> decide

def Sign.symbol : Sign → Symbol
  | .plus => .plus
  | .minus => .minus

namespace Grammar

mutual

/-- Terms between `+` and `-`, applied from the left. -/
inductive IsExpr : List Token → Expr → Prop
  | term {ts e} : IsTerm ts e → IsExpr ts e
  | binary {ts us p op l r} : IsExpr ts l → op ∈ [BinaryOp.add, .sub] → IsTerm us r →
    IsExpr (ts ++ ⟨.symbol op.symbol, p⟩ :: us) (.binary op l r)

/-- Operands between `*`, `/` and `%`, applied from the left. -/
inductive IsTerm : List Token → Expr → Prop
  | unary {ts e} : IsUnary ts e → IsTerm ts e
  | binary {ts us p op l r} : IsTerm ts l → op ∈ [BinaryOp.mul, .div, .mod] → IsUnary us r →
    IsTerm (ts ++ ⟨.symbol op.symbol, p⟩ :: us) (.binary op l r)

/-- An operand with signs before it. -/
inductive IsUnary : List Token → Expr → Prop
  | sign {ts p s e} : IsUnary ts e → IsUnary (⟨.symbol (Sign.symbol s), p⟩ :: ts) (.unary s e)
  | operand {ts e} : IsPostfix ts e → IsUnary ts e

/-- A primary expression with subscripts and calls after it.  A call is one where the tree before it is the name of a
function, and its keywords differ. -/
inductive IsPostfix : List Token → Expr → Prop
  | primary {ts e} : IsPrimary ts e → IsPostfix ts e
  | subscript {ts us p q b i} : IsPostfix ts b → IsExpr us i →
    IsPostfix (ts ++ ⟨.symbol .openBracket, p⟩ :: (us ++ [⟨.symbol .closeBracket, q⟩])) (.subscript b i)
  | call {ts us p q f ps ks} : IsPostfix ts (.name (Function.name f)) → AreArguments us ps ks →
    (ks.map Prod.fst).Nodup →
    IsPostfix (ts ++ ⟨.symbol .openParen, p⟩ :: (us ++ [⟨.symbol .closeParen, q⟩])) (.call f ps ks)

inductive IsPrimary : List Token → Expr → Prop
  | number {p n} : IsPrimary [⟨.number n, p⟩] (.literal (.number n))
  /-- Texts side by side are one text. -/
  | texts {ss : List (String × Nat)} : ss ≠ [] →
    IsPrimary (ss.map fun s => ⟨.text s.1, s.2⟩) (.literal (.text (String.join (ss.map Prod.fst))))
  | true {p} : IsPrimary [⟨.name "True", p⟩] (.literal (.bool true))
  | false {p} : IsPrimary [⟨.name "False", p⟩] (.literal (.bool false))
  | none {p} : IsPrimary [⟨.name "None", p⟩] (.literal .none)
  | name {p s} : s ∉ keywords → s ∉ ["True", "False", "None"] → IsPrimary [⟨.name s, p⟩] (.name s)
  | parens {ts p q e} : IsExpr ts e → IsPrimary (⟨.symbol .openParen, p⟩ :: (ts ++ [⟨.symbol .closeParen, q⟩])) e
  | unit {p q} : IsPrimary [⟨.symbol .openParen, p⟩, ⟨.symbol .closeParen, q⟩] (.tuple [])
  | tuple {ts us p q r e es} : IsExpr ts e → AreItems us es →
    IsPrimary (⟨.symbol .openParen, p⟩ :: (ts ++ ⟨.symbol .comma, q⟩ :: (us ++ [⟨.symbol .closeParen, r⟩])))
      (.tuple (e :: es))
  | list {ts p q es} : AreItems ts es →
    IsPrimary (⟨.symbol .openBracket, p⟩ :: (ts ++ [⟨.symbol .closeBracket, q⟩])) (.list es)
  | dict {ts p q es} : AreEntries ts es →
    IsPrimary (⟨.symbol .openBrace, p⟩ :: (ts ++ [⟨.symbol .closeBrace, q⟩])) (.dict es)

/-- Expressions between commas, perhaps with a comma after the last, or nothing. -/
inductive AreItems : List Token → List Expr → Prop
  | nil : AreItems [] []
  | last {ts e} : IsExpr ts e → AreItems ts [e]
  | cons {ts us p e es} : IsExpr ts e → AreItems us es → AreItems (ts ++ ⟨.symbol .comma, p⟩ :: us) (e :: es)

inductive AreEntries : List Token → List (Expr × Expr) → Prop
  | nil : AreEntries [] []
  | last {ts us p k v} : IsExpr ts k → IsExpr us v → AreEntries (ts ++ ⟨.symbol .colon, p⟩ :: us) [(k, v)]
  | cons {ts us vs p q k v es} : IsExpr ts k → IsExpr us v → AreEntries vs es →
    AreEntries (ts ++ ⟨.symbol .colon, p⟩ :: (us ++ ⟨.symbol .comma, q⟩ :: vs)) ((k, v) :: es)

/-- Keyword arguments.  Any word may be a keyword. -/
inductive AreKeywords : List Token → List (String × Expr) → Prop
  | nil : AreKeywords [] []
  | last {ts p q k e} : IsExpr ts e → AreKeywords (⟨.name k, p⟩ :: ⟨.symbol .assign, q⟩ :: ts) [(k, e)]
  | cons {ts us p q r k e ks} : IsExpr ts e → AreKeywords us ks →
    AreKeywords (⟨.name k, p⟩ :: ⟨.symbol .assign, q⟩ :: (ts ++ ⟨.symbol .comma, r⟩ :: us)) ((k, e) :: ks)

/-- Positional arguments, and keyword arguments after them. -/
inductive AreArguments : List Token → List Expr → List (String × Expr) → Prop
  | keywords {ts ks} : AreKeywords ts ks → AreArguments ts [] ks
  | last {ts e} : IsExpr ts e → AreArguments ts [e] []
  | cons {ts us p e ps ks} : IsExpr ts e → AreArguments us ps ks →
    AreArguments (ts ++ ⟨.symbol .comma, p⟩ :: us) (e :: ps) ks

end

/-- An expression, or a tuple without parentheses. -/
inductive IsFormula : List Token → Expr → Prop
  | expr {ts e} : IsExpr ts e → IsFormula ts e
  | tuple {ts us p e es} : IsExpr ts e → AreItems us es →
    IsFormula (ts ++ ⟨.symbol .comma, p⟩ :: us) (.tuple (e :: es))

/-! ## First tokens -/

/-- A primary expression begins with one of these. -/
def opens : Lexeme → Bool
  | .number _ | .text _ | .name _ | .symbol .openParen | .symbol .openBracket | .symbol .openBrace => true
  | _ => false

theorem opens_of_isPrimary {ts : List Token} {e : Expr} (h : IsPrimary ts e) :
    ∃ t more, ts = t :: more ∧ opens t.lexeme = true := by
  cases h with
  | @texts ss hss =>
    cases ss with
    | nil => exact absurd rfl hss
    | cons s ss => exact ⟨_, _, rfl, rfl⟩
  | _ => exact ⟨_, _, rfl, rfl⟩

theorem opens_of_isPostfix {ts : List Token} {e : Expr} :
    IsPostfix ts e → ∃ t more, ts = t :: more ∧ opens t.lexeme = true
  | .primary h => opens_of_isPrimary h
  | .subscript h _ => by
    obtain ⟨t, more, rfl, ht⟩ := opens_of_isPostfix h
    exact ⟨t, _, rfl, ht⟩
  | .call h _ _ => by
    obtain ⟨t, more, rfl, ht⟩ := opens_of_isPostfix h
    exact ⟨t, _, rfl, ht⟩

/-- The first token of an operand. -/
def begins (x : Lexeme) : Bool := opens x || decide (x ∈ [Lexeme.symbol .plus, .symbol .minus])

theorem begins_of_isUnary {ts : List Token} {e : Expr} :
    IsUnary ts e → ∃ t more, ts = t :: more ∧ begins t.lexeme = true
  | .sign (s := s) _ => ⟨_, _, rfl, by cases s <;> rfl⟩
  | .operand h => by
    obtain ⟨t, more, hts, ht⟩ := opens_of_isPostfix h
    exact ⟨t, more, hts, by rw [begins, ht, Bool.true_or]⟩

theorem begins_of_isTerm {ts : List Token} {e : Expr} :
    IsTerm ts e → ∃ t more, ts = t :: more ∧ begins t.lexeme = true
  | .unary h => begins_of_isUnary h
  | .binary h _ _ => by
    obtain ⟨t, more, rfl, ht⟩ := begins_of_isTerm h
    exact ⟨t, _, rfl, ht⟩

theorem begins_of_isExpr {ts : List Token} {e : Expr} :
    IsExpr ts e → ∃ t more, ts = t :: more ∧ begins t.lexeme = true
  | .term h => begins_of_isTerm h
  | .binary h _ _ => by
    obtain ⟨t, more, rfl, ht⟩ := begins_of_isExpr h
    exact ⟨t, _, rfl, ht⟩

/-- A keyword and its `=` come first. -/
def startsKeyword : List Token → Bool
  | ⟨.name _, _⟩ :: ⟨.symbol .assign, _⟩ :: _ => true
  | _ => false

def NotAssigned (rest : List Token) : Prop := ∀ t ∈ rest.head?, t.lexeme ≠ .symbol .assign

theorem NotAssigned.cons {x : Lexeme} {p : Nat} {rest : List Token} (h : x ≠ .symbol .assign) :
    NotAssigned (⟨x, p⟩ :: rest) := by
  intro t ht
  cases ht
  exact h

theorem startsKeyword_of_isPrimary {ts rest : List Token} {e : Expr} (h : IsPrimary ts e) (hrest : NotAssigned rest) :
    startsKeyword (ts ++ rest) = false := by
  have word : ∀ s p, startsKeyword ([⟨.name s, p⟩] ++ rest) = false := by
    intro s p
    rw [List.singleton_append]
    unfold startsKeyword
    split
    · rename_i heq
      cases heq
      exact (hrest _ rfl rfl).elim
    · rfl
  cases h with
  | @texts ss hss =>
    cases ss with
    | nil => exact absurd rfl hss
    | cons s ss => rfl
  | true | false | none | name => exact word _ _
  | _ => rfl

theorem startsKeyword_of_isPostfix {ts rest : List Token} {e : Expr} : IsPostfix ts e → NotAssigned rest →
    startsKeyword (ts ++ rest) = false
  | .primary h, hrest => startsKeyword_of_isPrimary h hrest
  | .subscript h _, _ => by
    rw [List.append_assoc]
    exact startsKeyword_of_isPostfix h (.cons (by decide))
  | .call h _ _, _ => by
    rw [List.append_assoc]
    exact startsKeyword_of_isPostfix h (.cons (by decide))

theorem startsKeyword_of_isUnary {ts rest : List Token} {e : Expr} : IsUnary ts e → NotAssigned rest →
    startsKeyword (ts ++ rest) = false
  | .sign _, _ => rfl
  | .operand h, hrest => startsKeyword_of_isPostfix h hrest

theorem startsKeyword_of_isTerm {ts rest : List Token} {e : Expr} : IsTerm ts e → NotAssigned rest →
    startsKeyword (ts ++ rest) = false
  | .unary h, hrest => startsKeyword_of_isUnary h hrest
  | .binary h _ _, _ => by
    rw [List.append_assoc]
    exact startsKeyword_of_isTerm h (.cons (by simp [BinaryOp.symbol_ne_assign]))

theorem startsKeyword_of_isExpr {ts rest : List Token} {e : Expr} : IsExpr ts e → NotAssigned rest →
    startsKeyword (ts ++ rest) = false
  | .term h, hrest => startsKeyword_of_isTerm h hrest
  | .binary h _ _, _ => by
    rw [List.append_assoc]
    exact startsKeyword_of_isExpr h (.cons (by simp [BinaryOp.symbol_ne_assign]))

end Grammar
end Scoresheet
