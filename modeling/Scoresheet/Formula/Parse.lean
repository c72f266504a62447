import Scoresheet.Formula.Expr
import Scoresheet.Formula.Scan

/-!
# Parsing

From tokens to an expression, by recursive descent.  Each reader takes the tokens from its first one on and returns
what it read together with the tokens that are left, and with the proof that these are fewer.  So the readers end on
every input, without a bound on their number of steps.

The nesting of the tree is bounded by levels.  Brackets, calls, signs and every operator of a chain take one each of the
levels to spare; a bracketed expression gives its levels back when it ends.
-/
namespace Scoresheet

/-- Words of other expression languages that are never names here. -/
def keywords : List String :=
  ["and", "or", "not", "if", "else", "lambda", "for", "in", "is", "import", "from", "def", "class", "return", "yield",
   "await", "async", "with", "as", "del", "global", "pass"]

/-- The most levels a formula may take. -/
def maxLevel : Nat := 100

namespace Parse

/-- What a reader found, the levels to spare after it, and the tokens left, fewer than `bound`. -/
structure Parsed (α : Type) (bound : Nat) where
  value : α
  spare : Nat
  rest : List Token
  shorter : rest.length < bound

/-- The answer of a reader. -/
abbrev Read (α : Type) (bound : Nat) := Except FormulaFault (Parsed α bound)

/-- One level further down. -/
def descend : Nat → Except FormulaFault Nat
  | 0 => .error (.tooDeep maxLevel)
  | spare + 1 => .ok spare

/-- The fault of finding these tokens where something else should be; `stop` is the length of the text. -/
def expected (stop : Nat) (what : Expectation) : List Token → FormulaFault
  | [] => .expected stop what .finish
  | t :: _ => .expected t.position what t.lexeme

def additiveOp? : Lexeme → Option BinaryOp
  | .symbol .plus => some .add
  | .symbol .minus => some .sub
  | _ => none

def termOp? : Lexeme → Option BinaryOp
  | .symbol .times => some .mul
  | .symbol .divide => some .div
  | .symbol .modulo => some .mod
  | _ => none

def sign? : Lexeme → Option Sign
  | .symbol .plus => some .plus
  | .symbol .minus => some .minus
  | _ => none

/-- Operators between two operands that no formula has. -/
def foreignOp? : Lexeme → Option Symbol
  | .symbol .floorDivide => some .floorDivide
  | .symbol .atSign => some .atSign
  | .symbol .ampersand => some .ampersand
  | .symbol .bar => some .bar
  | .symbol .caret => some .caret
  | _ => none

/-- Operators before an operand that no formula has. -/
def foreignSign? : Lexeme → Option Symbol
  | .symbol .tilde => some .tilde
  | .symbol .bang => some .bang
  | _ => none

def comparison? : Lexeme → Option Symbol
  | .symbol .equal => some .equal
  | .symbol .notEqual => some .notEqual
  | .symbol .less => some .less
  | .symbol .greater => some .greater
  | .symbol .atMost => some .atMost
  | .symbol .atLeast => some .atLeast
  | _ => none

/-- The texts at the front, which are one text when they stand side by side. -/
def adjacentTexts : List Token → List String × List Token
  | ⟨.text s, _⟩ :: more => ((adjacentTexts more).1.cons s, (adjacentTexts more).2)
  | ts => ([], ts)

theorem length_adjacentTexts_le : ∀ ts : List Token, (adjacentTexts ts).2.length ≤ ts.length
  | [] => by simp [adjacentTexts]
  | ⟨.text s, _⟩ :: more => by
    have := length_adjacentTexts_le more
    simp [adjacentTexts]; omega
  | ⟨.number _, _⟩ :: _ => by simp [adjacentTexts]
  | ⟨.name _, _⟩ :: _ => by simp [adjacentTexts]
  | ⟨.symbol _, _⟩ :: _ => by simp [adjacentTexts]
  | ⟨.finish, _⟩ :: _ => by simp [adjacentTexts]

/-- What a word by itself means: one of the three constants, or a name unless it is a keyword. -/
def wordExpr (s : String) : Except FormulaFault Expr :=
  if s = "True" then .ok (.literal (.bool true))
  else if s = "False" then .ok (.literal (.bool false))
  else if s = "None" then .ok (.literal .none)
  else if keywords.contains s then .error (.keyword s)
  else .ok (.name s)

/-- The positional and the keyword arguments of a call. -/
abbrev CallArguments := List Expr × List (String × Expr)

mutual

/-- A whole expression.  It takes a level, and gives back all levels taken inside. -/
def expr (stop spare : Nat) (ts : List Token) : Read Expr ts.length := do
  let inner ← descend spare
  let e ← additive stop inner ts
  return { e with spare }
termination_by 9 * ts.length + 6

/-- Terms between `+` and `-`. -/
def additive (stop spare : Nat) (ts : List Token) : Read Expr ts.length := do
  let ⟨left, spare, rest, h⟩ ← term stop spare ts
  let ⟨e, spare, rest, h'⟩ ← additiveRest stop spare left rest
  return ⟨e, spare, rest, by omega⟩
termination_by 9 * ts.length + 5

/-- The operators and terms after the first term, applied from the left. -/
def additiveRest (stop spare : Nat) (left : Expr) (ts : List Token) : Read Expr (ts.length + 1) :=
  match ts with
  | [] => .ok ⟨left, spare, [], by simp⟩
  | t :: more =>
    match additiveOp? t.lexeme with
    | none => .ok ⟨left, spare, t :: more, by simp⟩
    | some op => do
      let spare ← descend spare
      let ⟨right, spare, rest, h⟩ ← term stop spare more
      let ⟨e, spare, rest, h'⟩ ← additiveRest stop spare (.binary op left right) rest
      return ⟨e, spare, rest, by simp only [List.length_cons]; omega⟩
termination_by 9 * ts.length + 4

/-- Operands between `*`, `/` and `%`. -/
def term (stop spare : Nat) (ts : List Token) : Read Expr ts.length := do
  let ⟨left, spare, rest, h⟩ ← unary stop spare ts
  let ⟨e, spare, rest, h'⟩ ← termRest stop spare left rest
  return ⟨e, spare, rest, by omega⟩
termination_by 9 * ts.length + 3

/-- The operators and operands after the first operand, applied from the left. -/
def termRest (stop spare : Nat) (left : Expr) (ts : List Token) : Read Expr (ts.length + 1) :=
  match ts with
  | [] => .ok ⟨left, spare, [], by simp⟩
  | t :: more =>
    match termOp? t.lexeme with
    | some op => do
      let spare ← descend spare
      let ⟨right, spare, rest, h⟩ ← unary stop spare more
      let ⟨e, spare, rest, h'⟩ ← termRest stop spare (.binary op left right) rest
      return ⟨e, spare, rest, by simp only [List.length_cons]; omega⟩
    | none =>
      match foreignOp? t.lexeme with
      | some s => .error (.operator s)
      | none => .ok ⟨left, spare, t :: more, by simp⟩
termination_by 9 * ts.length + 2

/-- Signs, and then an operand. -/
def unary (stop spare : Nat) (ts : List Token) : Read Expr ts.length :=
  match ts with
  | [] => .error (expected stop .expression [])
  | t :: more =>
    match sign? t.lexeme with
    | some sign => do
      let spare ← descend spare
      let ⟨e, spare, rest, h⟩ ← unary stop spare more
      return ⟨.unary sign e, spare, rest, by simp only [List.length_cons]; omega⟩
    | none =>
      match foreignSign? t.lexeme with
      | some s => .error (.operator s)
      | none => do
        let e ← postfixed stop spare (t :: more)
        match e.rest with
        | ⟨.symbol .power, _⟩ :: _ => throw (.operator .power)
        | _ => return e
termination_by 9 * ts.length + 2

/-- A primary expression with the calls and subscripts after it. -/
def postfixed (stop spare : Nat) (ts : List Token) : Read Expr ts.length := do
  let ⟨base, spare, rest, h⟩ ← primary stop spare ts
  let ⟨e, spare, rest, h'⟩ ← postfixRest stop spare base rest
  return ⟨e, spare, rest, by omega⟩
termination_by 9 * ts.length + 1

/-- The calls and subscripts after an expression.  Only the name of a function can be called. -/
def postfixRest (stop spare : Nat) (base : Expr) (ts : List Token) : Read Expr (ts.length + 1) :=
  match ts with
  | ⟨.symbol .openParen, _⟩ :: more => do
    let spare ← descend spare
    match base with
    | .name s =>
      match Function.ofName? s with
      | none => throw (.unknownFunction s)
      | some f =>
        let ⟨(ps, ks), spare, rest, h⟩ ← arguments stop spare f [] [] more
        let ⟨e, spare, rest, h'⟩ ← postfixRest stop spare (.call f ps ks) rest
        return ⟨e, spare, rest, by simp only [List.length_cons]; omega⟩
    | _ => throw .indirectCall
  | ⟨.symbol .openBracket, _⟩ :: more => do
    let spare ← descend spare
    let ⟨index, spare, rest, h⟩ ← expr stop spare more
    match rest, h with
    | ⟨.symbol .colon, _⟩ :: _, _ => throw .slice
    | ⟨.symbol .closeBracket, _⟩ :: rest, h =>
      let ⟨e, spare, rest, h'⟩ ← postfixRest stop spare (.subscript base index) rest
      return ⟨e, spare, rest, by simp only [List.length_cons] at h ⊢; omega⟩
    | rest, _ => throw (expected stop (.symbol .closeBracket) rest)
  | ⟨.symbol .dot, _⟩ :: _ => .error .attribute
  | ts => .ok ⟨base, spare, ts, by simp⟩
termination_by 9 * ts.length + 0
decreasing_by all_goals simp only [List.length_cons] at *; omega

/-- The arguments of a call up to its closing parenthesis, after those read before. -/
def arguments (stop spare : Nat) (f : Function) (ps : List Expr) (ks : List (String × Expr)) (ts : List Token) :
    Read CallArguments (ts.length + 1) :=
  match ts with
  | ⟨.symbol .closeParen, _⟩ :: more => .ok ⟨(ps, ks), spare, more, by simp only [List.length_cons]; omega⟩
  | ⟨.name k, _⟩ :: ⟨.symbol .assign, _⟩ :: more =>
    if ks.any fun p => p.1 == k then .error (.repeatedKeyword f k)
    else do
      let ⟨e, spare, rest, h⟩ ← expr stop spare more
      let ⟨args, spare, rest, h'⟩ ← argumentsRest stop spare f ps (ks ++ [(k, e)]) rest
      return ⟨args, spare, rest, by simp only [List.length_cons]; omega⟩
  | ts =>
    if ks.isEmpty then do
      let ⟨e, spare, rest, h⟩ ← expr stop spare ts
      let ⟨args, spare, rest, h'⟩ ← argumentsRest stop spare f (ps ++ [e]) ks rest
      return ⟨args, spare, rest, by omega⟩
    else .error (expected stop .noMorePositional ts)
termination_by 9 * ts.length + 8

/-- What follows an argument: a comma and more arguments, or the closing parenthesis. -/
def argumentsRest (stop spare : Nat) (f : Function) (ps : List Expr) (ks : List (String × Expr))
    (ts : List Token) : Read CallArguments (ts.length + 1) :=
  match ts with
  | ⟨.symbol .comma, _⟩ :: more => do
    let ⟨args, spare, rest, h⟩ ← arguments stop spare f ps ks more
    return ⟨args, spare, rest, by simp only [List.length_cons]; omega⟩
  | ⟨.symbol .closeParen, _⟩ :: more => .ok ⟨(ps, ks), spare, more, by simp only [List.length_cons]; omega⟩
  | ts => .error (expected stop (.symbol .closeParen) ts)
termination_by 9 * ts.length + 7

/-- A literal, a name, or something in brackets. -/
def primary (stop spare : Nat) (ts : List Token) : Read Expr ts.length :=
  match ts with
  | ⟨.number n, _⟩ :: more => .ok ⟨.literal (.number n), spare, more, by simp⟩
  | ⟨.text s, _⟩ :: more =>
    .ok ⟨.literal (.text (String.join (s :: (adjacentTexts more).1))), spare, (adjacentTexts more).2, by
      have := length_adjacentTexts_le more
      simp only [List.length_cons]; omega⟩
  | ⟨.name s, _⟩ :: more => do
    let e ← wordExpr s
    return ⟨e, spare, more, by simp⟩
  | ⟨.symbol .openParen, _⟩ :: ⟨.symbol .closeParen, _⟩ :: more =>
    .ok ⟨.tuple [], spare, more, by simp only [List.length_cons]; omega⟩
  | ⟨.symbol .openParen, _⟩ :: more => do
    let ⟨e, spare, rest, h⟩ ← expr stop spare more
    match rest, h with
    | ⟨.symbol .closeParen, _⟩ :: rest, h =>
      return ⟨e, spare, rest, by simp only [List.length_cons] at h ⊢; omega⟩
    | ⟨.symbol .comma, _⟩ :: rest, h =>
      let ⟨es, spare, rest, h'⟩ ← items stop spare .closeParen [e] rest
      return ⟨.tuple es, spare, rest, by simp only [List.length_cons] at h ⊢; omega⟩
    | rest, _ => throw (expected stop (.symbol .closeParen) rest)
  | ⟨.symbol .openBracket, _⟩ :: more => do
    let ⟨es, spare, rest, h⟩ ← items stop spare .closeBracket [] more
    return ⟨.list es, spare, rest, by simp only [List.length_cons]; omega⟩
  | ⟨.symbol .openBrace, _⟩ :: more => do
    let ⟨es, spare, rest, h⟩ ← dictEntries stop spare [] more
    return ⟨.dict es, spare, rest, by simp only [List.length_cons]; omega⟩
  | ts => .error (expected stop .expression ts)
termination_by 9 * ts.length + 0
decreasing_by all_goals simp only [List.length_cons] at *; omega

/-- Expressions between commas up to a closing symbol, after those read before.  A comma may stand before the
closing symbol. -/
def items (stop spare : Nat) (close : Symbol) (es : List Expr) (ts : List Token) :
    Read (List Expr) (ts.length + 1) :=
  if ts.head?.map (·.lexeme) = some (.symbol close) then
    .ok ⟨es, spare, ts.tail, by simp only [List.length_tail]; omega⟩
  else do
    let ⟨e, spare, rest, h⟩ ← expr stop spare ts
    let ⟨all, spare, rest, h'⟩ ← itemsRest stop spare close (es ++ [e]) rest
    return ⟨all, spare, rest, by omega⟩
termination_by 9 * ts.length + 8

/-- What follows an item: a comma and more items, or the closing symbol. -/
def itemsRest (stop spare : Nat) (close : Symbol) (es : List Expr) (ts : List Token) :
    Read (List Expr) (ts.length + 1) :=
  match ts with
  | [] => .error (expected stop (.symbol close) [])
  | t :: more =>
    if t.lexeme = .symbol .comma then do
      let ⟨all, spare, rest, h⟩ ← items stop spare close es more
      return ⟨all, spare, rest, by simp only [List.length_cons]; omega⟩
    else if t.lexeme = .symbol close then .ok ⟨es, spare, more, by simp only [List.length_cons]; omega⟩
    else .error (expected stop (.symbol close) (t :: more))
termination_by 9 * ts.length + 7

/-- The entries of a map up to its closing brace, after those read before. -/
def dictEntries (stop spare : Nat) (es : List (Expr × Expr)) (ts : List Token) :
    Read (List (Expr × Expr)) (ts.length + 1) :=
  match ts with
  | ⟨.symbol .closeBrace, _⟩ :: more => .ok ⟨es, spare, more, by simp only [List.length_cons]; omega⟩
  | ts => do
    let ⟨k, spare, rest, h⟩ ← expr stop spare ts
    match rest, h with
    | ⟨.symbol .colon, _⟩ :: rest, h =>
      let ⟨v, spare, rest, h'⟩ ← expr stop spare rest
      let ⟨all, spare, rest, h''⟩ ← dictEntriesRest stop spare (es ++ [(k, v)]) rest
      return ⟨all, spare, rest, by simp only [List.length_cons] at h; omega⟩
    | _, _ => throw .setLiteral
termination_by 9 * ts.length + 8
decreasing_by all_goals (try simp only [List.length_cons] at *); omega

/-- What follows an entry: a comma and more entries, or the closing brace. -/
def dictEntriesRest (stop spare : Nat) (es : List (Expr × Expr)) (ts : List Token) :
    Read (List (Expr × Expr)) (ts.length + 1) :=
  match ts with
  | ⟨.symbol .comma, _⟩ :: more => do
    let ⟨all, spare, rest, h⟩ ← dictEntries stop spare es more
    return ⟨all, spare, rest, by simp only [List.length_cons]; omega⟩
  | ⟨.symbol .closeBrace, _⟩ :: more => .ok ⟨es, spare, more, by simp only [List.length_cons]; omega⟩
  | ts => .error (expected stop (.symbol .closeBrace) ts)
termination_by 9 * ts.length + 7

end

/-- The further items of a tuple without parentheses, after a comma. -/
def topItems (stop : Nat) (es : List Expr) (ts : List Token) : Except FormulaFault (List Expr × List Token) :=
  match ts with
  | [] => .ok (es, [])
  | t :: more => do
    let ⟨e, _, rest, h⟩ ← expr stop maxLevel (t :: more)
    match rest, h with
    | ⟨.symbol .comma, _⟩ :: rest, _ => topItems stop (es ++ [e]) rest
    | rest, _ => return (es ++ [e], rest)
termination_by ts.length
decreasing_by simp at *; omega

/-- An expression, or a tuple without parentheses. -/
def top (stop : Nat) (ts : List Token) : Except FormulaFault (Expr × List Token) := do
  let ⟨e, _, rest, _⟩ ← expr stop maxLevel ts
  match rest with
  | ⟨.symbol .comma, _⟩ :: rest =>
    let (es, rest) ← topItems stop [e] rest
    return (.tuple es, rest)
  | rest => return (e, rest)

/-- Nothing may follow; a comparison gets a message of its own. -/
def finish (stop : Nat) : List Token → Except FormulaFault Unit
  | [] => .ok ()
  | t :: more =>
    match comparison? t.lexeme with
    | some s => .error (.comparison s)
    | none => .error (expected stop .finish (t :: more))

/-- The expression that a list of tokens is. -/
def tokens (stop : Nat) (ts : List Token) : Except FormulaFault Expr := do
  let (e, rest) ← top stop ts
  finish stop rest
  return e

end Parse

/-- The expression that a text is, in no particular dialect. -/
def parse (source : String) : Except FormulaFault Expr := do
  let ts ← scan source
  Parse.tokens source.length ts

end Scoresheet
