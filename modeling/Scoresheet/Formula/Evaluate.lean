import Scoresheet.Formula.Arguments
import Scoresheet.Formula.Expr
import Scoresheet.Score.Text
import Scoresheet.Table

/-!
# Evaluation

The value of an expression in a scope.  A scope says what each name and each call means; arithmetic, subscripts and
containers mean the same in all scopes.  The scope's monad carries whatever a call may need besides errors.
-/
namespace Scoresheet

/-! ## Operators -/

/-- A remainder with the sign of the divisor. -/
def Score.modulo (a b : Score) : Score := a - b * (a / b).floor

/-- An operator on two numbers. -/
def BinaryOp.onNumbers (op : BinaryOp) (a b : Score) : Result Score :=
  match op with
  | .add => .ok (a + b)
  | .sub => .ok (a - b)
  | .mul => .ok (a * b)
  | .div => if b.isZero then .error (.arithmetic .divisionByZero) else .ok (a / b)
  | .mod => if b.isZero then .error (.arithmetic .moduloByZero) else .ok (a.modulo b)

/-- An operator on two values: numbers are calculated with, and `+` also joins two texts or two lists. -/
def BinaryOp.apply (op : BinaryOp) (a b : Value) : Result Value :=
  match a.number?, b.number? with
  | some x, some y => (op.onNumbers x y).map .number
  | _, _ =>
    match op, a, b with
    | .add, .text s, .text t => .ok (.text (s ++ t))
    | .add, .list xs, .list ys => .ok (.list (xs ++ ys))
    | _, _, _ => .error (.type (.operands op.text a.kind b.kind))

def Sign.apply (sign : Sign) (v : Value) : Result Value :=
  match v.number? with
  | none => .error (.type (.unary sign.text v.kind))
  | some n => .ok (.number (match sign with | .plus => n | .minus => -n))

/-! ## Containers -/

namespace Score

/-- The key that a number stands for in a map: small whole numbers are written as such, with no sign on zero. -/
def key (n : Score) : String :=
  if n.isWhole && n.abs.lt (.number 1e15) then toString n.toInt else n.text

end Score

namespace Value

/-- The place that an index means in a sequence of the given length.  Negative indices count from the end. -/
def place? (index : Value) (length : Nat) : Option Nat :=
  match index.number? with
  | none => none
  | some n =>
    if n.isWhole then
      let i := if n.toInt < 0 then length + n.toInt else n.toInt
      if 0 ≤ i ∧ i < length then some i.toNat else none
    else none

/-- How a message writes an index. -/
def indexText : Value → String
  | .text s => s!"'{s}'"
  | .number n => n.text
  | v => v.kind

/-- The part of a value at an index, if it has one there. -/
def part? (base index : Value) : Option Value :=
  match base, index with
  | .list xs, i => (i.place? xs.length).bind fun k => xs[k]?
  | .text s, i => (i.place? s.length).bind fun k => s.toList[k]?.map fun c => .text (String.singleton c)
  | .map es, .text k => Table.find? k es
  | .map es, .number n => Table.find? n.key es
  | _, _ => none

def subscript (base index : Value) : Result Value :=
  match base.part? index with
  | some v => .ok v
  | none => .error (.type (.subscript base.kind index.indexText))

/-- The key that a value is in a written map. -/
def dictKey : Value → Result String
  | .text s => .ok s
  | .number n => .ok n.key
  | v => .error (.type (.dictKey v.kind))

end Value

def Literal.value : Literal → Value
  | .number n => .number n
  | .text s => .text s
  | .bool b => .bool b
  | .none => .null

/-! ## Scopes -/

/-- What names and calls mean. -/
structure Scope (m : Type → Type) where
  lookup : String → Option Value
  call : Function → List Value → List (String × Value) → m Value

section

variable {m : Type → Type} [Monad m] [MonadExcept Error m]

/-- An answer that is already there, in any monad with errors. -/
def answer {α : Type} : Result α → m α
  | .ok a => pure a
  | .error e => throw e

mutual

/-- The value of an expression.  Parts are evaluated from left to right, and the first error counts. -/
def evaluate (scope : Scope m) : Expr → m Value
  | .literal l => pure l.value
  | .name s =>
    match scope.lookup s with
    | some v => pure v
    | none => throw (.formula (.unknownName s))
  | .binary op l r => do
    let a ← evaluate scope l
    let b ← evaluate scope r
    answer (op.apply a b)
  | .unary sign e => do
    let v ← evaluate scope e
    answer (sign.apply v)
  | .call f ps ks => do
    let vs ← evaluateAll scope ps
    let kvs ← evaluateKeywords scope ks
    scope.call f vs kvs
  | .subscript b i => do
    let base ← evaluate scope b
    let index ← evaluate scope i
    answer (base.subscript index)
  | .list es => do
    let vs ← evaluateAll scope es
    pure (.list vs)
  | .tuple es => do
    let vs ← evaluateAll scope es
    pure (.list vs)
  | .dict es => do
    let entries ← evaluateEntries scope [] es
    pure (.map entries)

def evaluateAll (scope : Scope m) : List Expr → m (List Value)
  | [] => pure []
  | e :: es => do
    let v ← evaluate scope e
    let vs ← evaluateAll scope es
    pure (v :: vs)

def evaluateKeywords (scope : Scope m) : List (String × Expr) → m (List (String × Value))
  | [] => pure []
  | (k, e) :: ks => do
    let v ← evaluate scope e
    let rest ← evaluateKeywords scope ks
    pure ((k, v) :: rest)

/-- The entries of a map put one after the other; of two with one key the later counts. -/
def evaluateEntries (scope : Scope m) (done : List (String × Value)) :
    List (Expr × Expr) → m (List (String × Value))
  | [] => pure done
  | (k, e) :: es => do
    let kv ← evaluate scope k
    let key ← answer kv.dictKey
    let v ← evaluate scope e
    evaluateEntries scope (Table.put key v done) es

end

end

/-! ## Expressions over numbers -/

/-- A scope of numbers without calls. -/
def Scope.ofNumbers (names : List (String × Score)) : Scope Result where
  lookup s := (names.find? fun n => n.1 == s).map fun n => .number n.2
  call f _ _ := .error (.formula (.unknownFunction f.name))

/-- The number that an expression over numbers is. -/
def evaluateNumber (e : Expr) (names : List (String × Score)) : Result Score :=
  match evaluate (Scope.ofNumbers names) e with
  | .error err => .error err
  | .ok v =>
    match v.number? with
    | some n => .ok n
    | none => .error (.type (.notANumber v.kind))

end Scoresheet
