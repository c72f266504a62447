import Scoresheet.Formula.Function
import Scoresheet.Score
import Scoresheet.Sorting

/-!
# Expressions

The tree of a formula, the same for the three dialects.  A call holds the function it calls, so an unknown function has
no tree.  `Expr.reads` is the static read set: every name in the tree, and every text that stands where a function
takes the code of its source.
-/
namespace Scoresheet

inductive Literal where
  | number (n : Score)
  | text (s : String)
  | bool (b : Bool)
  | none
deriving DecidableEq

inductive BinaryOp where
  | add | sub | mul | div | mod
deriving DecidableEq

def BinaryOp.text : BinaryOp → String
  | .add => "+"
  | .sub => "-"
  | .mul => "*"
  | .div => "/"
  | .mod => "%"

inductive Sign where
  | plus | minus
deriving DecidableEq

def Sign.text : Sign → String
  | .plus => "+"
  | .minus => "-"

inductive Expr where
  | literal (l : Literal)
  | name (s : String)
  | binary (op : BinaryOp) (left right : Expr)
  | unary (sign : Sign) (operand : Expr)
  | call (f : Function) (positional : List Expr) (keywords : List (String × Expr))
  | subscript (base index : Expr)
  | list (items : List Expr)
  | tuple (items : List Expr)
  | dict (entries : List (Expr × Expr))

namespace Expr

mutual

/-- The tree and all trees within it, each before its parts, the parts from left to right. -/
def subterms : Expr → List Expr
  | .literal l => [.literal l]
  | .name s => [.name s]
  | .binary op l r => .binary op l r :: (subterms l ++ subterms r)
  | .unary s e => .unary s e :: subterms e
  | .call f ps ks => .call f ps ks :: (subtermsOfAll ps ++ subtermsOfKeywords ks)
  | .subscript b i => .subscript b i :: (subterms b ++ subterms i)
  | .list xs => .list xs :: subtermsOfAll xs
  | .tuple xs => .tuple xs :: subtermsOfAll xs
  | .dict es => .dict es :: subtermsOfEntries es

def subtermsOfAll : List Expr → List Expr
  | [] => []
  | e :: es => subterms e ++ subtermsOfAll es

def subtermsOfKeywords : List (String × Expr) → List Expr
  | [] => []
  | (_, e) :: ks => subterms e ++ subtermsOfKeywords ks

def subtermsOfEntries : List (Expr × Expr) → List Expr
  | [] => []
  | (k, v) :: es => subterms k ++ subterms v ++ subtermsOfEntries es

end

/-- The argument that names the source of a call: the first positional one, else the first keyword for it. -/
def sourceArgument? (positional : List Expr) (keywords : List (String × Expr)) : Option Expr :=
  match positional with
  | e :: _ => some e
  | [] => (keywords.find? fun k => k.1 == "source" || k.1 == "field_code").map (·.2)

/-- What one node reads by itself: a name, or the literal code of its source. -/
def ownReads : Expr → List String
  | .name s => [s]
  | .call f ps ks =>
    if f.readsSource then
      match sourceArgument? ps ks with
      | some (.literal (.text code)) => [code]
      | _ => []
    else []
  | _ => []

/-- The names that an expression reads, in increasing order. -/
def reads (e : Expr) : List String :=
  sortBy (fun a b => decide (a ≤ b)) (e.subterms.flatMap ownReads).eraseDups

end Expr

end Scoresheet
