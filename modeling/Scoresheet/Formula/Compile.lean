import Scoresheet.Formula.Parse

/-!
# Compiling

A source text becomes an expression of a dialect: it is parsed, and then every node is checked against what the dialect
has.  A blank source stands for the dialect's default.  Compiled expressions are kept in a library, so that a source
that many sheets use is compiled once; keeping them changes no answer.
-/
namespace Scoresheet

namespace Dialect

/-- What a node has that the dialect has not, if anything. -/
def fault? (d : Dialect) : Expr → Option FormulaFault
  | .name s => if d.allowsName s then none else some (.nameOutside d s)
  | .literal .none => if d.isFull then none else some (.noneOutside d)
  | .call f _ _ => if d.isFull then none else some (.callOutside d f)
  | .subscript _ _ | .list _ | .dict _ | .tuple _ => if d.isFull then none else some (.containerOutside d)
  | _ => none

/-- An expression with all its nodes in the dialect; otherwise the first fault counts. -/
def check (d : Dialect) (e : Expr) : Except FormulaFault Expr :=
  match e.subterms.findSome? d.fault? with
  | some fault => .error fault
  | none => .ok e

/-- The expression of a source text in the dialect. -/
def compile (d : Dialect) (source : String) : Result Expr :=
  match parse (if Text.allBlank source then d.blankSource else source) with
  | .error fault => .error (.formula fault)
  | .ok e =>
    match d.check e with
    | .error fault => .error (.formula fault)
    | .ok e => .ok e

end Dialect

/-- Compiled expressions by dialect and source. -/
structure Library where
  entries : List ((Dialect × String) × Expr)

namespace Library

def empty : Library := ⟨[]⟩

instance : Inhabited Library := ⟨empty⟩

def find? (lib : Library) (d : Dialect) (source : String) : Option Expr :=
  (lib.entries.find? fun e => e.1 == (d, source)).map (·.2)

/-- How many expressions are kept. -/
def size (lib : Library) : Nat := lib.entries.length

/-- The expression of a source: the one that is kept, else a newly compiled one, which is kept from then on.  What does
not compile leaves nothing behind. -/
def compile (lib : Library) (d : Dialect) (source : String) : Result Expr × Library :=
  match lib.find? d source with
  | some e => (.ok e, lib)
  | none =>
    match d.compile source with
    | .ok e => (.ok e, ⟨((d, source), e) :: lib.entries⟩)
    | .error fault => (.error fault, lib)

end Library

end Scoresheet
