import Scoresheet.Formula.Compile
import Scoresheet.Plan
import Scoresheet.Shape

/-!
# Linting

What is wrong with a schema, found without any inputs.  The stages look at names and shapes of the declarations, at
short names, at formulas, at the order of evaluation, and at the shapes that formulas combine.  A stage that finds
something is the last one, and reports all that it finds.
-/
namespace Scoresheet

/-- Where an entry stands in a schema. -/
structure Place where
  group : String
  index : Nat
  code : String
deriving DecidableEq

def Place.text (p : Place) : String :=
  if p.code.isEmpty then s!"{p.group}[{p.index}]" else s!"{p.group}[{p.index}] ({p.code})"

inductive Problem where
  | missingCode (place : Place)
  | malformedCode (place : Place)
  | reservedCode (place : Place)
  | duplicateCode (place : Place)
  | malformedVar (place : Place) (var : String)
  | reservedVar (place : Place) (var : String)
  | duplicateVar (place : Place) (var : String)
  | listShape (place : Place) (shape : String)
  | matrixShape (place : Place) (shape : String)
  | emptyRange (place : Place) (lower upper : Score)
  | malformedAlias (short : String)
  | reservedAlias (short : String)
  | danglingAlias (short code : String)
  | missingFormula (place : Place)
  | formula (place : Place) (cause : Error)
  | undeclared (place : Place) (names : List String)
  | order (cause : Error)
  | shape (place : Place) (fault : ShapeFault)
deriving DecidableEq

def Problem.message : Problem → String
  | .missingCode p => s!"{p.text}: missing 'code'"
  | .malformedCode p => s!"{p.text}: 'code' is not a valid identifier: '{p.code}'"
  | .reservedCode p => s!"{p.text}: 'code' is reserved: '{p.code}'"
  | .duplicateCode p => s!"{p.text}: duplicate 'code': '{p.code}'"
  | .malformedVar p var => s!"{p.text}: 'var' is not a valid identifier: '{var}'"
  | .reservedVar p var => s!"{p.text}: 'var' is reserved: '{var}'"
  | .duplicateVar p var => s!"{p.text}: duplicate 'var': '{var}'"
  | .listShape p given => s!"{p.text}: list fields need shape 'judge', got '{given}'"
  | .matrixShape p given =>
    s!"{p.text}: matrix fields need shape 'judge_x_item' or 'judge_x_element', got '{given}'"
  | .emptyRange p lower upper => s!"{p.text}: min ({lower.text}) is greater than max ({upper.text})"
  | .malformedAlias short => s!"alias '{short}' is not a valid identifier"
  | .reservedAlias short => s!"alias '{short}' is a reserved name"
  | .danglingAlias short code => s!"alias '{short}' points to an unknown code: '{code}'"
  | .missingFormula p => s!"{p.text}: missing 'formula'"
  | .formula p cause => s!"{p.text}: {cause.message}"
  | .undeclared p names =>
    let list := ", ".intercalate names
    s!"{p.text}: undeclared names: {list}"
  | .order cause => cause.message
  | .shape p fault => s!"{p.text}: shape mismatch: {fault.message}"

namespace Lint

/-- A declared entry with its short name. -/
structure Declaration where
  place : Place
  var : Option String

/-- The declared entries, fields first. -/
def declarations (s : Schema) : List Declaration :=
  (s.fields.zipIdx.map fun (f, i) => ⟨⟨"fields", i, f.code⟩, f.var⟩) ++
    s.computed.zipIdx.map fun (c, i) => ⟨⟨"computed", i, c.code⟩, c.var⟩

/-- A problem where there is one. -/
def report (bad : Bool) (p : Problem) : List Problem := if bad then [p] else []

/-- What is wrong with the short name of an entry, given those before it. -/
def varProblems (vars : List String) (p : Place) (var : String) : List Problem :=
  if !Text.isIdentifier var then [.malformedVar p var]
  else report (isReserved var) (.reservedVar p var) ++ report (vars.contains var) (.duplicateVar p var)

/-- What is wrong with the names of entries, given the codes and short names before them. -/
def nameProblems (codes vars : List String) : List Declaration → List Problem
  | [] => []
  | d :: ds =>
    if d.place.code.isEmpty then .missingCode d.place :: nameProblems codes vars ds
    else
      let code := d.place.code
      let own := report (!Text.isIdentifier code) (.malformedCode d.place) ++
        report (isReserved code) (.reservedCode d.place) ++
        report (codes.contains code) (.duplicateCode d.place)
      match d.var.filter fun v => !v.isEmpty with
      | none => own ++ nameProblems (code :: codes) vars ds
      | some var =>
        let more := if Text.isIdentifier var then var :: vars else vars
        own ++ varProblems vars d.place var ++ nameProblems (code :: codes) more ds

/-- What is wrong with the shape and the bounds of a field. -/
def fieldProblems (f : Field) (index : Nat) : List Problem :=
  let place : Place := ⟨"fields", index, f.code⟩
  let shape := f.shape.getD ""
  let form := match f.kind with
    | some "list" => report (f.layout != .judgeVector) (.listShape place shape)
    | some "matrix" => report (f.layout != .matrix) (.matrixShape place shape)
    | _ => []
  let range := match f.lower, f.upper with
    | some lo, some hi => report (hi.lt lo) (.emptyRange place lo hi)
    | _, _ => []
  form ++ range

def declarationProblems (s : Schema) : List Problem :=
  nameProblems [] [] (declarations s) ++ s.fields.zipIdx.flatMap fun (f, i) => fieldProblems f i

/-- What is wrong with the short names. -/
def aliasProblems (s : Schema) : List Problem :=
  s.aliases.entries.flatMap fun (short, code) =>
    report (!Text.isIdentifier short) (.malformedAlias short) ++
      report (isReserved short) (.reservedAlias short) ++
      report (code.isEmpty || !s.codes.contains code) (.danglingAlias short code)

/-- The names that formulas may use without a declaration being missing. -/
def isDeclared (s : Schema) (name : String) : Bool :=
  (!name.isEmpty && s.codes.contains name) || s.aliases.contains name || isReserved name

/-- The formula of an entry, and what is wrong with it. -/
def checkFormula (s : Schema) (c : Computed) (index : Nat) : Option Node × List Problem :=
  let place : Place := ⟨"computed", index, c.code⟩
  match c.formulaText with
  | none => (none, [.missingFormula place])
  | some source =>
    match Dialect.formula.compile source with
    | .error cause => (none, [.formula place cause])
    | .ok e =>
      let missing := e.reads.filter fun name => !isDeclared s name
      (some ⟨c.code, e⟩, report (!missing.isEmpty) (.undeclared place missing))

/-- What does not fit in formulas that are taken in the order of evaluation. -/
def shapeProblems (shapes : Shapes) (nodes : List Node) : List Nat → List Problem
  | [] => []
  | i :: order =>
    match nodes[i]? with
    | none => shapeProblems shapes nodes order
    | some node =>
      match shapes.infer node.expr with
      | .ok shape => shapeProblems (shapes.store node.code shape) nodes order
      | .error fault =>
        .shape ⟨"computed", i, node.code⟩ fault :: shapeProblems (shapes.store node.code .unknown) nodes order

/-- What is wrong with the order of evaluation or, if nothing is, with the shapes. -/
def orderProblems (s : Schema) (nodes : List Node) : List Problem :=
  match Plan.order nodes s.aliases with
  | .error cause => [.order cause]
  | .ok order => shapeProblems (Shapes.start s s.aliases) nodes order

/-- The first of two stages that finds something. -/
def orElse (found : List Problem) (next : List Problem) : List Problem := if found.isEmpty then next else found

end Lint

/-- What is wrong with a schema; nothing if it is fit for use. -/
def lint (s : Schema) : List Problem :=
  let checked := s.computed.zipIdx.map fun (c, i) => Lint.checkFormula s c i
  Lint.orElse (Lint.declarationProblems s) <|
  Lint.orElse (Lint.aliasProblems s) <|
  Lint.orElse (checked.flatMap (·.2)) (Lint.orderProblems s (checked.filterMap (·.1)))

end Scoresheet
