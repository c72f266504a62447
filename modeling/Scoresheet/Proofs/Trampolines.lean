import Scoresheet.Proofs.Linting
import Scoresheet.Proofs.Parsing
import Scoresheet.Proofs.Reordering
import Scoresheet.Schema.Trampoline
/-!
# The trampoline schema is fit for use

Whatever a trampoline schema is made for, the linter finds nothing wrong with it (`lint_schema`) and it has a scorer
(`ofSchema_schema`).  Its formulas are texts that are put together from the parts that are there; their trees are put
together in the same way (`compiles`), by the grammar and not by the parser.  What does not depend on numbers and names
of the schema is the same for one of 48 skeletons and is checked on them.
-/
namespace Scoresheet

/-- What is a formula by the grammar, and not too deep, compiles to the tree of the grammar. -/
theorem Dialect.compile_of_isFormula {d : Dialect} {source : String} {ts : List Token} {e : Expr}
    (hblank : Text.allBlank source = false) (hscan : scan source = .ok ts) (hformula : Grammar.IsFormula ts e)
    (hdepth : (Parse.tokens source.length ts).isOk = true) (hfault : e.subterms.findSome? d.fault? = none) :
    d.compile source = .ok e := by
  have hparse : parse source = .ok e := by
    unfold parse
    rw [hscan]
    rcases Parse.tokens_of_isFormula source.length hformula with htokens | htokens
    · exact htokens
    · rw [htokens] at hdepth
      cases hdepth
  unfold compile
  rw [hblank, if_neg Bool.false_ne_true, hparse]
  simp only [check, hfault]

theorem Computed.rightUnique_compiles : Relator.RightUnique Computed.Compiles := by
  rintro c ⟨code, e⟩ ⟨code', e'⟩ ⟨hcode, text, htext, hcompile⟩ ⟨hcode', text', htext', hcompile'⟩
  rw [htext] at htext'
  cases htext'
  rw [hcompile] at hcompile'
  cases hcompile'
  dsimp only at hcode hcode'
  rw [hcode, hcode']

/-- What compiles and reads declared names only has no problem. -/
theorem Lint.checked_of_compiles {s : Schema} : ∀ {entries : List Computed} {nodes : List Node} {k : Nat},
    List.Forall₂ Computed.Compiles entries nodes →
      (∀ node ∈ nodes, ∀ name ∈ node.expr.reads, Lint.isDeclared s name = true) →
        ((entries.zipIdx k).map fun (c, i) => Lint.checkFormula s c i) = nodes.map fun node => (some node, [])
  | [], _, k, .nil, _ => rfl
  | c :: entries, node :: nodes, k, .cons ⟨hcode, text, htext, hcompile⟩ hrest, h => by
    obtain ⟨hnode, hnodes⟩ := List.forall_mem_cons.1 h
    have hmissing : (node.expr.reads.filter fun name => !Lint.isDeclared s name) = [] := by
      rw [List.filter_eq_nil_iff]
      intro name hname
      simp [hnode name hname]
    have hcheck : Lint.checkFormula s c k = (some node, []) := by
      rw [Lint.checkFormula, htext]
      simp only [hcompile, hmissing, ← hcode]
      rfl
    rw [List.zipIdx_cons, List.map_cons, List.map_cons, Lint.checked_of_compiles hrest hnodes]
    exact congrArg (List.cons · _) hcheck

/-- The shape of a field is known from the start, where no two fields share a code. -/
theorem Shapes.get?_start {s : Schema} {f : Field} (hcodes : (s.fields.map Field.code).Nodup) (hf : f ∈ s.fields)
    (hcode : f.code.isEmpty = false) (hparams : f.code ≠ "params") :
    (Shapes.start s .empty).known.get? f.code = some (Shape.ofField f) := by
  have hmem : (f.code, Shape.ofField f) ∈
      (s.fields.filter fun f => !f.code.isEmpty).map fun f => (f.code, Shape.ofField f) :=
    List.mem_map.2 ⟨f, List.mem_filter.2 ⟨hf, by simp [hcode]⟩, rfl⟩
  have hkeys : (((s.fields.filter fun f => !f.code.isEmpty).map fun f => (f.code, Shape.ofField f)).map
      Prod.fst).Nodup := by
    rw [List.map_map]
    exact hcodes.sublist (List.filter_sublist.map Field.code)
  have hfind := (Table.find?_eq_some_iff_of_nodup hkeys).2 hmem
  change ((Table.ofList _).insert "params" Shape.scalar).get? f.code = _
  rw [Table.get?_insert_of_ne _ _ hparams, Table.ofList, Table.get?_foldl_insert _ _ hkeys, hfind, Option.some_or]

theorem Shapes.get?_store {s : Shapes} (h : s.aliases = .empty) (code : String) (shape : Shape) (name : String) :
    (s.store code shape).known.get? name = if name = code then some shape else s.known.get? name := by
  rw [Shapes.store, h]
  exact Table.get?_insert s.known code name shape

namespace Grammar

theorem isPostfix_name {s : String} {p : Nat} (h : s ∉ keywords) (h' : s ∉ ["True", "False", "None"]) :
    IsPostfix [⟨.name s, p⟩] (.name s) :=
  .primary (.name h h')

theorem isPostfix_text (s : String) (p : Nat) : IsPostfix [⟨.text s, p⟩] (.literal (.text s)) := by
  have hne : [(s, p)] ≠ [] := by simp
  simpa [String.join] using IsPostfix.primary (IsPrimary.texts hne)

theorem IsPostfix.expr {ts : List Token} {e : Expr} (h : IsPostfix ts e) : IsExpr ts e := .term (.unary (.operand h))

end Grammar

namespace Trampoline

open Grammar

/-! ## Trees -/

/-- The names added up from the left; zero where there are none. -/
def sumTree : List String → Expr
  | [] => .literal (.number 0)
  | part :: parts => parts.foldl (fun e part => .binary .add e (.name part)) (.name part)

def totalTree (t : Trampoline) : Expr :=
  if t.penalty then .binary .sub (sumTree t.parts) (.name "P") else sumTree t.parts

def scoresTree : Expr := .call .execByJudge [.name "E", .call .crash [.literal (.text "E")] [], .name "params"] []

def settingTree (key : String) : Expr := .subscript (.name "params") (.literal (.text key))

/-- The marks that the criterion selects, added up. -/
def selectionTree (marks : String) : Expr :=
  .call .selectSum [.name marks, settingTree "n_valid", settingTree "criteria"] []

def executionNodes (t : Trampoline) : List Node :=
  match t.execution with
  | some .elements => [⟨"E_j", scoresTree⟩, ⟨"E_total", selectionTree "E_j"⟩]
  | some .manual => [⟨"E_total", selectionTree "E_manual"⟩]
  | none => []

def nodes (t : Trampoline) : List Node := t.executionNodes ++ [⟨"TOTAL", t.totalTree⟩]

/-! ## Tokens -/

/-- The tokens of names that are added to something that ends at a position. -/
def addedTokens (position : Nat) : List String → List Token
  | [] => []
  | part :: parts => ⟨.symbol .plus, position + 1⟩ :: ⟨.name part, position + 3⟩ ::
      addedTokens (position + 3 + part.length) parts

def sumTokens (position : Nat) : List String → List Token
  | [] => [⟨.number 0, position⟩]
  | part :: parts => ⟨.name part, position⟩ :: addedTokens (position + part.length) parts

def totalTokens (t : Trampoline) : List Token :=
  if t.penalty then
    let stop := t.totalFormula.length - 5
    ⟨.symbol .openParen, 0⟩ :: (sumTokens 1 t.parts ++ [⟨.symbol .closeParen, stop⟩]) ++
      ⟨.symbol .minus, stop + 2⟩ :: [⟨.name "P", stop + 4⟩]
  else sumTokens 0 t.parts

def additionNames : List String := ["DD", "TOF", "HD"]

theorem mem_additionNames {t : Trampoline} {part : String} (h : part ∈ t.additions.map (·.1)) :
    part ∈ additionNames := by
  simp only [additions, List.map_append, List.mem_append] at h
  rcases h with (h | h) | h
  all_goals
    split at h
    · simp only [List.map_cons, List.map_nil, List.mem_singleton] at h
      subst h
      decide
    · cases h

theorem mem_parts {t : Trampoline} {part : String} (h : part ∈ t.parts) :
    t.execution.isSome = true ∧ part = "E_total" ∨ part ∈ t.additions.map (·.1) := by
  rcases List.mem_append.1 h with h | h
  · split at h
    · rename_i hsome
      exact .inl ⟨hsome, List.mem_singleton.1 h⟩
    · cases h
  · exact .inr h

/-- The names of all parts that there may be. -/
def partNames : List String := "E_total" :: additionNames

theorem mem_partNames {t : Trampoline} {part : String} (h : part ∈ t.parts) : part ∈ partNames := by
  rcases mem_parts h with ⟨-, rfl⟩ | h
  · exact List.mem_cons_self
  · exact List.mem_cons_of_mem _ (mem_additionNames h)

theorem isPostfix_part {part : String} (h : part ∈ partNames) (position : Nat) :
    IsPostfix [⟨.name part, position⟩] (.name part) := by
  have hplain : ∀ part ∈ partNames, part ∉ keywords ∧ part ∉ ["True", "False", "None"] := by decide
  exact isPostfix_name (hplain part h).1 (hplain part h).2

theorem isExpr_added : ∀ {parts : List String} (_ : ∀ part ∈ parts, part ∈ partNames) {ts : List Token} {e : Expr}
    (_ : IsExpr ts e) (position : Nat), IsExpr (ts ++ addedTokens position parts)
      (parts.foldl (fun e part => .binary .add e (.name part)) e)
  | [], _, ts, e, he, position => by rwa [addedTokens, List.append_nil]
  | part :: parts, h, ts, e, he, position => by
    obtain ⟨hpart, hparts⟩ := List.forall_mem_cons.1 h
    have hmore : IsExpr (ts ++ ⟨.symbol BinaryOp.add.symbol, position + 1⟩ :: [⟨.name part, position + 3⟩])
        (.binary .add e (.name part)) :=
      .binary he (by decide) (.unary (.operand (isPostfix_part hpart _)))
    have hall := isExpr_added hparts hmore (position + 3 + part.length)
    rwa [List.append_assoc] at hall

theorem isExpr_sum {parts : List String} (h : ∀ part ∈ parts, part ∈ partNames) (position : Nat) :
    IsExpr (sumTokens position parts) (sumTree parts) := by
  cases parts with
  | nil => exact (IsPostfix.primary .number).expr
  | cons part parts =>
    obtain ⟨hpart, hparts⟩ := List.forall_mem_cons.1 h
    exact isExpr_added hparts (isPostfix_part hpart position).expr _

theorem isFormula_total (t : Trampoline) : IsFormula t.totalTokens t.totalTree := by
  have hsum : ∀ position, IsExpr (sumTokens position t.parts) (sumTree t.parts) :=
    isExpr_sum fun part => mem_partNames
  unfold totalTokens totalTree
  split
  · have hpenalty : IsPostfix [⟨.name "P", t.totalFormula.length - 5 + 4⟩] (.name "P") :=
      isPostfix_name (by decide) (by decide)
    exact .expr (@IsExpr.binary _ _ _ .sub _ _ (IsPostfix.primary (.parens (hsum 1))).expr (by decide)
      (.unary (.operand hpenalty)))
  · exact .expr (hsum 0)

def scoresTokens : List Token :=
  [⟨.name "exec_by_judge", 0⟩, ⟨.symbol .openParen, 13⟩, ⟨.name "E", 14⟩, ⟨.symbol .comma, 15⟩, ⟨.name "crash", 17⟩,
    ⟨.symbol .openParen, 22⟩, ⟨.text "E", 23⟩, ⟨.symbol .closeParen, 26⟩, ⟨.symbol .comma, 27⟩, ⟨.name "params", 29⟩,
    ⟨.symbol .closeParen, 35⟩]

theorem isFormula_scores : IsFormula scoresTokens scoresTree := by
  have hname : ∀ (s : String) (p : Nat), s ∈ ["exec_by_judge", "E", "crash", "params"] →
      IsPostfix [⟨.name s, p⟩] (.name s) := fun s p hs => by
    have hplain : ∀ s ∈ ["exec_by_judge", "E", "crash", "params"], s ∉ keywords ∧ s ∉ ["True", "False", "None"] := by
      decide
    exact isPostfix_name (hplain s hs).1 (hplain s hs).2
  have hcrash := IsPostfix.call (f := .crash) (p := 22) (q := 26) (hname "crash" 17 (by decide))
    (.last (isPostfix_text "E" 23).expr) List.nodup_nil
  have harguments : AreArguments _ _ _ := .cons (p := 15) (hname "E" 14 (by decide)).expr
    (.cons (p := 27) hcrash.expr (.last (hname "params" 29 (by decide)).expr))
  exact .expr (IsPostfix.call (f := .execByJudge) (p := 13) (q := 35) (hname "exec_by_judge" 0 (by decide)) harguments
    List.nodup_nil).expr

def settingTokens (key : String) (position : Nat) : List Token :=
  [⟨.name "params", position⟩, ⟨.symbol .openBracket, position + 6⟩, ⟨.text key, position + 7⟩,
    ⟨.symbol .closeBracket, position + 9 + key.length⟩]

theorem isExpr_setting (key : String) (position : Nat) : IsExpr (settingTokens key position) (settingTree key) :=
  (IsPostfix.subscript (isPostfix_name (by decide) (by decide)) (isPostfix_text key (position + 7)).expr).expr

def selectionTokens (marks : String) : List Token :=
  let stop := 11 + marks.length
  ⟨.name "select_sum", 0⟩ :: ⟨.symbol .openParen, 10⟩ ::
    (⟨.name marks, 11⟩ :: ⟨.symbol .comma, stop⟩ :: (settingTokens "n_valid" (stop + 2) ++
      ⟨.symbol .comma, stop + 19⟩ :: settingTokens "criteria" (stop + 21)) ++ [⟨.symbol .closeParen, stop + 39⟩])

theorem isFormula_selection {marks : String} (h : marks ∉ keywords) (h' : marks ∉ ["True", "False", "None"]) :
    IsFormula (selectionTokens marks) (selectionTree marks) := by
  have hfunction : IsPostfix [⟨.name "select_sum", 0⟩] (.name Function.selectSum.name) :=
    isPostfix_name (by decide) (by decide)
  have harguments := AreArguments.cons (p := 11 + marks.length) (isPostfix_name (p := 11) h h').expr
    (.cons (p := 11 + marks.length + 19) (isExpr_setting "n_valid" (11 + marks.length + 2))
      (.last (isExpr_setting "criteria" (11 + marks.length + 21))))
  exact .expr (IsPostfix.call (p := 10) (q := 11 + marks.length + 39) hfunction harguments List.nodup_nil).expr

/-! ## Skeletons -/

/-- The schema is made for the same parts, but with no numbers and names of its own. -/
def skeleton (t : Trampoline) : Trampoline := { t with judges := 1, valid := 1, criteria := "", elements := 1 }

def skeletons : List Trampoline :=
  [none, some .elements, some .manual].flatMap fun execution => [false, true].flatMap fun difficulty =>
    [false, true].flatMap fun timeOfFlight => [false, true].flatMap fun horizontalDisplacement =>
      [false, true].map fun penalty =>
        ⟨1, 1, "", 1, execution, difficulty, timeOfFlight, horizontalDisplacement, penalty⟩

theorem skeleton_mem (t : Trampoline) : t.skeleton ∈ skeletons := by
  obtain ⟨_, _, _, _, execution, difficulty, timeOfFlight, horizontalDisplacement, penalty⟩ := t
  have hbool : ∀ b : Bool, b ∈ [false, true] := by decide
  have hmode : execution ∈ [none, some .elements, some .manual] := by
    rcases execution with _ | _ | _ <;> decide
  exact List.mem_flatMap.2 ⟨_, hmode, List.mem_flatMap.2 ⟨_, hbool difficulty, List.mem_flatMap.2
    ⟨_, hbool timeOfFlight, List.mem_flatMap.2 ⟨_, hbool horizontalDisplacement, List.mem_map.2
      ⟨_, hbool penalty, rfl⟩⟩⟩⟩⟩

theorem declarationProblems_skeleton (t : Trampoline) :
    Lint.declarationProblems t.skeleton.schema = Lint.declarationProblems t.schema := by
  obtain ⟨_, _, _, _, execution, _, _, _, _⟩ := t
  rcases execution with _ | _ | _ <;> rfl

theorem codes_skeleton (t : Trampoline) : t.skeleton.schema.codes = t.schema.codes := by
  obtain ⟨_, _, _, _, execution, _, _, _, _⟩ := t
  rcases execution with _ | _ | _ <;> rfl

theorem vars_skeleton (t : Trampoline) : t.skeleton.schema.vars = t.schema.vars := by
  obtain ⟨_, _, _, _, execution, _, _, _, _⟩ := t
  rcases execution with _ | _ | _ <;> rfl

/-! ## Formulas -/

/-- A text with its tokens and its tree, by the grammar and without a fault. -/
structure Reads (source : String) (ts : List Token) (e : Expr) : Prop where
  blank : Text.allBlank source = false
  scan : scan source = .ok ts
  depth : (Parse.tokens source.length ts).isOk = true
  fault : e.subterms.findSome? Dialect.formula.fault? = none

instance (source : String) (ts : List Token) (e : Expr) : Decidable (Reads source ts e) :=
  decidable_of_iff (Text.allBlank source = false ∧ Scoresheet.scan source = .ok ts ∧
    (Parse.tokens source.length ts).isOk = true ∧ e.subterms.findSome? Dialect.formula.fault? = none)
    ⟨fun ⟨h₁, h₂, h₃, h₄⟩ => ⟨h₁, h₂, h₃, h₄⟩, fun ⟨h₁, h₂, h₃, h₄⟩ => ⟨h₁, h₂, h₃, h₄⟩⟩

theorem Reads.compiles_entry {code label formula : String} {ts : List Token} {e : Expr} (h : Reads formula ts e)
    (hformula : IsFormula ts e) : (entry code label formula).Compiles ⟨code, e⟩ := by
  refine ⟨rfl, formula, ?_, Dialect.compile_of_isFormula h.blank h.scan hformula h.depth h.fault⟩
  simp [entry, Computed.formulaText, h.blank]

theorem reads_total (t : Trampoline) : Reads t.totalFormula t.totalTokens t.totalTree := by
  -- the total does not tell how judges enter execution, so two of the three modes are enough
  have hall : ∀ t ∈ skeletons, t.execution ≠ some .manual → Reads t.totalFormula t.totalTokens t.totalTree := by
    decide +kernel
  by_cases h : t.execution = some .manual
  · obtain ⟨judges, valid, criteria, elements, execution, difficulty, timeOfFlight, horizontalDisplacement, penalty⟩ := t
    cases h
    let t : Trampoline := ⟨judges, valid, criteria, elements, some .elements, difficulty, timeOfFlight,
      horizontalDisplacement, penalty⟩
    exact hall t.skeleton t.skeleton_mem fun h => by cases h
  · exact hall t.skeleton t.skeleton_mem h

def scoresFormula : String := "exec_by_judge(E, crash('E'), params)"

theorem reads_scores : Reads scoresFormula scoresTokens scoresTree := by decide +kernel

def selectionFormula (marks : String) : String := s!"select_sum({marks}, params['n_valid'], params['criteria'])"

theorem compiles_selection {marks : String} (h : marks ∈ ["E_j", "E_manual"]) :
    (executionTotal marks).Compiles ⟨"E_total", selectionTree marks⟩ := by
  have hall : ∀ marks ∈ ["E_j", "E_manual"], marks ∉ keywords ∧ marks ∉ ["True", "False", "None"] ∧
      Reads (selectionFormula marks) (selectionTokens marks) (selectionTree marks) := by decide +kernel
  obtain ⟨hkeyword, hconstant, hreads⟩ := hall marks h
  exact hreads.compiles_entry (isFormula_selection hkeyword hconstant)

/-- The formulas of the schema compile to its trees. -/
theorem compiles (t : Trampoline) : List.Forall₂ Computed.Compiles t.schema.computed t.nodes := by
  have hexecution : List.Forall₂ Computed.Compiles t.executionEntries t.executionNodes := by
    unfold executionEntries executionNodes
    cases t.execution with
    | none => exact .nil
    | some mode =>
      cases mode with
      | elements =>
        exact .cons (reads_scores.compiles_entry isFormula_scores) (.cons (compiles_selection (by decide)) .nil)
      | manual => exact .cons (compiles_selection (by decide)) .nil
  exact List.rel_append hexecution (.cons (t.reads_total.compiles_entry t.isFormula_total) .nil)

theorem order_nodes (t : Trampoline) : Plan.order t.nodes .empty = .ok (List.range t.nodes.length) := by
  have hall : ∀ t ∈ skeletons, Plan.order t.nodes .empty = .ok (List.range t.nodes.length) := by decide +kernel
  exact hall t.skeleton t.skeleton_mem

/-! ## The linter's stages -/

theorem declarationProblems_schema (t : Trampoline) : Lint.declarationProblems t.schema = [] := by
  have hall : ∀ t ∈ skeletons, Lint.declarationProblems t.schema = [] := by decide +kernel
  rw [← t.declarationProblems_skeleton]
  exact hall t.skeleton t.skeleton_mem

theorem vars_schema (t : Trampoline) : t.schema.vars = [] := by
  have hall : ∀ t ∈ skeletons, t.schema.vars = [] := by decide +kernel
  rw [← t.vars_skeleton]
  exact hall t.skeleton t.skeleton_mem

theorem aliases_schema (t : Trampoline) : t.schema.aliases = .empty := by
  have hnone : t.schema.params.get? "aliases" = none := by
    simp [schema, Table.ofList, Table.get?_insert]
  rw [Schema.aliases, vars_schema, Schema.parameterAliases, hnone]
  rfl

/-- The formulas read declared names only. -/
theorem isDeclared_schema (t : Trampoline) :
    ∀ node ∈ t.nodes, ∀ name ∈ node.expr.reads, Lint.isDeclared t.schema name = true := by
  have hall : ∀ t ∈ skeletons, ∀ node ∈ t.nodes, ∀ name ∈ node.expr.reads, Lint.isDeclared t.schema name = true := by
    decide +kernel
  intro node hnode name hname
  have hdeclared := hall t.skeleton t.skeleton_mem node hnode name hname
  rw [Lint.isDeclared, codes_skeleton, aliases_schema] at hdeclared
  rwa [Lint.isDeclared, aliases_schema]

/-! ## Shapes -/

/-- The shapes of what the schema declares are known. -/
structure IsShaped (t : Trampoline) (s : Shapes) : Prop where
  schema : s.schema = t.schema
  aliases : s.aliases = .empty
  params : s.known.get? "params" = some .scalar
  field : ∀ f ∈ t.schema.fields, s.known.get? f.code = some (Shape.ofField f)

theorem allFree_codes (t : Trampoline) : Lint.AllFree [] t.schema.codes := by
  have hnames := t.declarationProblems_schema
  rw [Lint.declarationProblems, List.append_eq_nil_iff] at hnames
  rw [← Lint.codes_declarations]
  exact (Lint.allFree_of_nameProblems hnames.1).1

theorem isShaped_start (t : Trampoline) : t.IsShaped (Shapes.start t.schema .empty) where
  schema := rfl
  aliases := rfl
  params := Table.get?_insert_self _ _ _
  field f hf := by
    have hnodup := List.nodup_append.1 t.allFree_codes.nodup
    obtain ⟨hidentifier, hreserved, -⟩ := t.allFree_codes.free f.code
      (List.mem_append_left _ (List.mem_map_of_mem hf))
    refine Shapes.get?_start hnodup.1 hf (Text.isEmpty_of_isIdentifier hidentifier) ?_
    intro hparams
    rw [hparams] at hreserved
    cases hreserved

namespace IsShaped

variable {t : Trampoline} {s : Shapes}

theorem store (h : t.IsShaped s) {code : String} (hcode : code ∈ t.schema.computed.map Computed.code) (shape : Shape) :
    t.IsShaped (s.store code shape) where
  schema := h.schema
  aliases := h.aliases
  params := by
    have hreserved := (t.allFree_codes.free code (List.mem_append_right _ hcode)).2.1
    have hne : "params" ≠ code := by
      rintro rfl
      cases hreserved
    rw [Shapes.get?_store h.aliases, if_neg hne, h.params]
  field f hf := by
    have hapart := (List.nodup_append.1 t.allFree_codes.nodup).2.2
    have hne : f.code ≠ code := hapart f.code (List.mem_map_of_mem hf) code hcode
    rw [Shapes.get?_store h.aliases, if_neg hne, h.field f hf]

theorem addition (h : t.IsShaped s) {part : String} (hpart : part ∈ t.additions.map (·.1)) :
    s.known.get? part = some .scalar := by
  obtain ⟨a, ha, rfl⟩ := List.mem_map.1 hpart
  have hmem : numberField a.1 a.2 ∈ t.schema.fields :=
    List.mem_append_left _ (List.mem_append_right _ (List.mem_map_of_mem ha))
  exact h.field _ hmem

theorem penalty (h : t.IsShaped s) (hpenalty : t.penalty = true) : s.known.get? "P" = some .scalar := by
  have hmem : numberField "P" "Penalty" ∈ t.schema.fields :=
    List.mem_append_right _ (by rw [if_pos hpenalty]; exact List.mem_singleton_self _)
  exact h.field _ hmem

theorem infer_scores (h : t.IsShaped s) (hmode : t.execution = some .elements) :
    s.infer scoresTree = .ok (.column (some t.deductionField.judgeCount)) := by
  have hmem : t.deductionField ∈ t.schema.fields := by simp [Trampoline.schema, executionFields, hmode]
  have hfield : s.field? "E" = some t.deductionField := by
    rw [Shapes.field?, h.aliases, h.schema]
    simp [Schema.field?, Trampoline.schema, executionFields, hmode, deductionField, plainField]
  have hrows : (s.known.get? "E").map Shape.rows = some (some t.deductionField.judgeCount) := by
    have hknown : s.known.get? "E" = some (Shape.ofField t.deductionField) := h.field _ hmem
    rw [hknown]
    rfl
  obtain ⟨matrix, hmatrix, hrows⟩ := Option.map_eq_some_iff.1 hrows
  have hcrash : (some t.deductionField).filter Field.tracksCrash = some t.deductionField := rfl
  simp [Shapes.infer, Shapes.inferPositional, Shapes.inferKeywords, scoresTree, hmatrix, hrows, h.params, hfield, hcrash,
    Function.parameters, Shapes.ofCall, Given.needScalar, Given.shape?, Given.find?, Given.text?, Shape.isNotScalar,
    Shape.agree, Shape.column, Shape.scalar, bind, Except.bind, pure, Except.pure]

theorem infer_selection (h : t.IsShaped s) (marks : String) : s.infer (selectionTree marks) = .ok .scalar := by
  simp [Shapes.infer, Shapes.inferPositional, Shapes.inferKeywords, selectionTree, settingTree, h.params,
    Function.parameters, Shapes.ofCall, Given.needScalar, Given.shape?, Given.find?, Shape.isNotScalar,
    Shape.scalar, bind, Except.bind, pure, Except.pure]

end IsShaped

theorem infer_sum {s : Shapes} {parts : List String} (h : ∀ part ∈ parts, s.known.get? part = some .scalar) :
    s.infer (sumTree parts) = .ok .scalar := by
  have hadded : ∀ (parts : List String) (e : Expr), (∀ part ∈ parts, s.known.get? part = some .scalar) →
      s.infer e = .ok .scalar →
        s.infer (parts.foldl (fun e part => .binary .add e (.name part)) e) = .ok .scalar := by
    intro parts
    induction parts with
    | nil => exact fun e _ he => he
    | cons part parts ih =>
      intro e h he
      obtain ⟨hpart, hparts⟩ := List.forall_mem_cons.1 h
      refine ih _ hparts ?_
      simp only [Shapes.infer, he, hpart]
      rfl
  cases parts with
  | nil => rfl
  | cons part parts =>
    obtain ⟨hpart, hparts⟩ := List.forall_mem_cons.1 h
    refine hadded parts _ hparts ?_
    rw [Shapes.infer, hpart]
    rfl

theorem IsShaped.infer_total {t : Trampoline} {s : Shapes} (h : t.IsShaped s)
    (hexecution : t.execution.isSome = true → s.known.get? "E_total" = some .scalar) :
    s.infer t.totalTree = .ok .scalar := by
  have hsum : s.infer (sumTree t.parts) = .ok .scalar := by
    refine infer_sum fun part hpart => ?_
    rcases mem_parts hpart with ⟨hsome, rfl⟩ | hpart
    · exact hexecution hsome
    · exact h.addition hpart
  unfold totalTree
  split
  · rename_i hpenalty
    simp only [Shapes.infer, hsum, h.penalty hpenalty]
    rfl
  · exact hsum

theorem shapeProblems_schema (t : Trampoline) :
    Lint.shapeProblems (Shapes.start t.schema .empty) t.nodes (List.range t.nodes.length) = [] := by
  have hstart := t.isShaped_start
  cases hmode : t.execution with
  | none =>
    have htotal := hstart.infer_total (by simp [hmode])
    simp [nodes, executionNodes, hmode, Lint.shapeProblems, htotal, List.range_succ]
  | some mode =>
    cases mode with
    | elements =>
      have hcode : "E_j" ∈ t.schema.computed.map Computed.code := by
        simp [Trampoline.schema, executionEntries, hmode, executionTotal, entry]
      have hcode' : "E_total" ∈ t.schema.computed.map Computed.code := by
        simp [Trampoline.schema, executionEntries, hmode, executionTotal, entry]
      have hmarks := hstart.infer_scores hmode
      have hnext := hstart.store hcode (.column (some t.deductionField.judgeCount))
      have hselection := hnext.infer_selection "E_j"
      have hlast := hnext.store hcode' .scalar
      have htotal := hlast.infer_total fun _ => by rw [Shapes.get?_store hnext.aliases, if_pos rfl]
      simp [nodes, executionNodes, hmode, Lint.shapeProblems, hmarks, hselection, htotal, List.range_succ]
    | manual =>
      have hcode : "E_total" ∈ t.schema.computed.map Computed.code := by
        simp [Trampoline.schema, executionEntries, hmode, executionTotal, entry]
      have hselection := hstart.infer_selection "E_manual"
      have hlast := hstart.store hcode .scalar
      have htotal := hlast.infer_total fun _ => by rw [Shapes.get?_store hstart.aliases, if_pos rfl]
      simp [nodes, executionNodes, hmode, Lint.shapeProblems, hselection, htotal, List.range_succ]

/-! ## Fitness -/

/-- **The linter finds nothing wrong with a trampoline schema.** -/
theorem lint_schema (t : Trampoline) : lint t.schema = [] := by
  have haliases : Lint.aliasProblems t.schema = [] := by
    rw [Lint.aliasProblems, aliases_schema]
    rfl
  have horder : Lint.orderProblems t.schema t.nodes = [] := by
    rw [Lint.orderProblems, aliases_schema, order_nodes]
    exact t.shapeProblems_schema
  rw [lint, Lint.checked_of_compiles t.compiles t.isDeclared_schema]
  simp only [Lint.orElse_eq_nil_iff]
  refine ⟨t.declarationProblems_schema, haliases, ?_, ?_⟩
  · simp
  · simpa using horder

/-- **A trampoline schema has a scorer**, which evaluates the formulas in the order in which the schema has them. -/
theorem ofSchema_schema (t : Trampoline) : Scorer.ofSchema t.schema = .ok ⟨t.schema, .empty, t.nodes⟩ := by
  obtain ⟨nodes, hfit⟩ := fit_of_lint t.lint_schema
  have hunique : nodes = t.nodes := Computed.rightUnique_compiles.forall₂ hfit.compiles t.compiles
  subst hunique
  have horder := t.order_nodes
  rw [← aliases_schema] at horder
  rw [hfit.ofSchema_eq horder, aliases_schema, Plan.arranged_range]

end Trampoline
end Scoresheet
