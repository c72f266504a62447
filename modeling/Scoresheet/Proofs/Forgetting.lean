import Scoresheet.Proofs.Measuring
/-!
# What is not known fits

A dry run knows some dimensions of some shapes.  Where it knows less it finds less, and it finds no fault that it did
not find before, neither in one formula (`infer_forget`) nor in a whole run (`shapeProblems_vaguer`).  Almost every rule
only gets looser when a dimension is forgotten.  The one that does not is that of subscripts: a part of a single row is
a single number, and a part of anything else is a row, as wide as the whole.  It is saved by an invariant of the shapes
that can be reached (`Shape.Rowed`): where the rows are not known there is one column, or the columns are not known
either.  Without it a number could pass for a row (`not_infer_vaguer`).
-/
namespace Scoresheet

/-! ## Vaguer shapes -/

namespace Shape

/-- A shape with some dimensions of the other one forgotten. -/
structure Vaguer (vague s : Shape) : Prop where
  rows : vague.rows = none ∨ vague.rows = s.rows
  columns : vague.columns = none ∨ vague.columns = s.columns

/-- Where the rows are not known, there is one column or the columns are not known. -/
def Rowed (s : Shape) : Prop := s.rows = none → s.columns = none ∨ s.columns = some 1

variable {s s' t t' : Shape}

theorem Vaguer.refl (s : Shape) : s.Vaguer s := ⟨.inr rfl, .inr rfl⟩

theorem vaguer_unknown (s : Shape) : unknown.Vaguer s := ⟨.inl rfl, .inl rfl⟩

theorem vaguer_column {rows rows' : Option Nat} (h : rows' = none ∨ rows' = rows) :
    (column rows').Vaguer (column rows) := ⟨h, .inr rfl⟩

/-- What is a single number for all that is known was one before. -/
theorem Vaguer.eq_scalar (h : s'.Vaguer s) (hscalar : s' = scalar) : s = scalar := by
  subst hscalar
  obtain ⟨rows, columns⟩ := s
  obtain ⟨hrows, hcolumns⟩ := h
  simp only [scalar, reduceCtorEq, false_or] at hrows hcolumns
  subst hrows hcolumns
  rfl

theorem any_of_forgotten {a a' : Option Nat} (h : a' = none ∨ a' = a) {p : Nat → Bool} (ha : a.any p = false) :
    a'.any p = false := by
  rcases h with rfl | rfl
  · rfl
  · exact ha

theorem Vaguer.isNotScalar (h : s'.Vaguer s) (hs : s.isNotScalar = false) : s'.isNotScalar = false := by
  rw [Shape.isNotScalar, Bool.or_eq_false_iff] at hs ⊢
  exact ⟨any_of_forgotten h.rows hs.1, any_of_forgotten h.columns hs.2⟩

theorem agree_of_forgotten {a a' b b' : Option Nat} (ha : a' = none ∨ a' = a) (hb : b' = none ∨ b' = b)
    (h : agree a b = true) : agree a' b' = true := by
  rcases ha with rfl | rfl
  · rfl
  · rcases hb with rfl | rfl
    · cases a' <;> rfl
    · exact h

/-- Of two dimensions that agree, what is known of either is the same when one of them is forgotten. -/
theorem or_of_forgotten {a a' b b' : Option Nat} (ha : a' = none ∨ a' = a) (hb : b' = none ∨ b' = b)
    (h : agree a b = true) : a'.or b' = none ∨ a'.or b' = a.or b := by
  rcases ha with rfl | rfl
  · rcases hb with rfl | rfl
    · exact .inl rfl
    · cases a with
      | none => exact .inr rfl
      | some m =>
        cases b' with
        | none => exact .inl rfl
        | some n =>
          obtain rfl : m = n := by simpa [agree] using h
          exact .inr rfl
  · rcases hb with rfl | rfl
    · cases a' with
      | none => exact .inl rfl
      | some m => exact .inr rfl
    · exact .inr rfl

theorem Vaguer.compatible (hs : s'.Vaguer s) (ht : t'.Vaguer t) (h : s.compatible t = true) :
    s'.compatible t' = true := by
  rw [Shape.compatible, Bool.and_eq_true] at h ⊢
  exact ⟨agree_of_forgotten hs.rows ht.rows h.1, agree_of_forgotten hs.columns ht.columns h.2⟩

theorem Vaguer.merge (hs : s'.Vaguer s) (ht : t'.Vaguer t) (h : s.compatible t = true) :
    (s'.merge t').Vaguer (s.merge t) := by
  rw [Shape.compatible, Bool.and_eq_true] at h
  exact ⟨or_of_forgotten hs.rows ht.rows h.1, or_of_forgotten hs.columns ht.columns h.2⟩

/-- **A part of a vaguer shape is a vaguer part**, where the shape is one that can arise. -/
theorem Vaguer.part (h : s'.Vaguer s) (hrowed : s'.Rowed) :
    (if s'.rows = some 1 then scalar else ⟨some 1, s'.columns⟩ : Shape).Vaguer
      (if s.rows = some 1 then scalar else ⟨some 1, s.columns⟩) := by
  by_cases hone : s'.rows = some 1
  · have hrows : s.rows = some 1 := by
      rcases h.rows with hnone | hsame
      · rw [hone] at hnone
        cases hnone
      · rw [← hsame, hone]
    rw [if_pos hone, if_pos hrows]
    exact .refl _
  · rw [if_neg hone]
    by_cases hrows : s.rows = some 1
    · -- the single row is forgotten, and the columns are one or forgotten with it
      rw [if_pos hrows]
      have hnone : s'.rows = none := h.rows.resolve_right fun hsame => hone (hsame.trans hrows)
      exact ⟨.inr rfl, hrowed hnone⟩
    · rw [if_neg hrows]
      exact ⟨.inr rfl, h.columns⟩

theorem rowed_unknown : unknown.Rowed := fun _ => .inl rfl

theorem rowed_some (rows : Nat) (columns : Option Nat) : Rowed ⟨some rows, columns⟩ := fun hnone => by cases hnone

theorem rowed_column (rows : Option Nat) : (column rows).Rowed := fun _ => .inr rfl

theorem rowed_merge (hs : s.Rowed) (ht : t.Rowed) : (s.merge t).Rowed := by
  intro hnone
  obtain ⟨hsrows, htrows⟩ := Option.or_eq_none_iff.1 hnone
  show s.columns.or t.columns = none ∨ s.columns.or t.columns = some 1
  rcases hs hsrows with hcolumns | hcolumns
  · rw [hcolumns, Option.none_or]
    exact ht htrows
  · rw [hcolumns, Option.some_or]
    exact .inr rfl

theorem rowed_ofField (f : Field) : (ofField f).Rowed := by
  rw [ofField]
  cases f.layout with
  | scalar | matrix => exact rowed_some _ _
  | judgeVector => exact rowed_column _
  | passthrough => exact rowed_unknown

end Shape

/-! ## Findings -/

/-- What the first one finds the second one finds too, up to what is forgotten. -/
def Loosens {α : Type} (R : α → α → Prop) (x y : Except ShapeFault α) : Prop :=
  ∀ a, x = .ok a → ∃ b, y = .ok b ∧ R b a

theorem loosens_ok {α : Type} {R : α → α → Prop} {a b : α} (h : R b a) : Loosens R (.ok a) (.ok b) := by
  intro a' ha
  cases ha
  exact ⟨b, rfl, h⟩

theorem Loosens.bind {α β : Type} {R : α → α → Prop} {Q : β → β → Prop} {x y : Except ShapeFault α}
    {f g : α → Except ShapeFault β} (h : Loosens R x y)
    (hf : ∀ a b, x = .ok a → y = .ok b → R b a → Loosens Q (f a) (g b)) : Loosens Q (x >>= f) (y >>= g) := by
  intro c hc
  obtain ⟨a, hx, hfa⟩ := bind_eq_ok_iff.1 hc
  obtain ⟨b, hy, hR⟩ := h a hx
  obtain ⟨d, hgb, hQ⟩ := hf a b hx hy hR c hfa
  exact ⟨d, bind_eq_ok_iff.2 ⟨b, hy, hgb⟩, hQ⟩

namespace Given

/-- The same arguments with vaguer shapes. -/
def Vaguer (g' g : Given) : Prop :=
  List.Forall₂ (fun a' a => a'.1 = a.1 ∧ a'.2.1 = a.2.1 ∧ a'.2.2.Vaguer a.2.2) g' g

variable {g g' : Given}

theorem Vaguer.find? (h : g'.Vaguer g) (parameter : String) :
    g'.find? parameter = none ∧ g.find? parameter = none ∨ ∃ e shape' shape,
      g'.find? parameter = some (e, shape') ∧ g.find? parameter = some (e, shape) ∧ shape'.Vaguer shape := by
  rw [Given.find?, Given.find?]
  have hreverse := List.forall₂_reverse_iff.2 h
  generalize g'.reverse = m', g.reverse = m at hreverse ⊢
  induction hreverse with
  | nil => exact .inl ⟨rfl, rfl⟩
  | @cons a' a l' l ha _ ih =>
    obtain ⟨hkey, hexpr, hshape⟩ := ha
    rw [List.find?_cons, List.find?_cons, hkey]
    cases a.1 == parameter with
    | false => exact ih
    | true => exact .inr ⟨a.2.1, a'.2.2, a.2.2, by simp [← hexpr], rfl, hshape⟩

theorem Vaguer.text? (h : g'.Vaguer g) (parameter : String) : g'.text? parameter = g.text? parameter := by
  rw [Given.text?, Given.text?]
  rcases h.find? parameter with ⟨hfind', hfind⟩ | ⟨e, shape', shape, hfind', hfind, -⟩
  · rw [hfind', hfind]
  · rw [hfind', hfind]
    cases e with
    | literal l => cases l <;> rfl
    | _ => rfl

theorem Vaguer.getD_shape? (h : g'.Vaguer g) (parameter : String) :
    ((g'.shape? parameter).getD .unknown).Vaguer ((g.shape? parameter).getD .unknown) := by
  rw [Given.shape?, Given.shape?]
  rcases h.find? parameter with ⟨hfind', hfind⟩ | ⟨e, shape', shape, hfind', hfind, hshape⟩
  · rw [hfind', hfind]
    exact .refl _
  · rw [hfind', hfind]
    exact hshape

theorem Vaguer.needScalar (h : g'.Vaguer g) (f : Function) (parameter : String) :
    Loosens (fun _ _ => True) (g.needScalar f parameter) (g'.needScalar f parameter) := by
  intro a ha
  refine ⟨(), ?_, trivial⟩
  rw [Given.needScalar, Given.shape?] at ha ⊢
  rcases h.find? parameter with ⟨hfind', hfind⟩ | ⟨e, shape', shape, hfind', hfind, hshape⟩
  · rw [hfind']
    rfl
  · rw [hfind, Option.map_some] at ha
    rw [hfind', Option.map_some]
    dsimp only at ha ⊢
    split at ha
    · cases ha
    · rename_i hscalar
      rw [if_neg (by rw [hshape.isNotScalar (Bool.not_eq_true _ ▸ hscalar)]; exact Bool.false_ne_true)]

end Given

/-! ## Shapes that are forgotten -/

namespace Shapes

/-- The same names with vaguer shapes. -/
structure Vaguer (t s : Shapes) : Prop where
  schema : t.schema = s.schema
  aliases : t.aliases = s.aliases
  known : ∀ name, ((t.known.get? name).getD .unknown).Vaguer ((s.known.get? name).getD .unknown)

/-- Where the rows of a name are not known, it has one column or its columns are not known. -/
def Rowed (s : Shapes) : Prop := ∀ name shape, s.known.get? name = some shape → shape.Rowed

variable {s t : Shapes}

theorem Vaguer.rows? (h : t.Vaguer s) (name : String) : t.rows? name = none ∨ t.rows? name = s.rows? name := by
  have hrows : ∀ u : Shapes, u.rows? name = ((u.known.get? name).getD .unknown).rows := by
    intro u
    rw [Shapes.rows?]
    cases u.known.get? name <;> rfl
  rw [hrows, hrows]
  exact (h.known name).rows

theorem Vaguer.field? (h : t.Vaguer s) (name : String) : t.field? name = s.field? name := by
  rw [Shapes.field?, Shapes.field?, h.schema, h.aliases]

/-- **Calls find no more faults** in arguments with vaguer shapes. -/
theorem Vaguer.ofCall (h : t.Vaguer s) (f : Function) {g g' : Given} (hg : g'.Vaguer g) :
    Loosens (fun shape' shape => shape'.Vaguer shape) (s.ofCall f g) (t.ofCall f g') := by
  have hrows : ∀ parameter, (g'.text? parameter).bind t.rows? = none ∨
      (g'.text? parameter).bind t.rows? = (g.text? parameter).bind s.rows? := by
    intro parameter
    rw [hg.text?]
    cases g.text? parameter with
    | none => exact .inl rfl
    | some name => exact h.rows? name
  have hfield : ∀ parameter, (g'.text? parameter).bind t.field? = (g.text? parameter).bind s.field? := by
    intro parameter
    rw [hg.text?]
    exact congrArg _ (funext h.field?)
  cases f with
  | sum | avg | min | max | med => exact loosens_ok (.refl _)
  | float => exact (hg.needScalar _ _).bind fun _ _ _ _ _ => loosens_ok (.refl _)
  | execByJudge =>
    have hmatrix := hg.getD_shape? "matrix"
    have hcrash := hg.getD_shape? "crash"
    intro shape hshape
    rw [Shapes.ofCall] at hshape ⊢
    dsimp only at hshape ⊢
    split at hshape
    · cases hshape
    · rename_i hagree
      split at hshape
      · cases hshape
      · rename_i hcolumns
        cases hshape
        rw [Bool.not_eq_true, Bool.not_eq_false'] at hagree
        rw [Bool.not_eq_true] at hcolumns
        rw [if_neg (by simp [Shape.agree_of_forgotten hmatrix.rows hcrash.rows hagree]),
          if_neg (by simp [Shape.any_of_forgotten hcrash.columns hcolumns])]
        exact ⟨_, rfl, Shape.vaguer_column hmatrix.rows⟩
  | selectSum =>
    exact (hg.needScalar _ _).bind fun _ _ _ _ _ => (hg.needScalar _ _).bind fun _ _ _ _ _ => loosens_ok (.refl _)
  | bestN => exact (hg.needScalar _ _).bind fun _ _ _ _ _ => loosens_ok (.refl _)
  | field => exact (hg.needScalar _ _).bind fun _ _ _ _ _ => loosens_ok (.refl _)
  | crash =>
    refine (hg.needScalar _ _).bind fun _ _ _ _ _ => loosens_ok ?_
    rw [hfield]
    exact .refl _
  | itemsReduce => exact loosens_ok (Shape.vaguer_column (hrows "field_code"))
  | rowCompute | columnCompute =>
    simp only [Shapes.ofCall, hg.text? "return_mode", hfield]
    rcases hg.find? "return_mode" with ⟨hfind', hfind⟩ | ⟨e, shape', shape, hfind', hfind, -⟩
    · rw [hfind', hfind]
      exact loosens_ok (.refl _)
    · rw [hfind', hfind]
      split
      · rename_i hnone
        cases hnone
      · rename_i hmode _
        rw [hmode]
        exact loosens_ok (.refl _)
      · rename_i hmode _
        rw [hmode]
        exact loosens_ok (Shape.vaguer_column (hrows "source"))
      · rename_i hmode _
        rw [hmode]
        exact loosens_ok (.refl _)
      · -- some other mode, or one that is not written down
        simp only
        exact loosens_ok (.refl _)

theorem rowed_ofCall {f : Function} {g : Given} {shape : Shape} (h : s.ofCall f g = .ok shape) : shape.Rowed := by
  cases f with
  | sum | avg | min | max | med =>
    cases h
    exact Shape.rowed_some _ _
  | float =>
    obtain ⟨_, -, h⟩ := bind_eq_ok_iff.1 h
    cases h
    exact Shape.rowed_some _ _
  | execByJudge =>
    rw [ofCall] at h
    split at h
    · cases h
    · split at h
      · cases h
      · cases h
        exact Shape.rowed_column _
  | selectSum =>
    obtain ⟨_, -, h⟩ := bind_eq_ok_iff.1 h
    obtain ⟨_, -, h⟩ := bind_eq_ok_iff.1 h
    cases h
    exact Shape.rowed_some _ _
  | bestN | crash =>
    obtain ⟨_, -, h⟩ := bind_eq_ok_iff.1 h
    cases h
    exact Shape.rowed_column _
  | field =>
    obtain ⟨_, -, h⟩ := bind_eq_ok_iff.1 h
    cases h
    exact Shape.rowed_unknown
  | itemsReduce =>
    cases h
    exact Shape.rowed_column _
  | rowCompute | columnCompute =>
    rw [ofCall] at h
    split at h <;> cases h
    · exact Shape.rowed_some _ _
    · exact Shape.rowed_some _ _
    · exact Shape.rowed_column _
    · exact Shape.rowed_column _
    · exact Shape.rowed_unknown

/-- **What is found of a formula keeps the invariant of the names.**  Signs and sums hand on the shapes of their parts;
every other rule makes a shape of its own. -/
theorem Rowed.infer (hs : s.Rowed) : ∀ {e : Expr} {shape : Shape}, s.infer e = .ok shape → shape.Rowed
  | .literal l, shape, h => by
    rw [Shapes.infer] at h
    cases h
    exact Shape.rowed_some _ _
  | .name n, shape, h => by
    rw [Shapes.infer] at h
    cases h
    cases hn : s.known.get? n with
    | none => exact Shape.rowed_unknown
    | some shape => exact hs n shape hn
  | .unary _ e, shape, h => by
    rw [Shapes.infer] at h
    exact hs.infer h
  | .binary op l r, shape, h => by
    rw [Shapes.infer] at h
    obtain ⟨a, ha, h⟩ := bind_eq_ok_iff.1 h
    obtain ⟨b, hb, h⟩ := bind_eq_ok_iff.1 h
    cases op with
    | add | sub =>
      dsimp only at h
      split at h
      · cases h
        exact Shape.rowed_merge (hs.infer ha) (hs.infer hb)
      · cases h
    | mul | div | mod =>
      dsimp only at h
      split at h
      · cases h
      · cases h
        exact Shape.rowed_some _ _
  | .call f ps ks, shape, h => by
    rw [Shapes.infer] at h
    obtain ⟨positional, -, h⟩ := bind_eq_ok_iff.1 h
    obtain ⟨keywords, -, h⟩ := bind_eq_ok_iff.1 h
    exact rowed_ofCall h
  | .subscript base index, shape, h => by
    rw [Shapes.infer] at h
    obtain ⟨b, -, h⟩ := bind_eq_ok_iff.1 h
    obtain ⟨_, -, h⟩ := bind_eq_ok_iff.1 h
    split at h
    · cases h
      exact Shape.rowed_some _ _
    · split at h <;> cases h <;> exact Shape.rowed_some _ _
  | .list es, shape, h | .tuple es, shape, h => by
    rw [Shapes.infer] at h
    obtain ⟨shapes, -, h⟩ := bind_eq_ok_iff.1 h
    cases h
    exact Shape.rowed_some _ _
  | .dict es, shape, h => by
    rw [Shapes.infer] at h
    obtain ⟨_, -, h⟩ := bind_eq_ok_iff.1 h
    cases h
    exact Shape.rowed_unknown

/-- Where vaguer shapes are all single numbers, the shapes are. -/
theorem all_scalar_of_vaguer {l' l : List Shape} (h : List.Forall₂ Shape.Vaguer l' l)
    (hall : (l'.all fun shape => shape == .scalar) = true) : (l.all fun shape => shape == .scalar) = true := by
  induction h with
  | nil => rfl
  | cons hshape _ ih =>
    rw [List.all_cons, Bool.and_eq_true, beq_iff_eq] at hall ⊢
    exact ⟨hshape.eq_scalar hall.1, ih hall.2⟩

theorem vaguer_row {l' l : List Shape} (h : List.Forall₂ Shape.Vaguer l' l) (length : Nat) :
    Shape.Vaguer ⟨some length, if l'.all (· == .scalar) then some 1 else none⟩
      ⟨some length, if l.all (· == .scalar) then some 1 else none⟩ := by
  refine ⟨.inr rfl, ?_⟩
  by_cases hall : (l'.all fun shape => shape == .scalar) = true
  · exact .inr (by rw [if_pos hall, if_pos (all_scalar_of_vaguer h hall)])
  · exact .inl (if_neg hall)

mutual

/-- **Vaguer shapes of names give a formula a vaguer shape**, and no fault where it had none. -/
theorem infer_vaguer (h : t.Vaguer s) (ht : t.Rowed) : ∀ e : Expr, Loosens Shape.Vaguer (s.infer e) (t.infer e)
  | .literal l => by
    rw [Shapes.infer, Shapes.infer]
    exact loosens_ok (.refl _)
  | .name n => by
    rw [Shapes.infer, Shapes.infer]
    exact loosens_ok (h.known n)
  | .unary _ e => by
    rw [Shapes.infer, Shapes.infer]
    exact infer_vaguer h ht e
  | .binary op l r => by
    rw [Shapes.infer, Shapes.infer]
    refine (infer_vaguer h ht l).bind fun a a' _ _ ha => (infer_vaguer h ht r).bind fun b b' _ _ hb => ?_
    cases op with
    | add | sub =>
      by_cases hfits : a.compatible b = true
      · simp only [hfits, ha.compatible hb hfits, if_true]
        exact loosens_ok (ha.merge hb hfits)
      · simp only [hfits]
        exact fun shape hshape => by cases hshape
    | mul | div | mod =>
      by_cases hscalar : (a.isNotScalar || b.isNotScalar) = true
      · simp only [hscalar, if_true]
        exact fun shape hshape => by cases hshape
      · rw [Bool.not_eq_true, Bool.or_eq_false_iff] at hscalar
        simp only [hscalar.1, hscalar.2, ha.isNotScalar hscalar.1, hb.isNotScalar hscalar.2]
        exact loosens_ok (.refl _)
  | .call f ps ks => by
    rw [Shapes.infer, Shapes.infer]
    refine (inferPositional_vaguer h ht ps f.parameters).bind fun positional positional' _ _ hps => ?_
    refine (inferKeywords_vaguer h ht ks).bind fun keywords keywords' _ _ hks => ?_
    exact h.ofCall f (List.rel_append hps hks)
  | .subscript base index => by
    rw [Shapes.infer, Shapes.infer]
    refine (infer_vaguer h ht base).bind fun b b' _ hb' hb => (infer_vaguer h ht index).bind fun _ _ _ _ _ => ?_
    split
    · exact loosens_ok (.refl _)
    · -- the one rule that needs the invariant, for what is found of the base where less is known
      have hpart := hb.part (ht.infer hb')
      simp only [← apply_ite]
      exact loosens_ok hpart
  | .list es => by
    rw [Shapes.infer, Shapes.infer]
    exact (inferAll_vaguer h ht es).bind fun shapes shapes' _ _ hshapes => loosens_ok (vaguer_row hshapes es.length)
  | .tuple es => by
    rw [Shapes.infer, Shapes.infer]
    exact (inferAll_vaguer h ht es).bind fun shapes shapes' _ _ hshapes => loosens_ok (vaguer_row hshapes es.length)
  | .dict es => by
    rw [Shapes.infer, Shapes.infer]
    exact (inferEntries_vaguer h ht es).bind fun _ _ _ _ _ => loosens_ok (.refl _)

theorem inferAll_vaguer (h : t.Vaguer s) (ht : t.Rowed) :
    ∀ es : List Expr, Loosens (List.Forall₂ Shape.Vaguer) (s.inferAll es) (t.inferAll es)
  | [] => by
    rw [inferAll, inferAll]
    exact loosens_ok .nil
  | e :: es => by
    rw [inferAll, inferAll]
    refine (infer_vaguer h ht e).bind fun shape shape' _ _ hshape => ?_
    exact (inferAll_vaguer h ht es).bind fun shapes shapes' _ _ hshapes => loosens_ok (.cons hshape hshapes)

theorem inferPositional_vaguer (h : t.Vaguer s) (ht : t.Rowed) : ∀ (es : List Expr) (parameters : List String),
    Loosens Given.Vaguer (s.inferPositional parameters es) (t.inferPositional parameters es)
  | [], parameters => by
    rw [inferPositional, inferPositional]
    exact loosens_ok .nil
  | e :: es, [] => by
    rw [inferPositional, inferPositional]
    exact loosens_ok .nil
  | e :: es, p :: parameters => by
    rw [inferPositional, inferPositional]
    refine (infer_vaguer h ht e).bind fun shape shape' _ _ hshape => ?_
    refine (inferPositional_vaguer h ht es parameters).bind fun rest rest' _ _ hrest => ?_
    exact loosens_ok (.cons ⟨rfl, rfl, hshape⟩ hrest)

theorem inferKeywords_vaguer (h : t.Vaguer s) (ht : t.Rowed) :
    ∀ ks : List (String × Expr), Loosens Given.Vaguer (s.inferKeywords ks) (t.inferKeywords ks)
  | [] => by
    rw [inferKeywords, inferKeywords]
    exact loosens_ok .nil
  | (k, e) :: ks => by
    rw [inferKeywords, inferKeywords]
    refine (infer_vaguer h ht e).bind fun shape shape' _ _ hshape => ?_
    refine (inferKeywords_vaguer h ht ks).bind fun rest rest' _ _ hrest => ?_
    exact loosens_ok (.cons ⟨rfl, rfl, hshape⟩ hrest)

theorem inferEntries_vaguer (h : t.Vaguer s) (ht : t.Rowed) :
    ∀ es : List (Expr × Expr), Loosens (fun _ _ => True) (s.inferEntries es) (t.inferEntries es)
  | [] => by
    rw [inferEntries, inferEntries]
    exact loosens_ok trivial
  | (k, e) :: es => by
    rw [inferEntries, inferEntries]
    refine (infer_vaguer h ht k).bind fun _ _ _ _ _ => (infer_vaguer h ht e).bind fun _ _ _ _ _ => ?_
    exact inferEntries_vaguer h ht es

end

/-! ## Dry runs -/

/-- The shapes that can be reached: those of the declarations, and from any shapes that can be reached those with one
more shape stored, either one that was found of a formula or the unknown one. -/
inductive Reached (schema : Schema) (aliases : Table String) : Shapes → Prop
  | start : Reached schema aliases (start schema aliases)
  | found {s t : Shapes} {e : Expr} {shape : Shape} (code : String) : Reached schema aliases s →
      Reached schema aliases t → t.infer e = .ok shape → Reached schema aliases (s.store code shape)
  | unknown {s : Shapes} (code : String) : Reached schema aliases s → Reached schema aliases (s.store code .unknown)

theorem Rowed.store (hs : s.Rowed) (code : String) {shape : Shape} (hshape : shape.Rowed) :
    (s.store code shape).Rowed := by
  intro name known hknown
  rw [known_store] at hknown
  split at hknown
  · cases hknown
    exact hshape
  · exact hs name known hknown

theorem rowed_start (schema : Schema) (aliases : Table String) : (start schema aliases).Rowed := by
  refine forall_of_foldl_short aliases.entries _ (fun _ _ _ h => h) fun name shape hown => ?_
  rw [Table.get?_insert] at hown
  split at hown
  · cases hown
    exact Shape.rowed_some _ _
  · obtain ⟨f, -, he⟩ := List.mem_map.1 (mem_of_get?_ofList hown)
    cases he
    exact Shape.rowed_ofField f

/-- **The invariant of shapes that can be reached.** -/
theorem Reached.rowed {schema : Schema} {aliases : Table String} (h : Reached schema aliases s) : s.Rowed := by
  induction h with
  | start => exact rowed_start schema aliases
  | found code _ _ hinfer hs ht => exact hs.store code (ht.infer hinfer)
  | unknown code _ hs => exact hs.store code Shape.rowed_unknown

/-- A dry run stays within the shapes that can be reached. -/
theorem Reached.dryRun {schema : Schema} {aliases : Table String} : ∀ (nodes : List Node) {s : Shapes},
    Reached schema aliases s → Reached schema aliases (s.dryRun nodes)
  | [], _, h => h
  | node :: nodes, s, h => by
    refine Reached.dryRun nodes ?_
    rw [record]
    cases hinfer : s.infer node.expr with
    | error fault => exact .unknown node.code h
    | ok shape => exact .found node.code h h hinfer

theorem Vaguer.store (h : t.Vaguer s) (code : String) {vague shape : Shape} (hshape : vague.Vaguer shape) :
    (t.store code vague).Vaguer (s.store code shape) := by
  refine ⟨h.schema, h.aliases, fun name => ?_⟩
  rw [known_store, known_store, h.aliases]
  split
  · exact hshape
  · exact h.known name

/-- **A dry run that finds no fault finds none where less is known.** -/
theorem shapeProblems_vaguer {nodes : List Node} : ∀ (order : List Nat) {s t : Shapes}, t.Vaguer s → t.Rowed →
    Lint.shapeProblems s nodes order = [] → Lint.shapeProblems t nodes order = []
  | [], _, _, _, _, _ => rfl
  | i :: order, s, t, h, ht, hs => by
    rw [Lint.shapeProblems] at hs ⊢
    cases hi : nodes[i]? with
    | none =>
      rw [hi] at hs
      exact shapeProblems_vaguer order h ht hs
    | some node =>
      simp only [hi] at hs ⊢
      cases hinfer : s.infer node.expr with
      | error fault =>
        rw [hinfer] at hs
        cases hs
      | ok shape =>
        obtain ⟨vague, hvague, hshape⟩ := infer_vaguer h ht node.expr shape hinfer
        rw [hinfer] at hs
        rw [hvague]
        exact shapeProblems_vaguer order (h.store node.code hshape) (ht.store node.code (ht.infer hvague)) hs

/-! ## Forgetting names -/

/-- The shapes with those of some names unknown. -/
def forget (s : Shapes) (names : String → Bool) : Shapes :=
  { s with known :=
      { entries := s.known.entries.map fun e => (e.1, if names e.1 then .unknown else e.2)
        sorted := List.pairwise_map.2 s.known.sorted } }

theorem known_forget (s : Shapes) (names : String → Bool) (name : String) : (s.forget names).known.get? name =
    (s.known.get? name).map fun shape => if names name then .unknown else shape := by
  show Table.find? name (s.known.entries.map _) = (Table.find? name s.known.entries).map _
  induction s.known.entries with
  | nil => rfl
  | cons e entries ih =>
    rw [List.map_cons, Table.find?, Table.find?]
    by_cases hname : e.1 = name
    · rw [if_pos hname, if_pos hname, hname]
      rfl
    · rw [if_neg hname, if_neg hname, ih]

theorem vaguer_forget (s : Shapes) (names : String → Bool) : (s.forget names).Vaguer s := by
  refine ⟨rfl, rfl, fun name => ?_⟩
  rw [known_forget]
  cases s.known.get? name with
  | none => exact .refl _
  | some shape =>
    cases hname : names name with
    | false => exact .refl _
    | true => exact Shape.vaguer_unknown shape

theorem Rowed.forget (hs : s.Rowed) (names : String → Bool) : (s.forget names).Rowed := by
  intro name shape hshape
  rw [known_forget] at hshape
  obtain ⟨own, hown, rfl⟩ := Option.map_eq_some_iff.1 hshape
  split
  · exact Shape.rowed_unknown
  · exact hs name own hown

/-- **What is not known never causes a fault.**  Where a formula fits with the shapes that were reached, it fits with
those of any names forgotten, and is found to have the same shape up to some dimensions that are not known then. -/
theorem infer_forget {schema : Schema} {aliases : Table String} (h : Reached schema aliases s) (names : String → Bool)
    {e : Expr} {shape : Shape} (hinfer : s.infer e = .ok shape) :
    ∃ vague, (s.forget names).infer e = .ok vague ∧ vague.Vaguer shape :=
  infer_vaguer (vaguer_forget s names) (h.rowed.forget names) e shape hinfer

theorem infer_forget_grid : ∃ (schema : Schema) (s : Shapes) (names : String → Bool) (e : Expr) (shape vague : Shape),
    Reached schema schema.aliases s ∧ s.infer e = .ok shape ∧ (s.forget names).infer e = .ok vague ∧
    vague.Vaguer shape ∧ shape = .column (some 2) ∧ vague = .column none := by
  let schema : Schema := { Schema.ofFormulas [] [("A", some "a", "P")] with
    fields := [.ofGrid "E" 2 3 (some "e"), .ofMarks "P" 2 none] }
  let s : Shapes := (start schema schema.aliases).store "A" (.column (some 2))
  let e : Expr := .call .execByJudge [.name "e", .name "a"] []
  have hstored : ((start schema schema.aliases).infer (.name "P")).toOption = some (.column (some 2)) := by
    decide +kernel
  have hinfer : (s.infer e).toOption = some (.column (some 2)) := by decide +kernel
  have hforgotten : ((s.forget (· == "e")).infer e).toOption = some (.column none) := by decide +kernel
  rw [toOption_eq_some_iff] at hstored hinfer hforgotten
  have hreached : Reached schema schema.aliases s := .found "A" .start .start hstored
  obtain ⟨vague, hvague, hshape⟩ := infer_forget hreached (· == "e") hinfer
  rw [hforgotten] at hvague
  cases hvague
  exact ⟨schema, s, (· == "e"), e, _, _, hreached, hinfer, hforgotten, hshape, rfl, rfl⟩

/-- **The invariant is needed.**  If the rows of a single row could be forgotten while its columns are known, a number
out of that row would pass for a row, and would no longer fit where a number is needed. -/
theorem not_infer_vaguer : ∃ (s t : Shapes) (e : Expr), t.Vaguer s ∧ (s.infer e).isOk = true ∧
    (t.infer e).isOk = false := by
  let row (rows : Option Nat) : Shapes := ⟨Schema.ofFormulas [] [], .empty, Table.empty.insert "E" ⟨rows, some 2⟩⟩
  let e : Expr := .binary .mul (.subscript (.name "E") (.literal (.number 0))) (.literal (.number 2))
  refine ⟨row (some 1), row none, e, ⟨rfl, rfl, fun name => ?_⟩, by decide +kernel, by decide +kernel⟩
  rw [Table.get?_insert, Table.get?_insert]
  split
  · exact ⟨.inl rfl, .inr rfl⟩
  · exact .refl _

end Shapes
end Scoresheet
