import Scoresheet.Call
import Scoresheet.Proofs.Binding
/-!
# What evaluation reads

The value of an expression depends on a scope only through the names and the calls in it.  That is said once, for any
way to compare two answers that sequencing keeps (`evaluate_compare`).  Two comparisons are of use: answers that agree
unless the first one failed (`agreement`), and equal answers that blame nothing but values (`blame`).
-/
namespace Scoresheet

/-! ## Errors about values -/

/-- Whether an error is about the values that met and not about the text of a formula, a name or a binding. -/
def Error.concernsValues : Error → Bool
  | .arithmetic _ | .type _ | .selection _ => true
  | _ => false

/-- An answer whose error, if it is one, is about values. -/
def Clean {α : Type} (r : Result α) : Prop := ∀ e, r = .error e → e.concernsValues = true

theorem clean_ok {α : Type} (a : α) : Clean (.ok a : Result α) := fun _ h => by cases h

theorem clean_error {α : Type} {e : Error} (h : e.concernsValues = true) : Clean (.error e : Result α) := by
  intro e' h'
  cases h'
  exact h

theorem Clean.bind {α β : Type} {r : Result α} {f : α → Result β} (h : Clean r) (hf : ∀ a, r = .ok a → Clean (f a)) :
    Clean (r >>= f) := by
  cases hr : r with
  | error e => exact clean_error (h e hr)
  | ok a => exact hf a hr

theorem Clean.map {α β : Type} {r : Result α} (h : Clean r) (f : α → β) : Clean (r.map f) := by
  cases hr : r with
  | error e => exact clean_error (h e hr)
  | ok a => exact clean_ok (f a)

/-- An answer that is there, or fails at a division or at the kind of a value. -/
def Calculated {α : Type} (r : Result α) : Prop :=
  (∃ a, r = .ok a) ∨ (∃ fault, r = .error (.arithmetic fault)) ∨ ∃ fault, r = .error (.type fault)

theorem calculated_ok {α : Type} (a : α) : Calculated (.ok a : Result α) := .inl ⟨a, rfl⟩

theorem calculated_type {α : Type} (fault : TypeFault) : Calculated (.error (.type fault) : Result α) :=
  .inr (.inr ⟨fault, rfl⟩)

theorem Calculated.clean {α : Type} {r : Result α} (h : Calculated r) : Clean r := by
  rcases h with ⟨a, rfl⟩ | ⟨fault, rfl⟩ | ⟨fault, rfl⟩
  · exact clean_ok a
  · exact clean_error rfl
  · exact clean_error rfl

theorem Calculated.bind {α β : Type} {r : Result α} {f : α → Result β} (h : Calculated r)
    (hf : ∀ a, Calculated (f a)) : Calculated (r >>= f) := by
  rcases h with ⟨a, rfl⟩ | ⟨fault, rfl⟩ | ⟨fault, rfl⟩
  · exact hf a
  · exact .inr (.inl ⟨fault, rfl⟩)
  · exact calculated_type fault

theorem BinaryOp.calculated_onNumbers (op : BinaryOp) (a b : Score) : Calculated (op.onNumbers a b) := by
  cases op with
  | add | sub | mul => exact calculated_ok _
  | div | mod =>
    rw [onNumbers]
    split
    · exact .inr (.inl ⟨_, rfl⟩)
    · exact calculated_ok _

theorem BinaryOp.calculated_apply (op : BinaryOp) (a b : Value) : Calculated (op.apply a b) := by
  unfold apply
  split
  · exact (op.calculated_onNumbers _ _).bind fun n => calculated_ok _
  · split
    · exact calculated_ok _
    · exact calculated_ok _
    · exact calculated_type _

theorem Sign.calculated_apply (sign : Sign) (v : Value) : Calculated (sign.apply v) := by
  rw [apply]
  split
  · exact calculated_type _
  · exact calculated_ok _

theorem Value.clean_subscript (base index : Value) : Clean (base.subscript index) := by
  rw [Value.subscript]
  split
  · exact clean_ok _
  · exact clean_error rfl

theorem Value.clean_dictKey (v : Value) : Clean v.dictKey := by
  cases v with
  | text s => exact clean_ok _
  | number n => exact clean_ok _
  | null | bool b | list xs | map es => exact clean_error rfl

/-! ## Comparing answers -/

/-- A way to compare two answers that sequencing keeps and that lets the same error about values pass. -/
structure Comparison where
  Rel : ∀ {α : Type}, Result α → Result α → Prop
  ok : ∀ {α : Type} (a : α), Rel (.ok a) (.ok a)
  values : ∀ {α : Type} {e : Error}, e.concernsValues = true → Rel (.error e : Result α) (.error e)
  bind : ∀ {α β : Type} {x y : Result α} {f g : α → Result β}, Rel x y → (∀ a, x = .ok a → Rel (f a) (g a)) →
    Rel (x >>= f) (y >>= g)

@[simp] theorem answer_eq {α : Type} (r : Result α) : (answer r : Result α) = r := by cases r <;> rfl

namespace Comparison

variable (C : Comparison) {s s' : Scope Result}

theorem clean {α : Type} {r : Result α} (h : Clean r) : C.Rel r r := by
  cases hr : r with
  | error e => exact C.values (h e hr)
  | ok a => exact C.ok a

/-- The names and the calls among some expressions compare.  A call has to only where its arguments have values. -/
structure Holds (s s' : Scope Result) (parts : List Expr) : Prop where
  name : ∀ n, .name n ∈ parts → C.Rel (evaluate s (.name n)) (evaluate s' (.name n))
  call : ∀ f ps ks vs kvs, .call f ps ks ∈ parts → evaluateAll s ps = .ok vs → evaluateKeywords s ks = .ok kvs →
    C.Rel (s.call f vs kvs) (s'.call f vs kvs)

variable {C}

theorem Holds.mono {parts more : List Expr} (h : C.Holds s s' more) (hsub : parts ⊆ more) : C.Holds s s' parts :=
  ⟨fun n hn => h.name n (hsub hn), fun f ps ks vs kvs hc => h.call f ps ks vs kvs (hsub hc)⟩

theorem Holds.left {l m : List Expr} (h : C.Holds s s' (l ++ m)) : C.Holds s s' l :=
  h.mono (List.subset_append_left l m)

theorem Holds.right {l m : List Expr} (h : C.Holds s s' (l ++ m)) : C.Holds s s' m :=
  h.mono (List.subset_append_right l m)

theorem Holds.tail {e : Expr} {l : List Expr} (h : C.Holds s s' (e :: l)) : C.Holds s s' l :=
  h.mono (List.subset_cons_self e l)

mutual

/-- **The values of an expression in two scopes compare when its names and its calls do.** -/
theorem evaluate_compare : ∀ e : Expr, C.Holds s s' e.subterms → C.Rel (evaluate s e) (evaluate s' e)
  | .literal l, _ => by
    rw [evaluate, evaluate]
    exact C.ok _
  | .name n, h => h.name n (by rw [Expr.subterms]; exact List.mem_singleton_self _)
  | .binary op l r, h => by
    rw [Expr.subterms] at h
    rw [evaluate, evaluate]
    refine C.bind (evaluate_compare l h.tail.left) fun a _ => C.bind (evaluate_compare r h.tail.right) fun b _ => ?_
    rw [answer_eq]
    exact C.clean (op.calculated_apply a b).clean
  | .unary sign e, h => by
    rw [Expr.subterms] at h
    rw [evaluate, evaluate]
    refine C.bind (evaluate_compare e h.tail) fun v _ => ?_
    rw [answer_eq]
    exact C.clean (sign.calculated_apply v).clean
  | .call f ps ks, h => by
    have hcall := fun vs kvs => h.call f ps ks vs kvs (by rw [Expr.subterms]; exact List.mem_cons_self)
    rw [Expr.subterms] at h
    rw [evaluate, evaluate]
    exact C.bind (evaluateAll_compare ps h.tail.left) fun vs hvs =>
      C.bind (evaluateKeywords_compare ks h.tail.right) fun kvs hkvs => hcall vs kvs hvs hkvs
  | .subscript b i, h => by
    rw [Expr.subterms] at h
    rw [evaluate, evaluate]
    refine C.bind (evaluate_compare b h.tail.left) fun base _ => C.bind (evaluate_compare i h.tail.right) fun k _ => ?_
    rw [answer_eq]
    exact C.clean (base.clean_subscript k)
  | .list xs, h => by
    rw [Expr.subterms] at h
    rw [evaluate, evaluate]
    exact C.bind (evaluateAll_compare xs h.tail) fun vs _ => C.ok _
  | .tuple xs, h => by
    rw [Expr.subterms] at h
    rw [evaluate, evaluate]
    exact C.bind (evaluateAll_compare xs h.tail) fun vs _ => C.ok _
  | .dict es, h => by
    rw [Expr.subterms] at h
    rw [evaluate, evaluate]
    exact C.bind (evaluateEntries_compare es [] h.tail) fun entries _ => C.ok _

theorem evaluateAll_compare : ∀ es : List Expr, C.Holds s s' (Expr.subtermsOfAll es) →
    C.Rel (evaluateAll s es) (evaluateAll s' es)
  | [], _ => by
    rw [evaluateAll, evaluateAll]
    exact C.ok _
  | e :: es, h => by
    rw [Expr.subtermsOfAll] at h
    rw [evaluateAll, evaluateAll]
    exact C.bind (evaluate_compare e h.left) fun v _ => C.bind (evaluateAll_compare es h.right) fun vs _ => C.ok _

theorem evaluateKeywords_compare : ∀ ks : List (String × Expr), C.Holds s s' (Expr.subtermsOfKeywords ks) →
    C.Rel (evaluateKeywords s ks) (evaluateKeywords s' ks)
  | [], _ => by
    rw [evaluateKeywords, evaluateKeywords]
    exact C.ok _
  | (k, e) :: ks, h => by
    rw [Expr.subtermsOfKeywords] at h
    rw [evaluateKeywords, evaluateKeywords]
    exact C.bind (evaluate_compare e h.left) fun v _ => C.bind (evaluateKeywords_compare ks h.right) fun vs _ => C.ok _

theorem evaluateEntries_compare : ∀ (es : List (Expr × Expr)) (done : List (String × Value)),
    C.Holds s s' (Expr.subtermsOfEntries es) → C.Rel (evaluateEntries s done es) (evaluateEntries s' done es)
  | [], done, _ => by
    rw [evaluateEntries, evaluateEntries]
    exact C.ok _
  | (k, e) :: es, done, h => by
    rw [Expr.subtermsOfEntries] at h
    rw [evaluateEntries, evaluateEntries]
    refine C.bind (evaluate_compare k h.left.left) fun kv _ => ?_
    rw [answer_eq]
    exact C.bind (C.clean kv.clean_dictKey) fun key _ =>
      C.bind (evaluate_compare e h.left.right) fun v _ => evaluateEntries_compare es _ h.right

end

end Comparison
end Scoresheet
