import Scoresheet.Proofs.History
import Scoresheet.Proofs.Reordering
/-!
# What a formula depends on

The read set of a formula is found before anything is evaluated, and an order of evaluation is made from it.  It is
enough: whatever else two contexts have stored, the formula comes to the same in both, or fails with the same error,
where the names in its read set mean the same (`value_eq_of_reads`).  So an output that it does not read can be stored
before it or after it (`value_storeAll`).  A source that is put together from texts is not in the read set, and there
the one context may know what the other does not (`value_ne_of_joined_source`).
-/
namespace Scoresheet
namespace Context

open Plan (target)

variable {cx cx' : Context} {e : Expr}

/-! ## Outputs that are not read -/

/-- An output changes nothing for a name that is neither its code nor a short name of it. -/
theorem lookup_store {name code : String} (hname : name ≠ code) (htarget : target cx.aliases name ≠ code) (v : Value) :
    (cx.store code v).lookup name = cx.lookup name ∧ (cx.store code v).canonical name = cx.canonical name := by
  have hout : (cx.store code v).outputs.get? name = cx.outputs.get? name := Table.get?_insert_of_ne _ _ hname
  have hshort : cx.aliases.get? name ≠ some code := fun h => htarget (by rw [target, h, Option.getD_some])
  have hput : (cx.store code v).shortcuts.get? name = cx.shortcuts.get? name := by
    rw [shortcuts_store, if_neg hshort]
  constructor
  · rw [lookup, lookup, hout, hput]
    rfl
  · rw [canonical, canonical, Table.contains, Table.contains, hout]
    rfl

theorem lookup_storeAll_of_notMem {name : String} : ∀ (l : List (String × Value)) (cx : Context),
    name ∉ l.map Prod.fst → target cx.aliases name ∉ l.map Prod.fst →
      (cx.storeAll l).lookup name = cx.lookup name ∧ (cx.storeAll l).canonical name = cx.canonical name
  | [], cx, _, _ => ⟨rfl, rfl⟩
  | (code, v) :: l, cx, hname, htarget => by
    rw [List.map_cons, List.mem_cons, not_or] at hname htarget
    obtain ⟨hlookup, hcanonical⟩ := lookup_storeAll_of_notMem l (cx.store code v) hname.2 htarget.2
    obtain ⟨hlookup', hcanonical'⟩ := lookup_store hname.1 htarget.1 v
    exact ⟨hlookup.trans hlookup', hcanonical.trans hcanonical'⟩

/-- **Outputs that an expression does not read change nothing for it.** -/
theorem value_storeAll (hsource : cx.NamesSources e) {l : List (String × Value)}
    (hreads : ∀ name ∈ e.reads, name ∉ l.map Prod.fst ∧ target cx.aliases name ∉ l.map Prod.fst) :
    (cx.storeAll l).value e = cx.value e := by
  have hsame : ∀ name ∈ e.reads, _ := fun name hname =>
    lookup_storeAll_of_notMem l cx (hreads name hname).1 (hreads name hname).2
  refine (value_eq_of_names ?_ ?_ hsource (fun name hname => ?_) fun code hcode _ => ?_).symm
  · rw [storeAll_schema]
  · rw [storeAll_inputs]
  · exact (hsame name (Expr.name_mem_reads hname)).1.symm
  · exact ⟨(hsame code hcode).1.symm, (hsame code hcode).2.symm⟩

/-! ## The read set -/

/-- **The read set is complete.**  Two contexts over the same schema and inputs that agree on what the names in the read
set of an expression mean, and on the codes that they refer to, bring it to the same value or to the same error, and so
do the sessions of two faithful libraries. -/
theorem value_eq_of_reads (hschema : cx.schema = cx'.schema) (hinputs : cx.inputs = cx'.inputs)
    (hsource : cx.NamesSources e)
    (hreads : ∀ name ∈ e.reads, cx.lookup name = cx'.lookup name ∧ cx.canonical name = cx'.canonical name) :
    cx.value e = cx'.value e ∧ ∀ lib lib' : Library, lib.Faithful → lib'.Faithful →
      ((evaluate (cx.scope Session.compile) e).run.run lib).1 =
        ((evaluate (cx'.scope Session.compile) e).run.run lib').1 := by
  have hvalue : cx.value e = cx'.value e := by
    refine value_eq_of_names (by rw [hschema]) hinputs hsource (fun name hname => ?_) fun code hcode _ => ?_
    · exact (hreads name (Expr.name_mem_reads hname)).1
    · exact hreads code hcode
  refine ⟨hvalue, fun lib lib' hlib hlib' => ?_⟩
  rw [(Session.follows_value cx e lib hlib).1, (Session.follows_value cx' e lib' hlib').1]
  exact hvalue

/-- Some outputs of a schema with one short name. -/
def stored (l : List (String × Value)) : Context :=
  let s := Schema.ofFormulas [] [("M", none, "[[1, 2], [3]]"), ("A", some "a", "4"), ("B", none, "5")]
  (start s .empty s.aliases).storeAll l

theorem value_eq_of_reads_stored : ∃ (cx cx' : Context) (e : Expr), cx.schema = cx'.schema ∧ cx.inputs = cx'.inputs ∧
    cx.NamesSources e ∧
    (∀ name ∈ e.reads, cx.lookup name = cx'.lookup name ∧ cx.canonical name = cx'.canonical name) ∧
    cx.lookup "B" ≠ cx'.lookup "B" ∧ (cx.value e).isOk = true ∧ cx.value e = cx'.value e ∧
    ∀ lib lib' : Library, lib.Faithful → lib'.Faithful →
      ((evaluate (cx.scope Session.compile) e).run.run lib).1 =
        ((evaluate (cx'.scope Session.compile) e).run.run lib').1 := by
  let cx := stored [("M", .list [.list [.number 1, .number 2], .list [.number 3]]), ("A", .number 4)]
  let cx' := cx.storeAll [("B", .number 5)]
  have hfacts : (Dialect.formula.compile "sum(row_custom_compute('M', item_expr='x * 2')) + a").toOption.map
      (fun e => (e.hasLiteralSources, e.reads, (cx.value e).isOk)) = some (true, ["M", "a"], true) := by decide +kernel
  obtain ⟨e, -, hfacts⟩ := Option.map_eq_some_iff.1 hfacts
  simp only [Prod.mk.injEq] at hfacts
  obtain ⟨hliteral, hreads, hok⟩ := hfacts
  have hsource := (fixesSources_of_literal hliteral cx).namesSources
  have hsame : ∀ name ∈ e.reads, cx.lookup name = cx'.lookup name ∧ cx.canonical name = cx'.canonical name := by
    intro name hname
    have hunread : name ∉ ["B"] ∧ target cx.aliases name ∉ ["B"] := by
      revert name
      rw [hreads]
      decide +kernel
    have hstored := lookup_storeAll_of_notMem [("B", .number 5)] cx hunread.1 hunread.2
    exact ⟨hstored.1.symm, hstored.2.symm⟩
  have hother : (cx.lookup "B").isSome ≠ (cx'.lookup "B").isSome := by decide +kernel
  refine ⟨cx, cx', e, rfl, rfl, hsource, hsame, fun h => hother (by rw [h]), hok, ?_⟩
  exact value_eq_of_reads rfl rfl hsource hsame

/-- **A source that is joined from texts is not in the read set**, and what is stored under it is found all the same. -/
theorem value_ne_of_joined_source : ∃ (cx cx' : Context) (e : Expr), cx.schema = cx'.schema ∧
    cx.inputs = cx'.inputs ∧ e.reads = [] ∧ cx.value e ≠ cx'.value e := by
  let cx' := stored [("M", .list [.list [.number 1]])]
  have hfacts : (Dialect.formula.compile "row_custom_compute('' + 'M')").toOption.map
      (fun e => (e.reads, ((stored []).value e).isOk, (cx'.value e).isOk)) = some ([], false, true) := by decide +kernel
  obtain ⟨e, -, hfacts⟩ := Option.map_eq_some_iff.1 hfacts
  simp only [Prod.mk.injEq] at hfacts
  obtain ⟨hreads, hfail, hok⟩ := hfacts
  refine ⟨stored [], cx', e, rfl, rfl, hreads, fun h => ?_⟩
  rw [h, hok] at hfail
  cases hfail

end Context
end Scoresheet
