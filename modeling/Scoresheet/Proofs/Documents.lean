import Scoresheet.Proofs.Accepting
import Scoresheet.Proofs.Reordering
import Scoresheet.Proofs.Whole
import Scoresheet.Schema.Reading
import Scoresheet.Schema.Writing

/-!
# Reading schemas and reading them back

Whether a value is read as a schema depends on its outline alone, never on what stands inside (`exists_ofValue_iff`).
Null parameters are refused, although null fields and null computed entries are not.

A schema that was read is written as a document that reads as the same schema (`ofValue_document`).  Reading brings
every setting into a form that writing keeps (`Field.Lasting`): decimals below `2 ^ 32`, finite numbers, and no known
key among the extra ones.
-/
namespace Scoresheet

open Table (find?)

/-! ## The outline -/

namespace Value

/-- Nothing, null or a list. -/
def IsListOrNull : Option Value → Prop
  | none | some .null | some (.list _) => True
  | some _ => False

/-- Nothing, null or an object. -/
def IsObjectOrNull : Option Value → Prop
  | none | some .null | some (.map _) => True
  | some _ => False

/-- An object whose fields and computed entries are lists or null, and whose parameters are an object or null. -/
def HasOutline (v : Value) : Prop :=
  ∃ es, v = .map es ∧ IsListOrNull (find? "fields" es) ∧ IsListOrNull (find? "computed" es) ∧
    IsObjectOrNull (find? "params" es)

/-- An object that says null for its parameters. -/
def HasNullParams (v : Value) : Prop := ∃ es, v = .map es ∧ find? "params" es = some .null

end Value

namespace Schema

open Value (IsListOrNull IsObjectOrNull)

theorem exists_listUnder_iff {es : List (String × Value)} {key : String} :
    (∃ xs, Reading.listUnder es key = .ok xs) ↔ IsListOrNull (find? key es) := by
  unfold Reading.listUnder
  constructor
  · rintro ⟨xs, h⟩
    split at h <;> simp_all [IsListOrNull]
  · intro h
    split <;> simp_all [IsListOrNull]

theorem exists_params_iff {es : List (String × Value)} :
    (∃ t, Reading.params es = .ok t) ↔ IsObjectOrNull (find? "params" es) ∧ find? "params" es ≠ some .null := by
  unfold Reading.params
  constructor
  · rintro ⟨t, h⟩
    split at h <;> simp_all [IsObjectOrNull]
  · rintro ⟨h, hnull⟩
    split <;> simp_all [IsObjectOrNull]

theorem ofValue_map_eq_ok_iff {es : List (String × Value)} {s : Schema} :
    ofValue (.map es) = .ok s ↔ ∃ fields, Reading.listUnder es "fields" = .ok fields ∧
      ∃ computed, Reading.listUnder es "computed" = .ok computed ∧ ∃ params, Reading.params es = .ok params ∧
        s = {
          params
          fields := (fields.filterMap Value.entries?).map Reading.field
          computed := (computed.filterMap Value.entries?).map Reading.computed
          ui := (find? "ui" es).filter fun u => !u.isNull } := by
  simp only [ofValue, bind_eq_ok_iff]
  refine exists_congr fun _ => and_congr_right fun _ => exists_congr fun _ => and_congr_right fun _ =>
    exists_congr fun _ => and_congr_right fun _ => ⟨fun h => ?_, fun h => ?_⟩
  · cases h
    rfl
  · rw [h]
    rfl

/-- A value is a schema if its outline is right and its parameters are not null, whatever stands inside; any other
value is refused with a schema error. -/
theorem exists_ofValue_iff (v : Value) :
    ((∃ s, ofValue v = .ok s) ↔ v.HasOutline ∧ ¬v.HasNullParams) ∧
      ((∃ fault, (ofValue v).mapError Error.schema = .error (.schema fault)) ↔
        ¬(v.HasOutline ∧ ¬v.HasNullParams)) := by
  have hiff : (∃ s, ofValue v = .ok s) ↔ v.HasOutline ∧ ¬v.HasNullParams := by
    cases v with
    | map es =>
      have hread : (∃ s, ofValue (.map es) = .ok s) ↔ (∃ xs, Reading.listUnder es "fields" = .ok xs) ∧
          (∃ xs, Reading.listUnder es "computed" = .ok xs) ∧ ∃ t, Reading.params es = .ok t := by
        simp only [ofValue_map_eq_ok_iff]
        constructor
        · rintro ⟨s, fields, hf, computed, hc, params, hp, -⟩
          exact ⟨⟨_, hf⟩, ⟨_, hc⟩, _, hp⟩
        · rintro ⟨⟨_, hf⟩, ⟨_, hc⟩, _, hp⟩
          exact ⟨_, _, hf, _, hc, _, hp, rfl⟩
      rw [hread, exists_listUnder_iff, exists_listUnder_iff, exists_params_iff]
      simp only [Value.HasOutline, Value.HasNullParams, Value.map.injEq, exists_eq_left']
      tauto
    | _ => simp [ofValue, Value.HasOutline]
  refine ⟨hiff, ?_⟩
  rw [← hiff]
  constructor
  · rintro ⟨fault, h⟩ ⟨s, hs⟩
    rw [hs] at h
    cases h
  · intro hnone
    cases h : ofValue v with
    | ok s => exact absurd ⟨s, h⟩ hnone
    | error fault => exact ⟨fault, rfl⟩

theorem not_exists_ofValue_of_hasOutline :
    (Value.map [("params", .null)]).HasOutline ∧ ¬∃ s, ofValue (.map [("params", .null)]) = .ok s := by
  refine ⟨⟨_, rfl, trivial, trivial, trivial⟩, ?_⟩
  rintro ⟨s, h⟩
  cases h

end Schema

/-! ## Values as documents have them -/

namespace Value

mutual

/-- A value that a document can hold: its numbers are finite, and its maps have their keys in increasing order. -/
def IsJson : Value → Prop
  | .number n => n.isFinite = true
  | .list xs => AreJson xs
  | .map es => es.Pairwise (fun a b => a.1 < b.1) ∧ EntriesAreJson es
  | _ => True

def AreJson : List Value → Prop
  | [] => True
  | v :: vs => IsJson v ∧ AreJson vs

def EntriesAreJson : List (String × Value) → Prop
  | [] => True
  | (_, v) :: es => IsJson v ∧ EntriesAreJson es

end

theorem areJson_iff : ∀ {vs : List Value}, AreJson vs ↔ ∀ v ∈ vs, v.IsJson
  | [] => by simp [AreJson]
  | v :: vs => by simp [AreJson, areJson_iff]

theorem entriesAreJson_iff : ∀ {es : List (String × Value)}, EntriesAreJson es ↔ ∀ e ∈ es, e.2.IsJson
  | [] => by simp [EntriesAreJson]
  | (k, v) :: es => by simp [EntriesAreJson, entriesAreJson_iff]

theorem EntriesAreJson.find? {k : String} {v : Value} {es : List (String × Value)} (h : EntriesAreJson es)
    (hv : Table.find? k es = some v) : v.IsJson := by
  induction es with
  | nil => cases hv
  | cons e es ih =>
    unfold Table.find? at hv
    split at hv
    · cases hv
      exact h.1
    · exact ih h.2 hv

end Value

open Value (EntriesAreJson)

namespace Document

mutual

theorem toValue_ofValue : ∀ {v : Value}, v.IsJson → (ofValue v).toValue = v
  | .null, _ => rfl
  | .bool _, _ => rfl
  | .number n, h => by
    have hfinite : n.isFinite = true := h
    rw [ofValue, ofScore, if_pos hfinite, toValue]
  | .text _, _ => rfl
  | .list xs, h => by rw [ofValue, toValue, toValues_ofValues h]
  | .map es, h => by rw [ofValue, toValue, toEntries_ofEntries h.1 h.2]

theorem toValues_ofValues : ∀ {vs : List Value}, Value.AreJson vs → toValues (ofValues vs) = vs
  | [], _ => rfl
  | v :: vs, h => by rw [ofValues, toValues, toValue_ofValue h.1, toValues_ofValues h.2]

theorem toEntries_ofEntries : ∀ {es : List (String × Value)},
    es.Pairwise (fun a b => a.1 < b.1) → EntriesAreJson es → toEntries (ofEntries es) = es
  | [], _, _ => rfl
  | (k, v) :: es, hsorted, h => by
    obtain ⟨hfirst, hrest⟩ := List.pairwise_cons.1 hsorted
    have hnone : find? k es = none := Table.find?_eq_none_of_lt hfirst
    have hput : Table.put k v es = (k, v) :: es := by
      cases es with
      | nil => rfl
      | cons e es => rw [Table.put, if_pos (hfirst e List.mem_cons_self)]
    rw [ofEntries, toEntries, toEntries_ofEntries hrest h.2, hnone, toValue_ofValue h.1]
    simpa using hput

end

/-! ## Looking up entries of a document -/

theorem find?_toEntries_cons (k k' : String) (d : Document) (ds : List (String × Document)) :
    find? k (toEntries ((k', d) :: ds)) =
      (find? k (toEntries ds)).or (if k' = k then some d.toValue else none) := by
  rw [toEntries]
  by_cases hk : k' = k
  · subst hk
    cases h : find? k' (toEntries ds) with
    | some v => simp [h]
    | none => simp
  · have hput := Table.find?_put_of_ne d.toValue (Ne.symm hk) (toEntries ds)
    rw [if_neg hk, Option.or_none]
    split
    · rfl
    · exact hput

theorem find?_toEntries_append (k : String) (ds es : List (String × Document)) :
    find? k (toEntries (ds ++ es)) = (find? k (toEntries es)).or (find? k (toEntries ds)) := by
  induction ds with
  | nil => simp [toEntries, find?]
  | cons d ds ih => rw [List.cons_append, find?_toEntries_cons, find?_toEntries_cons, ih, Option.or_assoc]

theorem sorted_toEntries : ∀ ds : List (String × Document), (toEntries ds).Pairwise fun a b => a.1 < b.1
  | [] => .nil
  | (k, d) :: ds => by
    rw [toEntries]
    split
    · exact sorted_toEntries ds
    · exact Table.sorted_put _ _ (sorted_toEntries ds)

variable {k : String} {o : Option Document} {l : List (String × Option Document)}

theorem find?_toEntries_ofOptional_of_notMem (hk : k ∉ l.map (·.1)) :
    find? k (toEntries (ofOptional l)) = none := by
  induction l with
  | nil => rfl
  | cons e l ih =>
    obtain ⟨k', o'⟩ := e
    simp only [List.map_cons, List.mem_cons, not_or] at hk
    cases o' with
    | none => exact ih hk.2
    | some d =>
      rw [show ofOptional ((k', some d) :: l) = (k', d) :: ofOptional l from rfl, find?_toEntries_cons, ih hk.2,
        if_neg (Ne.symm hk.1)]
      rfl

theorem find?_toEntries_ofOptional (hnodup : (l.map (·.1)).Nodup) (hmem : (k, o) ∈ l) :
    find? k (toEntries (ofOptional l)) = o.map toValue := by
  induction l with
  | nil => cases hmem
  | cons e l ih =>
    obtain ⟨k', o'⟩ := e
    obtain ⟨hnot, hrest⟩ := List.nodup_cons.1 hnodup
    rcases List.mem_cons.1 hmem with heq | hlater
    · cases heq
      have hnone := find?_toEntries_ofOptional_of_notMem hnot
      cases o with
      | none => exact hnone
      | some d =>
        rw [show ofOptional ((k, some d) :: l) = (k, d) :: ofOptional l from rfl, find?_toEntries_cons, hnone,
          if_pos rfl]
        rfl
    · have hne : k' ≠ k := fun h => hnot (List.mem_map.2 ⟨_, hlater, h.symm⟩)
      cases o' with
      | none => exact ih hrest hlater
      | some d =>
        rw [show ofOptional ((k', some d) :: l) = (k', d) :: ofOptional l from rfl, find?_toEntries_cons,
          ih hrest hlater, if_neg hne, Option.or_none]

end Document

/-! ## Tables read back -/

namespace Table

variable {α : Type}

theorem find?_filter (p : String → Bool) (k : String) (l : List (String × α)) :
    find? k (l.filter fun e => p e.1) = if p k then find? k l else none := by
  induction l with
  | nil => simp [find?]
  | cons e l ih =>
    by_cases hk : e.1 = k
    · subst hk
      by_cases hp : p e.1 = true
      · simp [hp, find?]
      · simp [hp, ih]
    · by_cases hp : p e.1 = true
      · simp [hp, find?, hk, ih]
      · simp [hp, find?, hk, ih]

end Table

namespace Reading

theorem get?_others {known : List String} {es : List (String × Value)} (h : es.Pairwise fun a b => a.1 < b.1)
    (k : String) : (others known es).get? k = if known.contains k then none else find? k es := by
  have hfilter := Table.find?_filter (fun k => !known.contains k) k es
  rw [others, Table.ofList_eq (h.filter _), Table.get?, hfilter]
  cases known.contains k <;> rfl

end Reading

/-! ## Settings that last -/

/-- Entries under other keys than the known ones, written as they are. -/
structure AreOthers (known : List String) (t : Table Value) : Prop where
  apart : ∀ k ∈ known, t.get? k = none
  json : EntriesAreJson t.entries

/-- A count without a number, or with a finite one. -/
def Count.IsLasting (c : Count) : Prop := ∀ x ∈ c.number, x.isFinite = true

/-- A field that is written without loss. -/
structure Field.IsLasting (f : Field) : Prop where
  decimals : ∀ n ∈ f.decimals, (n : Int) ≤ maxDecimals
  lower : ∀ x ∈ f.lower, x.isFinite = true
  upper : ∀ x ∈ f.upper, x.isFinite = true
  judges : ∀ c ∈ f.judges, c.IsLasting
  items : ∀ c ∈ f.items, c.IsLasting
  extra : AreOthers Reading.fieldKeys f.extra

namespace Reading

/-! ### Written settings read back -/

section

variable {k : String} {known : List String} {l : List (String × Option Document)} {t : Table Value}

theorem find?_written (ht : AreOthers known t) (k : String) :
    find? k (Document.toEntries (Document.ofOptional l ++ Document.ofEntries t.entries)) =
      (t.get? k).or (find? k (Document.toEntries (Document.ofOptional l))) := by
  rw [Document.find?_toEntries_append, Document.toEntries_ofEntries t.sorted ht.json, Table.get?]

theorem others_written (ht : AreOthers known t) (hl : l.map (·.1) = known) :
    others known (Document.toEntries (Document.ofOptional l ++ Document.ofEntries t.entries)) = t := by
  refine Table.ext fun k => ?_
  rw [get?_others (Document.sorted_toEntries _), find?_written ht]
  by_cases hk : k ∈ known
  · rw [if_pos (by simpa using hk), ht.apart k hk]
  · rw [if_neg (by simpa using hk), Document.find?_toEntries_ofOptional_of_notMem (by rwa [hl]), Option.or_none]

/-- What stands at place `i` is read back under its key. -/
theorem under_written {α : Type} (r : Value → α) {o : Option Document} (ht : AreOthers known t)
    (hl : l.map (·.1) = known) (hnodup : known.Nodup) (i : Nat) (hi : l[i]? = some (k, o)) :
    under r (Document.toEntries (Document.ofOptional l ++ Document.ofEntries t.entries)) k =
      r ((o.map Document.toValue).getD .null) := by
  have hmem : (k, o) ∈ l := List.mem_of_getElem? hi
  have hk : k ∈ known := by
    rw [← hl]
    exact List.mem_map_of_mem hmem
  rw [under, find?_written ht, ht.apart k hk, Option.none_or,
    Document.find?_toEntries_ofOptional (by rw [hl]; exact hnodup) hmem]

end

theorem text?_written (o : Option String) :
    (((o.map Document.text).map Document.toValue).getD .null).text? = o := by
  cases o <;> rfl

theorem numeral?_written {o : Option Score} (h : ∀ x ∈ o, x.isFinite = true) :
    (((o.map Document.ofScore).map Document.toValue).getD .null).numeral? = o := by
  cases o with
  | none => rfl
  | some x =>
    have hfinite : x.isFinite = true := h x rfl
    simp only [Option.map_some, Document.ofScore, if_pos hfinite]
    rfl

theorem decimals?_written {o : Option Nat} (h : ∀ n ∈ o, (n : Int) ≤ maxDecimals) :
    decimals? (((o.map Document.whole).map Document.toValue).getD .null) = o := by
  cases o with
  | none => rfl
  | some n =>
    have hle : (n : Int) ≤ 4294967295 := h n rfl
    have hread : (Score.ofNat n).toInt = n := Score.toInt_ofNat (by omega)
    have hmin : (min (n : Int) maxDecimals).toNat = n := by
      rw [Int.min_eq_left (h n rfl), Int.toNat_natCast]
    simp only [Option.map_some, Option.getD_some, Document.toValue, decimals?, Value.numeral?, hread, hmin]

theorem count?_written {o : Option Count} (h : ∀ c ∈ o, c.IsLasting) :
    count? (((o.map Count.document).map Document.toValue).getD .null) = o := by
  cases o with
  | none => rfl
  | some c =>
    have hnumber := numeral?_written (h c rfl)
    have hfind : find? "count" (Document.toEntries (Document.ofOptional [("count", c.number.map Document.ofScore)])) =
        (c.number.map Document.ofScore).map Document.toValue :=
      Document.find?_toEntries_ofOptional (by simp) List.mem_cons_self
    show some (Count.mk (under Value.numeral? _ "count")) = some c
    rw [under, hfind, hnumber]

theorem crash?_written (o : Option Bool) :
    crash? (((o.map fun enabled => Document.object [("enabled", .bool enabled)]).map Document.toValue).getD .null) =
      o := by
  cases o with
  | none => rfl
  | some b => cases b <;> rfl

theorem nodup_fieldKeys : fieldKeys.Nodup := by decide

theorem nodup_computedKeys : computedKeys.Nodup := by decide

/-- A field that lasts is read back. -/
theorem field_document {f : Field} (hf : f.IsLasting) : f.document.toValue.entries?.map field = some f := by
  obtain ⟨code, label, kind, shape, decimals, lower, upper, judges, items, crash, var, extra⟩ := f
  have hread {α : Type} (r : Value → α) {k : String} {o : Option Document} :=
    under_written (k := k) (o := o) (l := [
      ("code", some (.text code)), ("label", label.map .text), ("type", kind.map .text), ("shape", shape.map .text),
      ("decimals", decimals.map .whole), ("min", lower.map Document.ofScore), ("max", upper.map Document.ofScore),
      ("judges", judges.map Count.document), ("items", items.map Count.document),
      ("crash", crash.map fun enabled => .object [("enabled", .bool enabled)]), ("var", var.map .text)])
      r hf.extra rfl nodup_fieldKeys
  show some (field (Document.toEntries _)) = _
  simp only [field, Option.some.injEq, Field.mk.injEq]
  refine ⟨?_, ?_, ?_, ?_, ?_, ?_, ?_, ?_, ?_, ?_, ?_, others_written hf.extra rfl⟩
  · rw [hread _ 0 rfl]
    rfl
  · rw [hread _ 1 rfl, text?_written]
  · rw [hread _ 2 rfl, text?_written]
  · rw [hread _ 3 rfl, text?_written]
  · rw [hread _ 4 rfl, decimals?_written hf.decimals]
  · rw [hread _ 5 rfl, numeral?_written hf.lower]
  · rw [hread _ 6 rfl, numeral?_written hf.upper]
  · rw [hread _ 7 rfl, count?_written hf.judges]
  · rw [hread _ 8 rfl, count?_written hf.items]
  · rw [hread _ 9 rfl, crash?_written]
  · rw [hread _ 10 rfl, text?_written]

theorem computed_document {c : Computed} (hc : AreOthers computedKeys c.extra) :
    c.document.toValue.entries?.map computed = some c := by
  obtain ⟨code, label, formula, var, extra⟩ := c
  have hread {α : Type} (r : Value → α) {k : String} {o : Option Document} :=
    under_written (k := k) (o := o) (l := [
      ("code", some (.text code)), ("label", label.map .text), ("formula", formula.map .text), ("var", var.map .text)])
      r hc rfl nodup_computedKeys
  show some (computed (Document.toEntries _)) = _
  simp only [computed, Option.some.injEq, Computed.mk.injEq]
  refine ⟨?_, ?_, ?_, ?_, others_written hc rfl⟩
  · rw [hread _ 0 rfl]
    rfl
  · rw [hread _ 1 rfl, text?_written]
  · rw [hread _ 2 rfl, text?_written]
  · rw [hread _ 3 rfl, text?_written]

end Reading

/-! ## What is read lasts -/

/-- No text that denotes an infinity or a NaN. -/
def Value.IsFiniteText (v : Value) : Prop := ∀ s x, v = .text s → textScore? s = some x → x.isFinite = true

/-- Bounds and counts of a field that are no texts of infinities or NaNs. -/
structure FiniteTexts (es : List (String × Value)) : Prop where
  lower : ∀ v, find? "min" es = some v → v.IsFiniteText
  upper : ∀ v, find? "max" es = some v → v.IsFiniteText
  judges : ∀ cs v, find? "judges" es = some (.map cs) → find? "count" cs = some v → v.IsFiniteText
  items : ∀ cs v, find? "items" es = some (.map cs) → find? "count" cs = some v → v.IsFiniteText

/-- No field has a bound or a count that is the text of an infinity or a NaN. -/
def Value.HasFiniteTexts (v : Value) : Prop :=
  ∀ es fields e, v = .map es → find? "fields" es = some (.list fields) → .map e ∈ fields → FiniteTexts e

namespace Reading

variable {es : List (String × Value)} {v : Value} {k : String}

theorem exists_of_under {α : Type} {r : Value → Option α} {a : α} (hnull : r .null = none)
    (h : under r es k = some a) : ∃ v, find? k es = some v ∧ r v = some a := by
  rw [under] at h
  cases hfind : find? k es with
  | none =>
    rw [hfind, Option.getD_none, hnull] at h
    cases h
  | some v =>
    rw [hfind] at h
    exact ⟨v, rfl, h⟩

theorem isFinite_of_numeral? {x : Score} (hv : v.IsJson) (htext : v.IsFiniteText) (h : v.numeral? = some x) :
    x.isFinite = true := by
  cases v with
  | number n =>
    cases h
    exact hv
  | bool b =>
    cases h
    cases b <;> rfl
  | text s => exact htext s x rfl h
  | _ => cases h

theorem isFinite_under (hes : EntriesAreJson es) (htext : ∀ v, find? k es = some v → v.IsFiniteText) :
    ∀ x ∈ under Value.numeral? es k, x.isFinite = true := by
  intro x hx
  obtain ⟨v, hv, hx⟩ := exists_of_under rfl hx
  exact isFinite_of_numeral? (hes.find? hv) (htext v hv) hx

theorem isLasting_under (hes : EntriesAreJson es)
    (htext : ∀ cs v, find? k es = some (.map cs) → find? "count" cs = some v → v.IsFiniteText) :
    ∀ c ∈ under count? es k, c.IsLasting := by
  intro c hc
  obtain ⟨v, hv, hc⟩ := exists_of_under rfl hc
  obtain ⟨cs, hcs, rfl⟩ := Option.map_eq_some_iff.1 hc
  cases v with
  | map cs' =>
    cases hcs
    exact isFinite_under (hes.find? hv).2 fun w hw => htext _ _ hv hw
  | _ => cases hcs

theorem le_maxDecimals_of_under : ∀ n ∈ under decimals? es k, (n : Int) ≤ maxDecimals := by
  intro n hn
  obtain ⟨v, -, hn⟩ := exists_of_under rfl hn
  obtain ⟨x, -, rfl⟩ := Option.map_eq_some_iff.1 hn
  have hpos : 0 ≤ maxDecimals := by decide
  omega

theorem areOthers_others {known : List String} (hsorted : es.Pairwise fun a b => a.1 < b.1)
    (hes : EntriesAreJson es) : AreOthers known (others known es) where
  apart k hk := by rw [get?_others hsorted, if_pos (by simpa using hk)]
  json := by
    rw [others, Table.ofList_eq (hsorted.filter _), Value.entriesAreJson_iff]
    intro e he
    exact Value.entriesAreJson_iff.1 hes e (List.mem_filter.1 he).1

theorem isLasting_field (hes : (Value.map es).IsJson) (htext : FiniteTexts es) : (field es).IsLasting where
  decimals := le_maxDecimals_of_under
  lower := isFinite_under hes.2 htext.lower
  upper := isFinite_under hes.2 htext.upper
  judges := isLasting_under hes.2 htext.judges
  items := isLasting_under hes.2 htext.items
  extra := areOthers_others hes.1 hes.2

end Reading

/-! ## Schemas read back -/

namespace Schema

variable {v : Value} {s : Schema}

/-- A schema that is written without loss. -/
structure IsLasting (s : Schema) : Prop where
  params : EntriesAreJson s.params.entries
  fields : ∀ f ∈ s.fields, f.IsLasting
  computed : ∀ c ∈ s.computed, AreOthers Reading.computedKeys c.extra
  ui : ∀ u ∈ s.ui, u.IsJson ∧ u.isNull = false

theorem find?_of_listUnder {es : List (String × Value)} {key : String} {xs : List Value} {x : Value}
    (h : Reading.listUnder es key = .ok xs) (hx : x ∈ xs) : find? key es = some (.list xs) := by
  unfold Reading.listUnder at h
  split at h
  · cases h
    cases hx
  · cases h
    cases hx
  · cases h
    assumption
  · cases h

theorem json_of_params {es : List (String × Value)} {t : Table Value} (hes : EntriesAreJson es)
    (h : Reading.params es = .ok t) : EntriesAreJson t.entries := by
  unfold Reading.params at h
  split at h
  · cases h
    exact trivial
  · cases h
  · rename_i ps hps
    cases h
    obtain ⟨hsorted, hjson⟩ := hes.find? hps
    rw [Table.ofList_eq hsorted]
    exact hjson
  · cases h

theorem isLasting_of_ofValue (hv : v.IsJson) (htext : v.HasFiniteTexts) (hs : ofValue v = .ok s) : s.IsLasting := by
  cases v with
  | map es =>
    obtain ⟨fields, hf, computed, hc, params, hp, rfl⟩ := ofValue_map_eq_ok_iff.1 hs
    have hread {key : String} {xs : List Value} {e : List (String × Value)} (hxs : Reading.listUnder es key = .ok xs)
        (he : e ∈ xs.filterMap Value.entries?) : Value.map e ∈ xs ∧ (Value.map e).IsJson := by
      obtain ⟨x, hx, hxe⟩ := List.mem_filterMap.1 he
      cases x with
      | map e' =>
        cases hxe
        have hlist : Value.AreJson xs := hv.2.find? (find?_of_listUnder hxs hx)
        exact ⟨hx, Value.areJson_iff.1 hlist _ hx⟩
      | _ => cases hxe
    refine ⟨json_of_params hv.2 hp, fun f hmem => ?_, fun c hmem => ?_, fun u hu => ?_⟩
    · obtain ⟨e, he, rfl⟩ := List.mem_map.1 hmem
      obtain ⟨hx, hjson⟩ := hread hf he
      exact Reading.isLasting_field hjson (htext _ _ e rfl (find?_of_listUnder hf hx) hx)
    · obtain ⟨e, he, rfl⟩ := List.mem_map.1 hmem
      obtain ⟨hsorted, hjson⟩ := (hread hc he).2
      exact Reading.areOthers_others hsorted hjson
    · obtain ⟨hui, hnull⟩ := Option.mem_filter_iff.1 hu
      exact ⟨hv.2.find? hui, by simpa using hnull⟩
  | _ => cases hs

/-- Entries that are read back one by one are read back together. -/
theorem map_filterMap_toValues {α : Type} {r : List (String × Value) → α} {write : α → Document} {l : List α}
    (h : ∀ a ∈ l, (write a).toValue.entries?.map r = some a) :
    ((Document.toValues (l.map write)).filterMap Value.entries?).map r = l := by
  induction l with
  | nil => rfl
  | cons a l ih =>
    obtain ⟨es, hes, hr⟩ := Option.map_eq_some_iff.1 (h a List.mem_cons_self)
    rw [List.map_cons, Document.toValues, List.filterMap_cons_some hes, List.map_cons, hr,
      ih fun b hb => h b (List.mem_cons_of_mem _ hb)]

theorem ofValue_document_of_isLasting (h : s.IsLasting) : ofValue s.document.toValue = .ok s := by
  obtain ⟨params, fields, computed, ui⟩ := s
  have hfind {k : String} {o : Option Document} (i : Nat) (hi : _ = some (k, o)) :=
    Document.find?_toEntries_ofOptional (l := [
      ("params", some (.object (Document.ofEntries params.entries))),
      ("fields", some (.list (fields.map Field.document))),
      ("computed", some (.list (computed.map Computed.document))),
      ("ui", ui.map Document.ofValue)]) (by simp) (List.mem_of_getElem? (i := i) hi)
  have hparams : (Document.object (Document.ofEntries params.entries)).toValue = .map params.entries := by
    rw [Document.toValue, Document.toEntries_ofEntries params.sorted h.params]
  have hui : ((ui.map Document.ofValue).map Document.toValue).filter (fun u => !u.isNull) = ui := by
    cases ui with
    | none => rfl
    | some u =>
      obtain ⟨hjson, hnull⟩ := h.ui u rfl
      simp [Document.toValue_ofValue hjson, hnull]
  refine ofValue_map_eq_ok_iff.2 ⟨Document.toValues (fields.map Field.document), ?_,
    Document.toValues (computed.map Computed.document), ?_, params, ?_, ?_⟩
  · rw [Reading.listUnder, hfind 1 rfl]
    rfl
  · rw [Reading.listUnder, hfind 2 rfl]
    rfl
  · rw [Reading.params, hfind 0 rfl, Option.map_some, hparams]
    exact congrArg Except.ok (Table.ofList_eq params.sorted)
  · rw [hfind 3 rfl, hui, map_filterMap_toValues fun f hf => Reading.field_document (h.fields f hf),
      map_filterMap_toValues fun c hc => Reading.computed_document (h.computed c hc)]

/-- **A schema that was read, written as a document, reads as the same schema**, if no bound and no count was the text
of an infinity or a NaN, which have no written form. -/
theorem ofValue_document (hv : v.IsJson) (htext : v.HasFiniteTexts) (hs : ofValue v = .ok s) :
    ofValue s.document.toValue = .ok s :=
  ofValue_document_of_isLasting (isLasting_of_ofValue hv htext hs)

/-- A field with numbers as texts, a number for its kind, and a key that means nothing. -/
def looseField : List (String × Value) := [
  ("code", .text "E"), ("decimals", .text "inf"), ("judges", .map [("count", .text " 3 ")]), ("max", .text "9.5"),
  ("note", .list [.null, .map [("seen", .bool true)]]), ("type", .number 1)]

def looseDocument : Value := .map [
  ("computed", .null), ("fields", .list [.map looseField, .number 7]), ("ui", .map [("columns", .list [.text "E"])])]

theorem ofValue_document_loose : looseDocument.IsJson ∧ looseDocument.HasFiniteTexts ∧
    ∃ s, ofValue looseDocument = .ok s ∧ ofValue s.document.toValue = .ok s := by
  have hjson : looseDocument.IsJson := by
    simp only [looseDocument, looseField, Value.IsJson, Value.AreJson, Value.EntriesAreJson]
    decide +kernel
  have htexts : FiniteTexts looseField := by
    have hbound : (Value.text "9.5").IsFiniteText := by
      rintro s x ⟨⟩ h
      have hfinite : (Value.textScore? "9.5").any (·.isFinite) = true := by decide +kernel
      simpa [h] using hfinite
    have hcount : (Value.text " 3 ").IsFiniteText := by
      rintro s x ⟨⟩ h
      have hfinite : (Value.textScore? " 3 ").any (·.isFinite) = true := by decide +kernel
      simpa [h] using hfinite
    constructor
    · rintro v ⟨⟩
    · rintro v ⟨⟩
      exact hbound
    · rintro cs v ⟨⟩ ⟨⟩
      exact hcount
    · rintro cs v ⟨⟩
  have hdocument : looseDocument.HasFiniteTexts := by
    rintro es fields e ⟨⟩ ⟨⟩ he
    simp only [List.mem_cons, Value.map.injEq, reduceCtorEq, List.not_mem_nil, or_false] at he
    rw [he]
    exact htexts
  exact ⟨hjson, hdocument, _, rfl, ofValue_document hjson hdocument rfl⟩

end Schema

end Scoresheet
