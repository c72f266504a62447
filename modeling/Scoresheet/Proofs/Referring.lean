import Mathlib.Data.List.TakeWhile
import Scoresheet.Proofs.Linting
import Scoresheet.Proofs.Owning
import Scoresheet.Proofs.Taking

/-!
# Referring to entries

The linter admits every identifier as a code or a short name, other than `params` and the names of functions.  Such a
name is one token of a formula (`scan_of_isIdentifier`) and compiles to a name of the formula, except for the words
that formulas have taken and for names that start with two underscores (`compile_name_of_lint`).
-/
namespace Scoresheet

namespace Parse

/-- A word by itself is what the word means. -/
theorem tokens_word (stop p : Nat) (s : String) : tokens stop [⟨.name s, p⟩] = wordExpr s := by
  cases h : wordExpr s with
  | error fault =>
    simp [tokens, top, expr, descend, maxLevel, additive, term, unary, sign?, foreignSign?, postfixed, primary, h,
      bind, Except.bind]
  | ok e =>
    simp [tokens, top, expr, descend, maxLevel, additive, term, unary, sign?, foreignSign?, postfixed, primary, h,
      postfixRest, termRest, additiveRest, finish, bind, Except.bind, pure, Except.pure]

end Parse

namespace Text

/-- The characters that start a number or a quoted text, by their numbers. -/
def otherStarts : List Nat := [34, 39, 46, 48, 49, 50, 51, 52, 53, 54, 55, 56, 57]

theorem notMem_otherStarts {c : Char} (h : startsName c = true) : c.toNat ∉ otherStarts := by
  have hother : ∀ n ∈ otherStarts, inRanges n letterRanges = false ∧ n ≠ '_'.toNat := by decide +kernel
  intro hc
  obtain ⟨hletter, hne⟩ := hother _ hc
  simp only [startsName, isLetter, hletter, Bool.false_or, beq_iff_eq] at h
  exact hne (congrArg Char.toNat h)

end Text

namespace Scan

variable {c : Char}

theorem startsNumber_of_startsName (h : Text.startsName c = true) (cs : List Char) : startsNumber c cs = false := by
  have hc := Text.notMem_otherStarts h
  simp only [Text.otherStarts, List.mem_cons, List.not_mem_nil, or_false] at hc
  have hdigit : isDigit c = false := by
    simp only [isDigit, decide_eq_false_iff_not, Char.le_def, UInt32.le_iff_toNat_le]
    rintro ⟨hlow, hhigh⟩
    have hlow : 48 ≤ c.toNat := hlow
    have hhigh : c.toNat ≤ 57 := hhigh
    omega
  have hpoint : (c == '.') = false := by
    rw [beq_eq_false_iff_ne]
    rintro rfl
    exact hc (by decide)
  simp only [startsNumber, hdigit, hpoint, Bool.false_and, Bool.or_self]

theorem not_quote_of_startsName (h : Text.startsName c = true) : (c == '\'' || c == '"') = false := by
  have hc := Text.notMem_otherStarts h
  rw [Bool.or_eq_false_iff, beq_eq_false_iff_ne, beq_eq_false_iff_ne]
  constructor
  · rintro rfl
    exact hc (by decide)
  · rintro rfl
    exact hc (by decide)

end Scan

/-- An identifier is one token. -/
theorem scan_of_isIdentifier {s : String} (h : Text.isIdentifier s = true) : scan s = .ok [⟨.name s, 0⟩] := by
  have hblank := (Text.notBlank_of_isIdentifier h).2
  unfold Text.isIdentifier at h
  split at h
  · cases h
  · rename_i c cs hs
    rw [Bool.and_eq_true, List.all_eq_true] at h
    obtain ⟨hc, hcs⟩ := h
    have hword : cs.takeWhile Text.continuesName = cs := List.takeWhile_eq_self_iff.2 hcs
    have hname : String.ofList (c :: cs) = s := by rw [← hs, String.ofList_toList]
    have hnotBlank : ¬Text.isBlank c = true := by
      rw [hblank c (by rw [hs]; exact List.mem_cons_self)]
      exact Bool.false_ne_true
    have hlexeme : Scan.lexeme 0 c cs = .ok (.name s, cs.length) := by
      simp only [Scan.lexeme, Scan.startsNumber_of_startsName hc, Scan.not_quote_of_startsName hc, hc, hword, hname,
        Bool.false_eq_true, if_false, if_true]
    have hrest : Scan.tokensFrom (0 + 1 + cs.length) (cs.drop cs.length) = .ok [] := by
      rw [List.drop_length, Scan.tokensFrom]
    rw [scan, hs, Scan.tokensFrom, if_neg hnotBlank]
    simp only [hlexeme, hrest]

theorem parse_of_isIdentifier {s : String} (h : Text.isIdentifier s = true) : parse s = Parse.wordExpr s := by
  rw [parse, scan_of_isIdentifier h]
  exact Parse.tokens_word _ _ _

/-! ## Names in formulas -/

/-- The words that are no names in a formula: the constants and the words that no formula may use. -/
def isTakenWord (s : String) : Bool := ["True", "False", "None"].contains s || keywords.contains s

theorem wordExpr_eq_name_iff {s : String} : Parse.wordExpr s = .ok (.name s) ↔ isTakenWord s = false := by
  unfold Parse.wordExpr isTakenWord
  by_cases htrue : s = "True"
  · simp [htrue]
  by_cases hfalse : s = "False"
  · simp [hfalse]
  by_cases hnone : s = "None"
  · simp [hnone]
  by_cases hkeyword : s ∈ keywords
  · simp [htrue, hfalse, hnone, hkeyword]
  · simp [htrue, hfalse, hnone, hkeyword]

theorem eq_of_check {d : Dialect} {e e' : Expr} (h : d.check e = .ok e') : e' = e := by
  unfold Dialect.check at h
  split at h
  · cases h
  · exact (Except.ok.inj h).symm

theorem check_name_iff (s : String) :
    Dialect.formula.check (.name s) = .ok (.name s) ↔ Text.isSafeName s = true := by
  by_cases hsafe : Text.isSafeName s = true
  · simp [Dialect.check, Expr.subterms, Dialect.fault?, Dialect.allowsName, hsafe]
  · simp [Dialect.check, Expr.subterms, Dialect.fault?, Dialect.allowsName, hsafe]

/-- An identifier compiles to the name that it is, unless it is a taken word or no safe name. -/
theorem compile_eq_name_iff {s : String} (h : Text.isIdentifier s = true) :
    Dialect.formula.compile s = .ok (.name s) ↔ isTakenWord s = false ∧ Text.isSafeName s = true := by
  rw [← wordExpr_eq_name_iff, ← check_name_iff]
  unfold Dialect.compile
  rw [Text.allBlank_of_isIdentifier h, if_neg Bool.false_ne_true, parse_of_isIdentifier h]
  constructor
  · intro hcompile
    cases hword : Parse.wordExpr s with
    | error fault =>
      rw [hword] at hcompile
      cases hcompile
    | ok e =>
      rw [hword] at hcompile
      dsimp only at hcompile
      cases hcheck : Dialect.formula.check e with
      | error fault =>
        rw [hcheck] at hcompile
        cases hcompile
      | ok e' =>
        rw [hcheck] at hcompile
        cases hcompile
        have he := eq_of_check hcheck
        subst he
        exact ⟨rfl, hcheck⟩
  · rintro ⟨hword, hcheck⟩
    simp only [hword, hcheck]

namespace Schema

variable {s : Schema}

theorem isIdentifier_of_lint (hlint : lint s = []) {c : String} (hc : c ∈ s.codes ∨ c ∈ s.aliases.keys) :
    Text.isIdentifier c = true := by
  obtain ⟨nodes, hfit⟩ := fit_of_lint hlint
  rcases hc with hcode | hshort
  · exact (hfit.code c hcode).1
  · obtain ⟨e, he, rfl⟩ := List.mem_map.1 hshort
    exact (hfit.short e he).1

/-- **A formula can refer to an entry of a clean schema by its code or short name**, and reads it as a name, just when
the name starts with no two underscores and is no word that formulas have taken. -/
theorem compile_name_of_lint (hlint : lint s = []) {c : String} (hc : c ∈ s.codes ∨ c ∈ s.aliases.keys) :
    Dialect.formula.compile c = .ok (.name c) ↔ isTakenWord c = false ∧ ['_', '_'].isPrefixOf c.toList = false := by
  have hid := isIdentifier_of_lint hlint hc
  rw [compile_eq_name_iff hid, Text.isSafeName, hid, Bool.true_and, Bool.not_eq_true']

theorem compile_name_of_lint_short : ∃ s c, lint s = [] ∧ c ∈ s.aliases.keys ∧
    Dialect.formula.compile c = .ok (.name c) := by
  let s : Schema := { Schema.ofFormulas [] [("T", none, "é_1")] with fields := [.ofNumber "E" (some "é_1")] }
  have hlint : lint s = [] := by decide +kernel
  have hmem : "é_1" ∈ s.aliases.keys := by decide +kernel
  exact ⟨s, "é_1", hlint, hmem, (compile_name_of_lint hlint (.inr hmem)).2 ⟨by decide, by decide⟩⟩

/-- A clean schema may have codes that no formula can refer to. -/
theorem not_compile_name_of_lint : ∃ s : Schema, lint s = [] ∧ s.codes = ["True", "if", "__n", "T"] ∧
    ∀ c ∈ ["True", "if", "__n"], Dialect.formula.compile c ≠ .ok (.name c) := by
  let s : Schema := { Schema.ofFormulas [] [("T", none, "True")] with
    fields := [.ofNumber "True" none, .ofNumber "if" none, .ofNumber "__n" none] }
  have hlint : lint s = [] := by decide +kernel
  have hid : ∀ c ∈ ["True", "if", "__n"], Text.isIdentifier c = true ∧
      ¬(isTakenWord c = false ∧ Text.isSafeName c = true) := by decide +kernel
  refine ⟨s, hlint, rfl, fun c hc => ?_⟩
  obtain ⟨hc, hnot⟩ := hid c hc
  rwa [Ne, compile_eq_name_iff hc]

end Schema

end Scoresheet
