import Mathlib.Data.List.Infix
import Mathlib.Data.List.TakeWhile
import Scoresheet.Formula.Scan
/-!
# Numerals

A numeral of a formula starts at a digit or at a point before a digit.  A text that starts so has no sign and is none of
the words for numbers (`ofText?_of_isPrefix`), and of its beginnings that denote a number the numeral is the longest
(`length_le_numeral`): digits, a point with digits and an exponent are each taken as far as they go.
-/
namespace Scoresheet
namespace Scan

variable {c : Char} {cs w : List Char}

/-! ## What stands at the front -/

/-- **A beginning of a list either holds throughout what the front of the list holds, or goes on after that.** -/
theorem prefix_takeWhile_or {α : Type} (p : α → Bool) : ∀ {l m : List α}, l <+: m →
    (l.dropWhile p = [] ∧ l <+: m.takeWhile p) ∨
      l.takeWhile p = m.takeWhile p ∧ l.dropWhile p ≠ [] ∧ l.dropWhile p <+: m.dropWhile p
  | [], _, _ => .inl ⟨rfl, List.nil_prefix⟩
  | a :: l, [], h => absurd (List.prefix_nil.1 h) (List.cons_ne_nil a l)
  | a :: l, b :: m, h => by
    obtain ⟨rfl, hl⟩ := List.cons_prefix_cons.1 h
    by_cases ha : p a = true
    · simp only [List.takeWhile_cons_of_pos ha, List.dropWhile_cons_of_pos ha, List.cons_prefix_cons, true_and,
        List.cons.injEq]
      exact prefix_takeWhile_or p hl
    · simp only [List.takeWhile_cons_of_neg ha, List.dropWhile_cons_of_neg ha, List.cons_prefix_cons, true_and]
      exact .inr ⟨List.cons_ne_nil a l, hl⟩

/-- What the front of a list holds, and then whatever else goes on there. -/
theorem prefix_takeWhile_append {α : Type} {p : α → Bool} {l m k : List α} (h : l <+: m)
    (hrest : l.dropWhile p ≠ [] → l.dropWhile p <+: m.dropWhile p → l.dropWhile p <+: k) :
    l <+: m.takeWhile p ++ k := by
  rcases prefix_takeWhile_or p h with ⟨-, hfront⟩ | ⟨hsame, hne, hmore⟩
  · exact hfront.trans (List.prefix_append _ _)
  · have hk := (List.prefix_append_right_inj (l.takeWhile p)).2 (hrest hne hmore)
    rwa [List.takeWhile_append_dropWhile, hsame] at hk

theorem prefix_takeWhile {α : Type} {p : α → Bool} {l m : List α} (h : l <+: m) (hall : ∀ a ∈ l, p a = true) :
    l <+: m.takeWhile p := by
  rcases prefix_takeWhile_or p h with ⟨-, hfront⟩ | ⟨-, hne, -⟩
  · exact hfront
  · exact absurd (List.dropWhile_eq_nil_iff.2 hall) hne

/-- What stands at the front, and then at the front of what is left. -/
theorem append_isPrefix {α : Type} {l m k : List α} (hl : l <+: k) (hm : m <+: k.drop l.length) : l ++ m <+: k := by
  obtain ⟨rest, rfl⟩ := hl
  rw [List.drop_left] at hm
  exact (List.prefix_append_right_inj l).2 hm

/-- The sign at the front, or nothing. -/
def signPart (cs : List Char) : List Char := (cs.take 1).filter fun s => s == '+' || s == '-'

theorem exponentPart_cons (c : Char) (cs : List Char) : exponentPart (c :: cs) =
    if c == 'e' || c == 'E' then
      if ((cs.drop (signPart cs).length).takeWhile isDigit).isEmpty then []
      else c :: signPart cs ++ (cs.drop (signPart cs).length).takeWhile isDigit
    else [] := rfl

theorem signPart_isPrefix : ∀ cs : List Char, signPart cs <+: cs
  | [] => List.prefix_rfl
  | c :: cs => by
    rw [signPart, List.take_succ_cons, List.take_zero, List.filter_cons]
    split
    · exact List.prefix_append [c] cs
    · exact List.nil_prefix

theorem splitSign_eq : ∀ cs : List Char, (splitSign cs).2 = cs.drop (signPart cs).length := by
  intro cs
  unfold splitSign
  split
  · rfl
  · rfl
  · rename_i hminus hplus
    cases cs with
    | nil => rfl
    | cons c cs =>
      have hsign : signPart (c :: cs) = [] := by
        have hm : c ≠ '-' := fun h => hminus cs (h ▸ rfl)
        have hp : c ≠ '+' := fun h => hplus cs (h ▸ rfl)
        simp [signPart, hm, hp]
      rw [hsign]
      rfl

theorem fractionPart_isPrefix : ∀ cs : List Char, fractionPart cs <+: cs
  | [] => List.prefix_rfl
  | c :: cs => by
    unfold fractionPart
    split
    · rename_i cs' h
      rw [h]
      exact (List.prefix_cons_inj _).2 (List.takeWhile_prefix _)
    · exact List.nil_prefix

theorem exponentPart_isPrefix : ∀ cs : List Char, exponentPart cs <+: cs
  | [] => List.prefix_rfl
  | c :: cs => by
    rw [exponentPart_cons]
    split
    · split
      · exact List.nil_prefix
      · rw [List.cons_append, List.prefix_cons_inj]
        exact append_isPrefix (signPart_isPrefix cs) (List.takeWhile_prefix _)
    · exact List.nil_prefix

theorem drop_length_takeWhile (p : Char → Bool) (cs : List Char) :
    cs.drop (cs.takeWhile p).length = cs.dropWhile p := by
  have h := @List.drop_left _ (cs.takeWhile p) (cs.dropWhile p)
  rwa [List.takeWhile_append_dropWhile] at h

theorem numeral_isPrefix (cs : List Char) : numeral cs <+: cs := by
  have hfraction : cs.takeWhile isDigit ++ fractionPart (cs.dropWhile isDigit) <+: cs := by
    refine append_isPrefix (List.takeWhile_prefix _) ?_
    rw [drop_length_takeWhile]
    exact fractionPart_isPrefix _
  refine append_isPrefix hfraction ?_
  rw [List.length_append, ← List.drop_drop, drop_length_takeWhile]
  exact exponentPart_isPrefix _

/-! ## No longer beginning denotes a number -/

/-- An exponent has a digit behind the sign, if there is one, and nothing else. -/
theorem exponent?_cons_isSome (h : (Score.exponent? (c :: cs)).isSome = true) : (c == 'e' || c == 'E') = true ∧
    cs.drop (signPart cs).length ≠ [] ∧ ∀ d ∈ cs.drop (signPart cs).length, isDigit d = true := by
  rw [Score.exponent?] at h
  split at h
  · rename_i hc
    rw [← splitSign_eq]
    dsimp only at h
    split at h
    · rename_i hdigits
      rw [Bool.and_eq_true, Bool.not_eq_true', List.isEmpty_eq_false_iff, List.all_eq_true] at hdigits
      exact ⟨hc, hdigits.1, hdigits.2⟩
    · cases h
  · cases h

/-- The sign at the front of a list is that of a longer one, unless the list ends before anything else. -/
theorem signPart_of_isPrefix (hw : w <+: cs) (hne : w ≠ []) : signPart w = signPart cs := by
  obtain ⟨rest, rfl⟩ := hw
  cases w with
  | nil => exact absurd rfl hne
  | cons c w => rfl

theorem prefix_exponentPart (hw : w <+: cs) (h : (Score.exponent? w).isSome = true) : w <+: exponentPart cs := by
  cases w with
  | nil => exact List.nil_prefix
  | cons c w =>
    cases cs with
    | nil => exact absurd (List.prefix_nil.1 hw) (List.cons_ne_nil c w)
    | cons c' cs =>
      obtain ⟨rfl, htail⟩ := List.cons_prefix_cons.1 hw
      obtain ⟨hc, hne, hdigits⟩ := exponent?_cons_isSome h
      have hsign : signPart w = signPart cs := signPart_of_isPrefix htail fun he => hne (by rw [he, List.drop_nil])
      have hdrop : w.drop (signPart w).length <+: (cs.drop (signPart cs).length).takeWhile isDigit := by
        refine prefix_takeWhile ?_ hdigits
        rw [hsign]
        exact htail.drop _
      have hdigit : ((cs.drop (signPart cs).length).takeWhile isDigit).isEmpty = false := by
        rw [List.isEmpty_eq_false_iff]
        exact fun he => hne (List.prefix_nil.1 (he ▸ hdrop))
      have hsplit : w = signPart cs ++ w.drop (signPart w).length := by
        rw [← hsign]
        exact List.prefix_append_drop (signPart_isPrefix w)
      rw [exponentPart_cons, if_pos hc, hdigit, if_neg Bool.false_ne_true, List.cons_append, List.prefix_cons_inj,
        hsplit]
      exact (List.prefix_append_right_inj _).2 hdrop

/-- What a number has behind its digits, and behind those after a point, is an exponent. -/
theorem exponent?_of_ofUnsigned? (h : (Score.ofUnsigned? w).isSome = true) :
    (Score.exponent? ((w.dropWhile isDigit).drop (fractionPart (w.dropWhile isDigit)).length)).isSome = true := by
  unfold Score.ofUnsigned? at h
  dsimp only at h
  split at h
  · rename_i more hrest
    rw [hrest, fractionPart, List.length_cons, List.drop_succ_cons, drop_length_takeWhile]
    split at h
    · cases h
    · rwa [Option.isSome_map] at h
  · rename_i hpoint
    have hnone : fractionPart (w.dropWhile isDigit) = [] := by
      unfold fractionPart
      split
      · rename_i more hrest
        exact (hpoint more hrest).elim
      · rfl
    rw [hnone, List.length_nil, List.drop_zero]
    split at h
    · cases h
    · rwa [Option.isSome_map] at h

theorem prefix_fraction_exponent (hw : w <+: cs) (hne : w ≠ [])
    (h : (Score.exponent? (w.drop (fractionPart w).length)).isSome = true) :
    w <+: fractionPart cs ++ exponentPart (cs.drop (fractionPart cs).length) := by
  cases w with
  | nil => exact absurd rfl hne
  | cons c w =>
    cases cs with
    | nil => exact absurd (List.prefix_nil.1 hw) hne
    | cons c' cs =>
      obtain ⟨rfl, htail⟩ := List.cons_prefix_cons.1 hw
      by_cases hc : c = '.'
      · subst hc
        simp only [fractionPart, List.length_cons, List.drop_succ_cons, drop_length_takeWhile] at h ⊢
        rw [List.cons_append, List.prefix_cons_inj]
        exact prefix_takeWhile_append htail fun _ hrest => prefix_exponentPart hrest h
      · have hnone : ∀ cs, fractionPart (c :: cs) = [] := fun cs => by
          unfold fractionPart
          split
          · rename_i more hrest
            exact absurd (List.cons.inj hrest).1 hc
          · rfl
        rw [hnone, List.length_nil, List.drop_zero] at h ⊢
        exact prefix_exponentPart hw h

/-- **The numeral at the front is the longest beginning that denotes an unsigned number.** -/
theorem prefix_numeral (hw : w <+: cs) (h : (Score.ofUnsigned? w).isSome = true) : w <+: numeral cs := by
  rw [numeral, List.append_assoc]
  refine prefix_takeWhile_append hw fun hne hrest => ?_
  exact prefix_fraction_exponent hrest hne (exponent?_of_ofUnsigned? h)

/-! ## Signs and words -/

/-- The characters that a numeral starts with. -/
def numeralStarts : List Char := ['.', '0', '1', '2', '3', '4', '5', '6', '7', '8', '9']

theorem mem_numeralStarts (h : startsNumber c cs = true) : c ∈ numeralStarts := by
  rw [startsNumber, Bool.or_eq_true, Bool.and_eq_true, beq_iff_eq] at h
  rcases h with hdigit | ⟨rfl, -⟩
  · have hbounds : 48 ≤ c.toNat ∧ c.toNat ≤ 57 := by simpa [isDigit, Char.le_def, UInt32.le_iff_toNat_le] using hdigit
    have hmem : c.toNat ∈ numeralStarts.map Char.toNat := by
      have hcodes : numeralStarts.map Char.toNat = [46, 48, 49, 50, 51, 52, 53, 54, 55, 56, 57] := by decide
      simp only [hcodes, List.mem_cons, List.not_mem_nil, or_false]
      omega
    obtain ⟨d, hd, he⟩ := List.mem_map.1 hmem
    rwa [← Char.toNat_inj.1 he]
  · exact List.mem_cons_self

/-- **A text that starts like a numeral denotes an unsigned number if any**: it has no sign and is no word. -/
theorem ofText?_eq_ofUnsigned? (hw : ∀ c ∈ w.head?, c ∈ numeralStarts) :
    Score.ofText? (String.ofList w) = Score.ofUnsigned? w := by
  have hsign : splitSign w = (false, w) := by
    unfold splitSign
    split
    · exact absurd (hw '-' rfl) (by decide)
    · exact absurd (hw '+' rfl) (by decide)
    · rfl
  -- the words are `inf`, `infinity` and `nan` in small letters, so their first letters tell them apart from numerals
  have hword : ∀ c ∈ ['i', 'n'], (w.map Char.toLower).head? ≠ some c := by
    have hlower : (numeralStarts.all fun d => !(['i', 'n'].contains d.toLower)) = true := by decide
    intro c hc hhead
    rw [List.head?_map, Option.map_eq_some_iff] at hhead
    obtain ⟨d, hd, rfl⟩ := hhead
    have hother := List.all_eq_true.1 hlower d (hw d hd)
    rw [Bool.not_eq_true', List.contains_eq_mem, decide_eq_false_iff_not] at hother
    exact hother hc
  have hne : ∀ c cs, c ∈ ['i', 'n'] → (w.map Char.toLower == c :: cs) = false := by
    intro c cs hc
    rw [beq_eq_false_iff_ne]
    intro he
    exact hword c hc (by rw [he]; rfl)
  rw [Score.ofText?, String.toList_ofList, hsign]
  simp [hne]

theorem ofText?_of_isPrefix (h : startsNumber c cs = true) (hw : w <+: c :: cs) :
    Score.ofText? (String.ofList w) = Score.ofUnsigned? w := by
  refine ofText?_eq_ofUnsigned? fun d hd => ?_
  obtain ⟨rest, hrest⟩ := hw
  cases w with
  | nil => cases hd
  | cons a w =>
    rw [List.cons_append, List.cons.injEq] at hrest
    rw [← Option.some.inj hd, hrest.1]
    exact mem_numeralStarts h

/-- **Where a numeral starts, no beginning of the text that denotes a number is longer than it.** -/
theorem length_le_numeral (h : startsNumber c cs = true) (hw : w <+: c :: cs)
    (hnumber : (Score.ofText? (String.ofList w)).isSome = true) : w.length ≤ (numeral (c :: cs)).length := by
  rw [ofText?_of_isPrefix h hw] at hnumber
  exact (prefix_numeral hw hnumber).length_le

end Scan
end Scoresheet
