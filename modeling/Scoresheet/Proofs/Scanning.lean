import Scoresheet.Proofs.Numerals
import Scoresheet.Proofs.Referring
/-!
# Scanning loses nothing

How a lexeme is written is said without the scanner: a number, a quoted text, a name and a symbol each by its word and
by what may stand around it (`Written`).  A text is then cut into blanks and words, each token at the position of its
word (`Cuts`).  A scanner that comes to a lexeme has its word at the front (`opens_of_lexeme`) and goes on right behind
it, where no name can be cut in two (`Apart`).  So wherever a text has tokens it is cut into their words
(`tokenize_cuts`), and no character is left out or read twice.
-/
namespace Scoresheet
namespace Scan

/-! ## How lexemes are written -/

/-- The characters between two quotes, and the text that they stand for: characters other than the quote and the
backslash stand for themselves, and a backslash makes an escape with whatever character comes after it, a quote too. -/
inductive Quotes (quote : Char) : List Char → List Char → Prop where
  | nil : Quotes quote [] []
  | plain {c : Char} {body text : List Char} : c ≠ quote → c ≠ '\\' → Quotes quote body text →
      Quotes quote (c :: body) (c :: text)
  | escape {e : Char} {body text : List Char} : Quotes quote body text →
      Quotes quote ('\\' :: e :: body) (unescape e ++ text)

/-- How a lexeme is written: the characters of its word, between those before it and those after it. -/
inductive Written (before word after : List Char) : Lexeme → Prop where
  /-- A word that denotes the number; no longer one does, and no letter or underscore follows at once. -/
  | number {n : Score} : Score.ofText? (String.ofList word) = some n →
      (∀ longer, longer <+: word ++ after → (Score.ofText? (String.ofList longer)).isSome = true →
        longer.length ≤ word.length) →
      (∀ c ∈ after.head?, Text.startsName c = false) → Written before word after (.number n)
  /-- A quote, the characters up to the first one like it that is not escaped, and that one. -/
  | text {quote : Char} {body text : List Char} : quote = '\'' ∨ quote = '"' → word = quote :: (body ++ [quote]) →
      Quotes quote body text → Written before word after (.text (String.ofList text))
  /-- A letter or underscore and all letters, numerals and underscores around it. -/
  | name : (∃ c ∈ word.head?, Text.startsName c = true) → (∀ c ∈ word, Text.continuesName c = true) →
      (∀ c ∈ before.getLast?, Text.continuesName c = false) → (∀ c ∈ after.head?, Text.continuesName c = false) →
      Written before word after (.name (String.ofList word))
  /-- The longest symbol that fits. -/
  | symbol {s : Symbol} : word = s.chars → (∀ other : Symbol, other.chars <+: word ++ after →
      other.chars.length ≤ word.length) → Written before word after (.symbol s)

/-- The characters that are left after some are cut into blanks and the words of the tokens in turn.  Each token has the
position at which its word starts, and the last one stands at the end. -/
inductive Cuts : List Char → List Char → List Token → Prop where
  | finish {before : List Char} : Cuts before [] [⟨.finish, before.length⟩]
  | blank {before cs : List Char} {c : Char} {ts : List Token} : Text.isBlank c = true → Cuts (before ++ [c]) cs ts →
      Cuts before (c :: cs) ts
  | token {before word after : List Char} {lexeme : Lexeme} {ts : List Token} : Written before word after lexeme →
      Cuts (before ++ word) after ts → Cuts before (word ++ after) (⟨lexeme, before.length⟩ :: ts)

variable {before word after cs : List Char} {c : Char} {lex : Lexeme} {ts : List Token} {position more n : Nat}

/-! ## One lexeme -/

/-- No name that ends on the left could go on with one that starts on the right. -/
def Apart (left right : List Char) : Prop :=
  ∀ b ∈ left.getLast?, Text.continuesName b = true → ∀ c ∈ right.head?, Text.startsName c = false

theorem apart_of_right (h : ∀ c ∈ after.head?, Text.startsName c = false) : Apart word after := fun _ _ _ => h

theorem apart_of_left (h : ∀ b ∈ word.getLast?, Text.continuesName b = false) : Apart word after := fun b hb hname => by
  rw [h b hb] at hname
  cases hname

/-- What a quoted text ends with is the first quote that is not escaped. -/
theorem quotes_of_quoted {quote : Char} {text : List Char} (h : quoted quote cs = some (text, n)) :
    ∃ body, body ++ [quote] <+: cs ∧ n = body.length + 1 ∧ Quotes quote body text := by
  fun_induction quoted quote cs generalizing text n with
  | case1 => cases h
  | case2 cs =>
    cases h
    exact ⟨[], List.prefix_append [quote] cs, rfl, .nil⟩
  | case3 => cases h
  | case4 e rest hquote ih =>
    obtain ⟨⟨text', n'⟩, hrest, heq⟩ := Option.map_eq_some_iff.1 h
    cases heq
    obtain ⟨body, hprefix, rfl, hbody⟩ := ih hrest
    refine ⟨'\\' :: e :: body, ?_, rfl, .escape hbody⟩
    simpa using hprefix
  | case5 c cs hquote hescape ih =>
    obtain ⟨⟨text', n'⟩, hrest, heq⟩ := Option.map_eq_some_iff.1 h
    cases heq
    obtain ⟨body, hprefix, rfl, hbody⟩ := ih hrest
    refine ⟨c :: body, ?_, rfl, .plain hquote hescape hbody⟩
    simpa using hprefix

theorem longest_of_symbol? {s : Symbol} (h : symbol? cs = some s) :
    s.chars <+: cs ∧ ∀ other : Symbol, other.chars <+: cs → other.chars.length ≤ s.chars.length := by
  have hdescending : Symbol.all.Pairwise fun s t => t.chars.length ≤ s.chars.length := by decide
  have hall : ∀ s : Symbol, s ∈ Symbol.all := by
    intro s
    cases s <;> decide
  obtain ⟨hfits, longer, shorter, hsplit, hlonger⟩ := List.find?_eq_some_iff_append.1 h
  refine ⟨List.isPrefixOf_iff_prefix.1 hfits, fun other hother => ?_⟩
  have hmem := hall other
  rw [hsplit] at hmem hdescending
  rcases List.mem_append.1 hmem with hlong | hmem
  · have hmisfit := hlonger other hlong
    rw [List.isPrefixOf_iff_prefix.2 hother] at hmisfit
    cases hmisfit
  · rcases List.mem_cons.1 hmem with rfl | hshort
    · exact Nat.le_refl _
    · exact List.rel_of_pairwise_cons (List.pairwise_append.1 hdescending).2.1 hshort

theorem continuesName_quote {quote : Char} (h : quote = '\'' ∨ quote = '"') : Text.continuesName quote = false := by
  rcases h with rfl | rfl <;> decide +kernel

theorem continuesName_symbol (s : Symbol) : ∀ b ∈ s.chars.getLast?, Text.continuesName b = false := by
  have hnone : s.chars.getLast?.any Text.continuesName = false := by
    cases s <;> decide +kernel
  intro b hb
  rwa [Option.mem_def.1 hb, Option.any_some] at hnone

/-- A lexeme is written in at least one character. -/
theorem Written.word_ne_nil (h : Written before word after lex) : word ≠ [] := by
  rintro rfl
  cases h with
  | number h => cases h
  | text _ h => cases h
  | name h =>
    obtain ⟨c, hc, -⟩ := h
    cases hc
  | @symbol s h =>
    cases s <;> cases h

/-- A lexeme of some length is written at the front, and no name goes on behind it. -/
def Opens (before cs : List Char) (lex : Lexeme) (length : Nat) : Prop :=
  ∃ word after, cs = word ++ after ∧ word.length = length ∧ Written before word after lex ∧ Apart word after

theorem Opens.sub_add_cancel (h : Opens before cs lex n) : Opens before cs lex (n - 1 + 1) := by
  obtain ⟨word, after, hsplit, rfl, hwritten, hapart⟩ := h
  refine ⟨word, after, hsplit, ?_, hwritten, hapart⟩
  have hpositive := List.length_pos_iff.2 hwritten.word_ne_nil
  omega

theorem opens_number {number : Score} (hstart : startsNumber c cs = true)
    (hnumber : Score.ofUnsigned? (numeral (c :: cs)) = some number)
    (hafter : ∀ d ∈ ((c :: cs).drop (numeral (c :: cs)).length).head?, Text.startsName d = false) :
    Opens before (c :: cs) (.number number) (numeral (c :: cs)).length := by
  obtain ⟨after, hsplit⟩ := numeral_isPrefix (c :: cs)
  have hdrop := @List.drop_left _ (numeral (c :: cs)) after
  rw [hsplit] at hdrop
  rw [hdrop] at hafter
  refine ⟨_, after, hsplit.symm, rfl, .number ?_ (fun longer hlonger => ?_) hafter, apart_of_right hafter⟩
  · rw [ofText?_of_isPrefix hstart (numeral_isPrefix _), hnumber]
  · rw [hsplit] at hlonger
    exact length_le_numeral hstart hlonger

theorem opens_text {text : List Char} (hquote : c = '\'' ∨ c = '"') (h : quoted c cs = some (text, n)) :
    Opens before (c :: cs) (.text (String.ofList text)) (n + 1) := by
  obtain ⟨body, ⟨after, rfl⟩, rfl, hbody⟩ := quotes_of_quoted h
  refine ⟨c :: (body ++ [c]), after, rfl, by simp, .text hquote rfl hbody, apart_of_left fun b hb => ?_⟩
  rw [← List.cons_append, List.getLast?_append_of_ne_nil _ (List.cons_ne_nil c [])] at hb
  cases hb
  exact continuesName_quote hquote

theorem opens_name (hname : Text.startsName c = true) (hbefore : Apart before (c :: cs)) :
    Opens before (c :: cs) (.name (String.ofList (c :: cs.takeWhile Text.continuesName)))
      ((cs.takeWhile Text.continuesName).length + 1) := by
  have hafter : ∀ d ∈ (cs.dropWhile Text.continuesName).head?, Text.continuesName d = false := fun d hd => by
    have hstop := List.head?_dropWhile_not Text.continuesName cs
    rwa [hd] at hstop
  refine ⟨c :: cs.takeWhile Text.continuesName, cs.dropWhile Text.continuesName, ?_, rfl,
    .name ⟨c, rfl, hname⟩ (fun d hd => ?_) (fun b hb => ?_) hafter, apart_of_right fun d hd => ?_⟩
  · rw [List.cons_append, List.takeWhile_append_dropWhile]
  · rcases List.mem_cons.1 hd with rfl | hd
    · exact Text.continuesName_of_startsName hname
    · exact List.mem_takeWhile_imp hd
  · rw [Bool.eq_false_iff]
    intro hjoined
    have hapart := hbefore b hb hjoined c rfl
    rw [hname] at hapart
    cases hapart
  · rw [Bool.eq_false_iff]
    intro hstart
    have hstop := hafter d hd
    rw [Text.continuesName_of_startsName hstart] at hstop
    cases hstop

theorem opens_symbol {s : Symbol} (h : symbol? cs = some s) : Opens before cs (.symbol s) s.chars.length := by
  obtain ⟨⟨after, hsplit⟩, hlongest⟩ := longest_of_symbol? h
  refine ⟨s.chars, after, hsplit.symm, rfl, .symbol rfl fun other hother => ?_, apart_of_left (continuesName_symbol s)⟩
  exact hlongest other (hsplit ▸ hother)

/-- **A lexeme is the word at the front, and no name goes on behind it.** -/
theorem opens_of_lexeme (h : lexeme position c cs = .ok (lex, more)) (hbefore : Apart before (c :: cs)) :
    Opens before (c :: cs) lex (more + 1) := by
  unfold lexeme at h
  split at h
  · rename_i hstart
    dsimp only at h
    split at h
    · cases h
    · rename_i hafter
      split at h
      · rename_i n hnumber
        cases h
        refine (opens_number hstart hnumber fun d hd => Bool.eq_false_iff.2 fun hname => hafter ?_).sub_add_cancel
        exact (Option.any_eq_true _ _).2 ⟨d, hd, hname⟩
      · cases h
  · split at h
    · rename_i hquote
      split at h
      · rename_i text n hquoted
        cases h
        exact opens_text (by simpa using hquote) hquoted
      · cases h
    · split at h
      · rename_i hname
        cases h
        exact opens_name hname hbefore
      · split at h
        · rename_i s hsymbol
          cases h
          exact (opens_symbol hsymbol).sub_add_cancel
        · cases h

/-! ## All lexemes -/

theorem apart_append (hword : word ≠ []) (h : Apart word after) : Apart (before ++ word) after := by
  rwa [Apart, List.getLast?_append_of_ne_nil _ hword]

/-- **What is scanned is cut into its lexemes**, from any character on at which no name goes on. -/
theorem cuts_of_tokensFrom (h : tokensFrom position cs = .ok ts) (hposition : before.length = position)
    (hbefore : Apart before cs) : Cuts before cs (ts ++ [⟨.finish, position + cs.length⟩]) := by
  fun_induction tokensFrom position cs generalizing before ts with
  | case1 position =>
    cases h
    exact hposition ▸ .finish
  | case2 position c cs hblank ih =>
    have hapart : Apart (before ++ [c]) cs := by
      refine apart_append (List.cons_ne_nil c []) (apart_of_left fun b hb => ?_)
      obtain rfl : c = b := Option.some.inj hb
      rw [Bool.eq_false_iff]
      intro hname
      rw [Text.isBlank_of_continuesName hname] at hblank
      cases hblank
    have hcuts := ih h (by rw [List.length_append, hposition]; rfl) hapart
    rw [List.length_cons, Nat.add_comm cs.length, ← Nat.add_assoc]
    exact .blank hblank hcuts
  | case3 => cases h
  | case4 => cases h
  | case5 position c cs hblank lex more hlexeme rest hrest ih =>
    cases h
    subst hposition
    obtain ⟨word, after, hsplit, hlength, hwritten, hapart⟩ := opens_of_lexeme hlexeme hbefore
    have hafter := congrArg (List.drop (more + 1)) hsplit
    rw [List.drop_succ_cons, ← hlength, List.drop_left] at hafter
    have hnext : (before ++ word).length = before.length + 1 + more := by
      rw [List.length_append, hlength, Nat.add_right_comm, Nat.add_assoc]
    have hend : before.length + 1 + more + after.length = before.length + (word ++ after).length := by
      rw [List.length_append, hlength]
      omega
    rw [hafter] at ih hrest
    have hcuts := ih hrest hnext (apart_append hwritten.word_ne_nil hapart)
    rw [hend] at hcuts
    rw [hsplit]
    exact .token hwritten hcuts

/-- **The tokens stand one behind the other**, none before the characters that are left. -/
theorem Cuts.increasing (h : Cuts before cs ts) :
    (∀ t ∈ ts, before.length ≤ t.position) ∧ (ts.map (·.position)).Pairwise (· < ·) := by
  induction h with
  | finish => simp
  | @blank before cs c ts _ _ ih =>
    refine ⟨fun t ht => ?_, ih.2⟩
    have hlater := ih.1 t ht
    rw [List.length_append] at hlater
    omega
  | @token before word after lexeme ts hwritten _ ih =>
    have hword := List.length_pos_iff.2 hwritten.word_ne_nil
    have hlater : ∀ t ∈ ts, before.length < t.position := fun t ht => by
      have hlater := ih.1 t ht
      rw [List.length_append] at hlater
      omega
    refine ⟨?_, ?_⟩
    · rw [List.forall_mem_cons]
      exact ⟨Nat.le_refl _, fun t ht => (hlater t ht).le⟩
    · rw [List.map_cons, List.pairwise_cons]
      refine ⟨fun p hp => ?_, ih.2⟩
      obtain ⟨t, ht, rfl⟩ := List.mem_map.1 hp
      exact hlater t ht

/-- **The last token and no other marks the end**, and it stands behind all characters. -/
theorem Cuts.exists_init (h : Cuts before cs ts) :
    ∃ init, ts = init ++ [⟨.finish, before.length + cs.length⟩] ∧ ∀ t ∈ init, t.lexeme ≠ .finish := by
  induction h with
  | finish => exact ⟨[], rfl, fun t ht => by cases ht⟩
  | @blank before cs c ts _ _ ih =>
    obtain ⟨init, rfl, hinit⟩ := ih
    refine ⟨init, ?_, hinit⟩
    rw [List.length_append, List.length_cons, List.length_cons, List.length_nil]
    congr 3
    omega
  | @token before word after lexeme ts hwritten _ ih =>
    obtain ⟨init, rfl, hinit⟩ := ih
    refine ⟨⟨lexeme, before.length⟩ :: init, ?_, ?_⟩
    · rw [List.length_append, List.length_append, Nat.add_assoc]
      rfl
    · rw [List.forall_mem_cons]
      refine ⟨?_, hinit⟩
      rintro rfl
      cases hwritten

/-- A name is an identifier. -/
theorem Written.isIdentifier {s : String} (h : Written before word after (.name s)) : Text.isIdentifier s = true := by
  generalize hlex : Lexeme.name s = lex at h
  cases h with
  | name hstart hall =>
    cases hlex
    obtain ⟨c, hc, hstart⟩ := hstart
    cases word with
    | nil => cases hc
    | cons a word =>
      obtain rfl : a = c := Option.some.inj hc
      rw [Text.isIdentifier, String.toList_ofList, Bool.and_eq_true, List.all_eq_true]
      exact ⟨hstart, fun c hc => hall c (List.mem_cons_of_mem _ hc)⟩
  | _ => cases hlex

theorem Cuts.isIdentifier {s : String} (h : Cuts before cs ts) {t : Token} (ht : t ∈ ts) (hname : t.lexeme = .name s) :
    Text.isIdentifier s = true := by
  induction h with
  | finish =>
    rw [List.mem_singleton.1 ht] at hname
    cases hname
  | blank _ _ ih => exact ih ht
  | token hwritten _ ih =>
    rcases List.mem_cons.1 ht with rfl | ht
    · dsimp only at hname
      exact (hname ▸ hwritten).isIdentifier
    · exact ih ht

end Scan

open Scan (Cuts)

theorem cuts_of_tokenize {source : String} {ts : List Token} (h : tokenize source = .ok ts) :
    Cuts [] source.toList ts := by
  rw [tokenize, scan] at h
  cases hscan : Scan.tokensFrom 0 source.toList with
  | error fault =>
    rw [hscan] at h
    cases h
  | ok found =>
    rw [hscan] at h
    cases h
    have hnone : Scan.Apart [] source.toList := fun b hb => by cases hb
    have hcuts := Scan.cuts_of_tokensFrom hscan rfl hnone
    rwa [Nat.zero_add, String.length_toList] at hcuts

/-- **An identifier is what is one name.** -/
theorem isIdentifier_iff_tokenize (s : String) :
    Text.isIdentifier s = true ↔ (tokenize s).map (·.map (·.lexeme)) = .ok [.name s, .finish] := by
  constructor
  · intro h
    rw [tokenize, scan_of_isIdentifier h]
    rfl
  · intro h
    cases htokens : tokenize s with
    | error fault =>
      rw [htokens] at h
      cases h
    | ok ts =>
      rw [htokens] at h
      have hlexemes : ts.map (·.lexeme) = [.name s, .finish] := Except.ok.inj h
      have hmem : Lexeme.name s ∈ ts.map (·.lexeme) := hlexemes ▸ List.mem_cons_self
      obtain ⟨t, ht, hname⟩ := List.mem_map.1 hmem
      exact (cuts_of_tokenize htokens).isIdentifier ht hname

/-- **Scanning loses nothing.**  Where a text has tokens, it is cut into blanks and their words, one behind the other;
their positions increase, and the last token, at the length of the text, is the only one that marks the end.  The
identifiers are the texts that are one name and nothing else. -/
theorem tokenize_cuts :
    (∀ (source : String) (ts : List Token), tokenize source = .ok ts →
      Cuts [] source.toList ts ∧ (ts.map (·.position)).Pairwise (· < ·) ∧
        ∃ init, ts = init ++ [⟨.finish, source.length⟩] ∧ ∀ t ∈ init, t.lexeme ≠ .finish) ∧
    ∀ s : String, Text.isIdentifier s = true ↔ (tokenize s).map (·.map (·.lexeme)) = .ok [.name s, .finish] := by
  refine ⟨fun source ts h => ?_, isIdentifier_iff_tokenize⟩
  have hcuts := cuts_of_tokenize h
  obtain ⟨init, hinit, hother⟩ := hcuts.exists_init
  rw [List.length_nil, Nat.zero_add, String.length_toList] at hinit
  exact ⟨hcuts, hcuts.increasing.2, init, hinit, hother⟩

/-- A name, a symbol of two characters, a numeral from a point on, and a text with a quote in it. -/
theorem tokenize_cuts_quoted : ∃ (source : String) (ts : List Token), source = "_a1<= .5e1 'b\\'c' " ∧
    tokenize source = .ok ts ∧ ts.map (·.position) = [0, 3, 6, 11, 18] ∧ Cuts [] source.toList ts ∧
      (ts.map (·.position)).Pairwise (· < ·) ∧
      ∃ init, ts = init ++ [⟨.finish, source.length⟩] ∧ ∀ t ∈ init, t.lexeme ≠ .finish := by
  have hpositions : (tokenize "_a1<= .5e1 'b\\'c' ").toOption.map (fun ts => ts.map (·.position)) =
      some [0, 3, 6, 11, 18] := by decide +kernel
  obtain ⟨ts, hts, hpositions⟩ := Option.map_eq_some_iff.1 hpositions
  have htokens : tokenize "_a1<= .5e1 'b\\'c' " = .ok ts := toOption_eq_some_iff.1 hts
  exact ⟨_, ts, rfl, htokens, hpositions, tokenize_cuts.1 _ ts htokens⟩

end Scoresheet
