import Scoresheet.Score.Literal
import Scoresheet.Table
import Scoresheet.Text.Parsed
import Scoresheet.Value

/-!
# Reading JSON

The reader of the plain toolkit.  A text becomes a value.  Every number is read as the nearest double, and of two
entries with one key the later counts.
A text that is not JSON gets the first thing wrong with it, and where: lines count from one, columns in bytes.

Each reader takes the characters that are left and returns what it read with fewer of them, so reading ends on every
text.  Lists and objects may be nested 127 deep.
-/
namespace Scoresheet

namespace Json

/-- What can be wrong with a text. -/
inductive Problem where
  | endInList | endInObject | endInText | endInValue
  | expectedColon | expectedInList | expectedInObject | expectedWord | expectedValue
  | invalidEscape | invalidNumber | numberOutOfRange
  | controlCharacter | keyNotText | loneSurrogate | trailingComma | trailingCharacters | shortEscape
  | tooDeep
deriving DecidableEq

def Problem.message : Problem → String
  | .endInList => "EOF while parsing a list"
  | .endInObject => "EOF while parsing an object"
  | .endInText => "EOF while parsing a string"
  | .endInValue => "EOF while parsing a value"
  | .expectedColon => "expected \x60:\x60"
  | .expectedInList => "expected \x60,\x60 or \x60]\x60"
  | .expectedInObject => "expected \x60,\x60 or \x60\x7d\x60"
  | .expectedWord => "expected ident"
  | .expectedValue => "expected value"
  | .invalidEscape => "invalid escape"
  | .invalidNumber => "invalid number"
  | .numberOutOfRange => "number out of range"
  | .controlCharacter => "control character (\\u0000-\\u001F) found while parsing a string"
  | .keyNotText => "key must be a string"
  | .loneSurrogate => "lone leading surrogate in hex escape"
  | .trailingComma => "trailing comma"
  | .trailingCharacters => "trailing characters"
  | .shortEscape => "unexpected end of hex escape"
  | .tooDeep => "recursion limit exceeded"

/-- A problem, with the characters that are left where it is found, and how many bytes further on it lies. -/
structure Fault where
  problem : Problem
  rest : List Char
  ahead : Nat

abbrev Read (α : Type) (bound : Nat) := Except Fault (Text.Parsed α bound)

def isSpace (c : Char) : Bool := c == ' ' || c == '\n' || c == '\t' || c == '\r'

/-- The characters after leading space. -/
def skip (cs : List Char) : List Char := cs.dropWhile isSpace

theorem length_lt_of_skip {cs rest : List Char} {c : Char} (h : skip cs = c :: rest) : rest.length < cs.length := by
  have hle := Text.length_dropWhile_le isSpace cs
  rw [show cs.dropWhile isSpace = c :: rest from h, List.length_cons] at hle
  omega

/-! ## Words and numbers -/

/-- The characters after a word that must stand at the front. -/
def word : List Char → List Char → Except Fault (List Char)
  | [], cs => .ok cs
  | _ :: _, [] => .error ⟨.endInValue, [], 0⟩
  | l :: ls, c :: cs => if c = l then word ls cs else .error ⟨.expectedWord, c :: cs, 1⟩

theorem length_le_of_word : ∀ {ls cs rest : List Char}, word ls cs = .ok rest → rest.length ≤ cs.length
  | [], cs, rest, h => by
    simp only [word, Except.ok.injEq] at h
    simp [h]
  | _ :: _, [], rest, h => by simp [word] at h
  | l :: ls, c :: cs, rest, h => by
    unfold word at h
    split at h
    · have := length_le_of_word h
      simp only [List.length_cons]; omega
    · simp at h

/-- The digits after the point, where there is one. -/
def fraction (cs : List Char) : Except Fault (List Char × List Char) :=
  match cs with
  | '.' :: rest =>
    let digits := rest.takeWhile isDigit
    let more := rest.dropWhile isDigit
    if digits.isEmpty then
      .error (if more.isEmpty then ⟨.endInValue, [], 0⟩ else ⟨.invalidNumber, more, 1⟩)
    else .ok (digits, more)
  | _ => .ok ([], cs)

/-- The largest exponent that is counted. -/
def maxExponent : Nat := 2147483647

/-- What stands after the first digit that takes an exponent beyond the largest, if one does. -/
def afterExcess? (n : Nat) : List Char → Option (List Char)
  | [] => none
  | d :: ds =>
    if isDigit d then
      let m := 10 * n + (d.toNat - '0'.toNat)
      if maxExponent < m then some ds else afterExcess? m ds
    else none

/-- The digits of the exponent with their sign, where there is one.  An exponent that cannot be counted is a fault
unless the number is zero all the same. -/
def exponent (zero : Bool) (cs : List Char) : Except Fault (Int × List Char) :=
  match cs with
  | c :: rest =>
    if c == 'e' || c == 'E' then
      let (negative, more) := splitSign rest
      let digits := more.takeWhile isDigit
      if digits.isEmpty then
        .error (if more.isEmpty then ⟨.endInValue, [], 0⟩ else ⟨.invalidNumber, more, 1⟩)
      else
        match if negative || zero then none else afterExcess? 0 more with
        | some ds => .error ⟨.numberOutOfRange, ds, 0⟩
        | none =>
          let n : Int := digitsValue digits
          .ok (if negative then -n else n, more.dropWhile isDigit)
    else .ok (0, cs)
  | [] => .ok (0, [])

/-- A number without its sign.  A zero at the front stands alone. -/
def number (negative : Bool) (cs : List Char) : Except Fault (Score × List Char) :=
  match cs with
  | [] => .error ⟨.endInValue, [], 0⟩
  | c :: rest =>
    if !isDigit c then .error ⟨.invalidNumber, c :: rest, 1⟩
    else if c == '0' && (rest.head?.map isDigit).getD false then .error ⟨.invalidNumber, rest, 1⟩
    else do
      let whole := (c :: rest).takeWhile isDigit
      let (digits, more) ← fraction ((c :: rest).dropWhile isDigit)
      let significand := digitsValue (whole ++ digits)
      let (e, more) ← exponent (significand == 0) more
      let n := Score.ofDecimal significand (e - digits.length)
      if n.isFinite then return (if negative then -n else n, more)
      else throw ⟨.numberOutOfRange, more, 0⟩

theorem length_le_of_fraction {cs : List Char} {p : List Char × List Char} (h : fraction cs = .ok p) :
    p.2.length ≤ cs.length := by
  unfold fraction at h
  split at h
  · rename_i more
    dsimp only at h
    split at h
    · simp at h
    · have := Text.length_dropWhile_le isDigit more
      obtain rfl := Except.ok.inj h
      simp only [List.length_cons]; omega
  · obtain rfl := Except.ok.inj h
    simp

theorem length_splitSign_le (cs : List Char) : (splitSign cs).2.length ≤ cs.length := by
  unfold splitSign
  split <;> simp

theorem length_le_of_exponent {zero : Bool} {cs : List Char} {p : Int × List Char} (h : exponent zero cs = .ok p) :
    p.2.length ≤ cs.length := by
  unfold exponent at h
  split at h
  · rename_i c more
    split at h
    · dsimp only at h
      split at h
      · simp at h
      · split at h
        · simp at h
        · have h₁ := length_splitSign_le more
          have h₂ := Text.length_dropWhile_le isDigit (splitSign more).2
          obtain rfl := Except.ok.inj h
          simp only [List.length_cons]; omega
    · obtain rfl := Except.ok.inj h
      simp
  · obtain rfl := Except.ok.inj h
    simp

theorem length_lt_of_number {negative : Bool} {cs rest : List Char} {n : Score}
    (h : number negative cs = .ok (n, rest)) : rest.length < cs.length := by
  unfold number at h
  split at h
  · simp at h
  · rename_i c more
    split at h
    · simp at h
    · split at h
      · simp at h
      · rename_i hc _
        have hc : isDigit c = true := by simpa using hc
        simp only [bind, Except.bind] at h
        split at h
        · simp at h
        · rename_i hf
          split at h
          · simp at h
          · rename_i he
            split at h
            · simp only [pure, Except.pure, Except.ok.injEq, Prod.mk.injEq] at h
              have h₁ := length_le_of_fraction hf
              have h₂ := length_le_of_exponent he
              have h₃ := Text.length_dropWhile_le isDigit more
              simp only [List.dropWhile_cons, hc, if_true] at h₁
              rw [← h.2]
              simp only [List.length_cons]; omega
            · simp [throw, throwThe, MonadExceptOf.throw] at h

/-! ## Texts -/

/-- How many bytes characters take. -/
def bytes (cs : List Char) : Nat := cs.foldl (fun n c => n + c.utf8Size) 0

/-- Four hexadecimal digits. -/
def hex4 (cs : List Char) : Read Nat cs.length :=
  match cs with
  | a :: b :: c :: d :: rest =>
    match digitIn? 16 a, digitIn? 16 b, digitIn? 16 c, digitIn? 16 d with
    | some a, some b, some c, some d =>
      .ok ⟨((a * 16 + b) * 16 + c) * 16 + d, rest, by simp only [List.length_cons]; omega⟩
    | _, _, _, _ => .error ⟨.invalidEscape, cs, 4⟩
  | cs => .error (if bytes cs < 4 then ⟨.endInText, [], 0⟩ else ⟨.invalidEscape, cs, 4⟩)

/-- A character that must stand at the front of the second half of a pair. -/
def pairMark (mark : Char) (cs : List Char) : Read Unit cs.length :=
  match cs with
  | [] => .error ⟨.endInText, [], 0⟩
  | c :: rest => if c = mark then .ok ⟨(), rest, by simp⟩ else .error ⟨.shortEscape, c :: rest, 1⟩

/-- A character by its code, in two halves where it takes more than four digits. -/
def unicode (cs : List Char) : Read Char cs.length := do
  let ⟨n, rest, h⟩ ← hex4 cs
  if 0xdc00 ≤ n ∧ n ≤ 0xdfff then throw ⟨.loneSurrogate, rest, 0⟩
  if n < 0xd800 ∨ 0xdbff < n then return ⟨Char.ofNat n, rest, h⟩
  let ⟨_, rest, h₁⟩ ← pairMark '\\' rest
  let ⟨_, rest, h₂⟩ ← pairMark 'u' rest
  let ⟨n₂, rest, h₃⟩ ← hex4 rest
  if n₂ < 0xdc00 ∨ 0xdfff < n₂ then throw ⟨.loneSurrogate, rest, 0⟩
  return ⟨Char.ofNat ((n - 0xd800) * 0x400 + (n₂ - 0xdc00) + 0x10000), rest, by omega⟩

/-- What stands after a backslash. -/
def escape (cs : List Char) : Read Char cs.length :=
  match cs with
  | [] => .error ⟨.endInText, [], 0⟩
  | c :: rest =>
    match c with
    | '"' => .ok ⟨'"', rest, by simp⟩
    | '\\' => .ok ⟨'\\', rest, by simp⟩
    | '/' => .ok ⟨'/', rest, by simp⟩
    | 'b' => .ok ⟨'\x08', rest, by simp⟩
    | 'f' => .ok ⟨'\x0c', rest, by simp⟩
    | 'n' => .ok ⟨'\n', rest, by simp⟩
    | 'r' => .ok ⟨'\r', rest, by simp⟩
    | 't' => .ok ⟨'\t', rest, by simp⟩
    | 'u' => do
      let ⟨c, more, h⟩ ← unicode rest
      return ⟨c, more, by simp only [List.length_cons]; omega⟩
    | c => .error ⟨.invalidEscape, c :: rest, 1⟩

/-- The characters up to the closing quote, after those read before. -/
def text (done : List Char) (cs : List Char) : Read String cs.length :=
  match cs with
  | [] => .error ⟨.endInText, [], 0⟩
  | c :: rest =>
    if c = '"' then .ok ⟨String.ofList done.reverse, rest, by simp⟩
    else if c = '\\' then do
      let ⟨e, more, h⟩ ← escape rest
      let ⟨s, last, h'⟩ ← text (e :: done) more
      return ⟨s, last, by simp only [List.length_cons]; omega⟩
    else if c.toNat < 0x20 then .error ⟨.controlCharacter, rest, 0⟩
    else do
      let ⟨s, last, h⟩ ← text (c :: done) rest
      return ⟨s, last, by simp only [List.length_cons]; omega⟩
termination_by cs.length

/-! ## Values -/

/-- One more list or object within those that are open. -/
def enter (depth : Nat) (cs : List Char) : Except Fault Nat :=
  if depth ≤ 1 then .error ⟨.tooDeep, cs, 1⟩ else .ok (depth - 1)

/-- A word that stands for a value. -/
def constant (v : Value) (letters : List Char) (cs : List Char) : Read Value (cs.length + 1) :=
  match h : word letters cs with
  | .error e => .error e
  | .ok rest => .ok ⟨v, rest, by have := length_le_of_word h; omega⟩

/-- A number as a value. -/
def numeral (negative : Bool) (cs : List Char) : Read Value cs.length :=
  match h : number negative cs with
  | .error e => .error e
  | .ok (n, rest) => .ok ⟨.number n, rest, length_lt_of_number h⟩

mutual

/-- A value.  `depth` bounds the nesting. -/
def value (depth : Nat) (cs : List Char) : Read Value cs.length :=
  match hs : skip cs with
  | [] => .error ⟨.endInValue, [], 0⟩
  | c :: rest =>
    have hlen := length_lt_of_skip hs
    if c = 'n' then do
      let ⟨v, more, h⟩ ← constant .null ['u', 'l', 'l'] rest
      return ⟨v, more, by omega⟩
    else if c = 't' then do
      let ⟨v, more, h⟩ ← constant (.bool true) ['r', 'u', 'e'] rest
      return ⟨v, more, by omega⟩
    else if c = 'f' then do
      let ⟨v, more, h⟩ ← constant (.bool false) ['a', 'l', 's', 'e'] rest
      return ⟨v, more, by omega⟩
    else if c = '-' then do
      let ⟨v, more, h⟩ ← numeral true rest
      return ⟨v, more, by omega⟩
    else if isDigit c then do
      let ⟨v, more, h⟩ ← numeral false (c :: rest)
      return ⟨v, more, by simp only [List.length_cons] at h; omega⟩
    else if c = '"' then do
      let ⟨s, more, h⟩ ← text [] rest
      return ⟨.text s, more, by omega⟩
    else if c = '[' then do
      let inner ← enter depth (c :: rest)
      let ⟨vs, more, h⟩ ← items inner [] true rest
      return ⟨.list vs, more, by omega⟩
    else if c = '\x7b' then do
      let inner ← enter depth (c :: rest)
      let ⟨es, more, h⟩ ← entries inner [] true rest
      return ⟨.map es, more, by omega⟩
    else .error ⟨.expectedValue, c :: rest, 1⟩
termination_by 2 * cs.length

/-- The items of a list up to its closing bracket, after those read before. -/
def items (depth : Nat) (done : List Value) (first : Bool) (cs : List Char) : Read (List Value) cs.length :=
  match hs : skip cs with
  | [] => .error ⟨.endInList, [], 0⟩
  | c :: rest =>
    have hlen := length_lt_of_skip hs
    if c = ']' then .ok ⟨done.reverse, rest, hlen⟩
    else if first then do
      let ⟨v, more, h⟩ ← value depth (c :: rest)
      let ⟨vs, last, h'⟩ ← items depth (v :: done) false more
      return ⟨vs, last, by simp only [List.length_cons] at h; omega⟩
    else if c = ',' then
      match hr : skip rest with
      | [] => .error ⟨.endInValue, [], 0⟩
      | d :: after =>
        have hmore := length_lt_of_skip hr
        if d = ']' then .error ⟨.trailingComma, d :: after, 1⟩
        else do
          let ⟨v, more, h⟩ ← value depth (d :: after)
          let ⟨vs, last, h'⟩ ← items depth (v :: done) false more
          return ⟨vs, last, by rw [List.length_cons] at h; omega⟩
    else .error ⟨.expectedInList, c :: rest, 1⟩
termination_by 2 * cs.length + 1
decreasing_by
  all_goals (try rw [List.length_cons] at h); (try rw [List.length_cons]); omega

/-- The entries of an object up to its closing brace, after those read before. -/
def entries (depth : Nat) (done : List (String × Value)) (first : Bool) (cs : List Char) :
    Read (List (String × Value)) cs.length :=
  match hs : skip cs with
  | [] => .error ⟨.endInObject, [], 0⟩
  | c :: rest =>
    have hlen := length_lt_of_skip hs
    if c = '\x7d' then .ok ⟨done, rest, hlen⟩
    else if first then
      if c = '"' then do
        let ⟨es, last, h⟩ ← entry depth done rest
        return ⟨es, last, by omega⟩
      else .error ⟨.keyNotText, c :: rest, 1⟩
    else if c = ',' then
      match hr : skip rest with
      | [] => .error ⟨.endInValue, [], 0⟩
      | d :: after =>
        have hmore := length_lt_of_skip hr
        if d = '"' then do
          let ⟨es, last, h⟩ ← entry depth done after
          return ⟨es, last, by omega⟩
        else if d = '\x7d' then .error ⟨.trailingComma, d :: after, 1⟩
        else .error ⟨.keyNotText, d :: after, 1⟩
    else .error ⟨.expectedInObject, c :: rest, 1⟩
termination_by 2 * cs.length + 1
decreasing_by
  all_goals omega

/-- An entry from after the opening quote of its key, and the entries after it. -/
def entry (depth : Nat) (done : List (String × Value)) (cs : List Char) :
    Read (List (String × Value)) cs.length := do
  let ⟨k, rest, h⟩ ← text [] cs
  match hs : skip rest with
  | [] => throw ⟨.endInObject, [], 0⟩
  | c :: after =>
    have hlen := length_lt_of_skip hs
    if c = ':' then
      let ⟨v, more, h'⟩ ← value depth after
      let ⟨es, last, h''⟩ ← entries depth (Table.put k v done) false more
      return ⟨es, last, by omega⟩
    else throw ⟨.expectedColon, c :: after, 1⟩
termination_by 2 * cs.length
decreasing_by
  all_goals omega

end

/-- Where a text is wrong. -/
structure Complaint where
  problem : Problem
  line : Nat
  column : Nat
deriving DecidableEq

def Complaint.message (c : Complaint) : String :=
  s!"{c.problem.message} at line {c.line} column {c.column}"

/-- The line and column of a byte. -/
def Fault.locate (source : List Char) (f : Fault) : Complaint :=
  let all := (String.ofList source).toUTF8.toList
  let before := all.take (all.length - bytes f.rest + f.ahead)
  let line := before.count 10
  ⟨f.problem, line + 1, (before.reverse.takeWhile (· != 10)).length⟩

/-- How many levels of nesting are told apart from too many. -/
def maxDepth : Nat := 128

/-- The value that a text is. -/
def read (source : String) : Except Complaint Value :=
  let cs := source.toList
  match value maxDepth cs with
  | .error f => .error (f.locate cs)
  | .ok v =>
    match skip v.rest with
    | [] => .ok v.value
    | rest => .error (Fault.locate cs ⟨.trailingCharacters, rest, 1⟩)

end Json

end Scoresheet
