import Scoresheet.Table
import Scoresheet.Text.Parsed
import Scoresheet.Yaml.Scalar

/-!
# Reading YAML

The reader of the plain toolkit.  Of YAML it knows a single scalar, lists and objects in brackets and braces, of which
JSON is a part, and flat settings, one `key: value` to a line; lists and objects that are told by their indentation it
does not know.  Comments and the marks around a document are skipped.  No object has a key twice.

A text becomes a node first.  A node keeps what a word looks like and whether it was quoted, so that what it stands for
is settled by what is wanted: a truth value, a count, a text, or whatever it may be.
-/
namespace Scoresheet

namespace Yaml

/-- What a text holds, before words are told apart. -/
inductive Node where
  | scalar (text : String) (quoted : Bool)
  | list (items : List Node)
  | map (entries : List (String × Node))

namespace Node

instance : Inhabited Node := ⟨.scalar "" false⟩

/-- Nothing written at all. -/
def nothing : Node := .scalar "" false

mutual

/-- The value of a node, whatever it may be. -/
def value : Node → Value
  | .scalar s true => .text s
  | .scalar s false => wordValue s
  | .list ns => .list (values ns)
  | .map es => .map (entryValues es)

def values : List Node → List Value
  | [] => []
  | n :: ns => n.value :: values ns

def entryValues : List (String × Node) → List (String × Value)
  | [] => []
  | (k, n) :: es => (k, n.value) :: entryValues es

end

end Node

/-- The answer of a reader. -/
abbrev Read (α : Type) (bound : Nat) := Option (Text.Parsed α bound)

/-! ## Between the words -/

def isSpace (c : Char) : Bool := c == ' ' || c == '\t'

def isBreak (c : Char) : Bool := c == '\n'

/-- A text with every line break as a line feed. -/
def lineFeeds : List Char → List Char
  | [] => []
  | '\r' :: '\n' :: rest => '\n' :: lineFeeds rest
  | '\r' :: rest => '\n' :: lineFeeds rest
  | c :: rest => c :: lineFeeds rest

/-- The characters after space, line breaks and comments.  A comment starts where a word could: `apart` says whether
there is space before the characters. -/
def skip (apart comment : Bool) : List Char → List Char
  | [] => []
  | c :: rest =>
    if comment then skip true (!isBreak c) rest
    else if isSpace c || isBreak c then skip true false rest
    else if c == '#' && apart then skip true true rest
    else c :: rest

theorem length_skip_le : ∀ (apart comment : Bool) (cs : List Char), (skip apart comment cs).length ≤ cs.length
  | _, _, [] => by simp [skip]
  | apart, comment, c :: rest => by
    unfold skip
    split
    · have := length_skip_le true (!isBreak c) rest
      simp only [List.length_cons]; omega
    · split
      · have := length_skip_le true false rest
        simp only [List.length_cons]; omega
      · split
        · have := length_skip_le true true rest
          simp only [List.length_cons]; omega
        · simp

/-- The next character that is neither space nor in a comment. -/
def next? (apart : Bool) (cs : List Char) : Read Char cs.length :=
  match h : skip apart false cs with
  | [] => none
  | c :: rest => some ⟨c, rest, by have := length_skip_le apart false cs; rw [h] at this; exact this⟩

/-! ## Words over several lines -/

/-- A word that is being read: its characters so far, last one first, then the space and the line breaks that belong to
it only if more of it follows. -/
structure Word where
  done : List Char := []
  space : List Char := []
  breaks : Nat := 0

namespace Word

/-- The characters with what stands after them: a single line break is a blank, further ones count as they are. -/
def settled (w : Word) : List Char :=
  match w.breaks with
  | 0 => w.space ++ w.done
  | 1 => ' ' :: w.done
  | n + 2 => List.replicate (n + 1) '\n' ++ w.done

def add (w : Word) (c : Char) : Word := { done := c :: w.settled }

def addSpace (w : Word) (c : Char) : Word := if w.breaks = 0 then { w with space := c :: w.space } else w

def addBreak (w : Word) : Word := { done := w.done, breaks := w.breaks + 1 }

/-- The text of a word that ends in quotes. -/
def text (w : Word) : String := String.ofList w.settled.reverse

/-- The text of a word that ends by itself. -/
def trimmed (w : Word) : String := String.ofList w.done.reverse

/-- Whether there is space after the characters. -/
def isApart (w : Word) : Bool := !w.space.isEmpty || w.breaks != 0

end Word

/-! ## Quoted words -/

/-- A word with one more character as it stands in the text. -/
def Word.addAny (w : Word) (c : Char) : Word :=
  if isBreak c then w.addBreak else if isSpace c then w.addSpace c else w.add c

/-- The characters up to the closing single quote; two of them stand for one. -/
def single (w : Word) (cs : List Char) : Read String cs.length :=
  match cs with
  | [] => none
  | '\x27' :: '\x27' :: rest => (single (w.add '\x27') rest).map (·.behind.behind)
  | c :: rest =>
    if c = '\x27' then some (.leaving w.text rest)
    else (single (w.addAny c) rest).map (·.behind)

/-- The characters that a letter behind a backslash stands for. -/
def escapes : List (Char × Char) := letters ++ [('\t', '\t'), (' ', ' '), ('/', '/'), ('_', '\u00a0')]

/-- A number of so many hexadecimal digits. -/
def code (width : Nat) (cs : List Char) : Read Nat (cs.length + 1) :=
  if (cs.take width).length = width then
    (naturalIn? 16 (cs.take width)).map fun n => ⟨n, cs.drop width, Text.length_drop_lt width cs⟩
  else none

/-- The second half of a pair of codes. -/
def secondHalf (cs : List Char) : Read Nat (cs.length + 1) :=
  match cs with
  | '\\' :: 'u' :: rest => ((code 4 rest).filter fun p => 0xdc00 ≤ p.value && p.value ≤ 0xdfff).map (·.behind.behind)
  | _ => none

/-- A character by its code, in two halves where it takes more than four digits. -/
def coded (width : Nat) (cs : List Char) : Read Char (cs.length + 1) :=
  (code width cs).bind fun p =>
    if 0xd800 ≤ p.value ∧ p.value ≤ 0xdbff then
      (secondHalf p.rest).map fun q =>
        p.orThen (q.map fun m => Char.ofNat ((p.value - 0xd800) * 0x400 + (m - 0xdc00) + 0x10000))
    else if p.value.isValidChar then some (p.map Char.ofNat)
    else none

/-- What stands after a backslash. -/
def escape (cs : List Char) : Read Char cs.length :=
  match cs with
  | [] => none
  | c :: rest =>
    match escapes.find? fun p => p.1 == c with
    | some p => some (.leaving p.2 rest)
    | none => (codeWidth? c).bind fun width => coded width rest

/-- The characters up to the closing double quote. -/
def double (w : Word) (cs : List Char) : Read String cs.length :=
  match cs with
  | [] => none
  | c :: rest =>
    if c = '"' then some (.leaving w.text rest)
    else if c = '\\' then do
      let p ← escape rest
      have := p.shorter
      let q ← double (w.add p.value) p.rest
      return (p.andThen q).behind
    else (double (w.addAny c) rest).map (·.behind)
termination_by cs.length
decreasing_by
  all_goals (try rw [List.length_cons]); omega

/-! ## Plain words -/

/-- The marks that end a word between brackets or braces. -/
def isFlowMark (c : Char) : Bool := [',', '[', ']', '\x7b', '\x7d'].contains c

/-- Whether a colon with these characters behind it ends a key; `inFlow` says whether brackets or braces are open. -/
def isKeyEnd (inFlow : Bool) : List Char → Bool
  | [] => true
  | d :: _ => isSpace d || isBreak d || (inFlow && isFlowMark d)

/-- Whether a plain word may start with a character and those behind it. -/
def startsPlain (inFlow : Bool) (c : Char) (rest : List Char) : Bool :=
  if c == '-' || c == '?' || c == ':' then !isKeyEnd inFlow rest
  else !indicators.contains c && !isSpace c && !isBreak c

/-- Whether a plain word ends before a character and those behind it. -/
def endsPlain (inFlow : Bool) (w : Word) (c : Char) (rest : List Char) : Bool :=
  (c == ':' && isKeyEnd inFlow rest) || (c == '#' && w.isApart) || (inFlow && isFlowMark c)

/-- A plain word; `manyLines` says whether it may go on behind a line break. -/
def plain (inFlow manyLines : Bool) (w : Word) (cs : List Char) : Text.Parsed String (cs.length + 1) :=
  match cs with
  | [] => .leaving w.trimmed []
  | c :: rest =>
    if isBreak c && !manyLines then .leaving w.trimmed (c :: rest)
    else if isBreak c || isSpace c then (plain inFlow manyLines (w.addAny c) rest).behind
    else if endsPlain inFlow w c rest then .leaving w.trimmed (c :: rest)
    else (plain inFlow manyLines (w.add c) rest).behind

/-- A quoted word, or a plain one. -/
def scalar (inFlow manyLines : Bool) (cs : List Char) : Read Node cs.length :=
  match cs with
  | [] => none
  | c :: rest =>
    if c = '"' then (double {} rest).map fun p => (p.map (Node.scalar · true)).behind
    else if c = '\x27' then (single {} rest).map fun p => (p.map (Node.scalar · true)).behind
    else if startsPlain inFlow c rest then
      some ((plain inFlow manyLines (Word.add {} c) rest).map (Node.scalar · false))
    else none

/-! ## Brackets and braces -/

/-- How deep brackets and braces may be nested. -/
def maxDepth : Nat := 255

/-- A key that was not met before. -/
def newKey? (done : List (String × Node)) : Node → Option String
  | .scalar s _ => if (Table.find? s done).isSome then none else some s
  | _ => none

mutual

/-- A scalar, a list or an object.  `depth` bounds the nesting. -/
def node (depth : Nat) (cs : List Char) : Read Node cs.length :=
  match depth, cs with
  | depth + 1, '[' :: rest => (items depth [] rest).map fun p => (p.map Node.list).behind
  | depth + 1, '\x7b' :: rest => (entries depth [] rest).map fun p => (p.map Node.map).behind
  | _, cs => scalar true true cs
termination_by 3 * cs.length

/-- The items of a list up to its closing bracket, after those read before. -/
def items (depth : Nat) (done : List Node) (cs : List Char) : Read (List Node) cs.length := do
  let p ← next? true cs
  have := p.shorter
  if p.value = ']' then return p.map fun _ => done.reverse
  else
    let q ← node depth (p.value :: p.rest)
    have := q.shorter
    let r ← afterItem depth (q.value :: done) q.rest
    return p.orThen (q.andThen r)
termination_by 3 * cs.length + 1
decreasing_by
  all_goals (try simp only [List.length_cons] at *); omega

/-- What stands after an item: a comma and further items, or the closing bracket. -/
def afterItem (depth : Nat) (done : List Node) (cs : List Char) : Read (List Node) cs.length := do
  let p ← next? false cs
  have := p.shorter
  if p.value = ']' then return p.map fun _ => done.reverse
  else if p.value = ',' then
    let q ← items depth done p.rest
    return p.andThen q
  else none
termination_by 3 * cs.length + 2
decreasing_by
  all_goals omega

/-- The entries of an object up to its closing brace, after those read before. -/
def entries (depth : Nat) (done : List (String × Node)) (cs : List Char) : Read (List (String × Node)) cs.length := do
  let p ← next? true cs
  have := p.shorter
  if p.value = '\x7d' then return p.map fun _ => done
  else
    let q ← scalar true true (p.value :: p.rest)
    have := q.shorter
    let k ← newKey? done q.value
    let r ← member depth q.rest
    have := r.shorter
    let t ← afterEntry depth (Table.put k r.value done) r.rest
    return p.orThen (q.orThen (r.andThen t))
termination_by 3 * cs.length + 1
decreasing_by
  all_goals (try simp only [List.length_cons] at *); omega

/-- The value of a key: what stands after the colon, or nothing. -/
def member (depth : Nat) (cs : List Char) : Read Node (cs.length + 1) := do
  let p ← next? false cs
  have := p.shorter
  if p.value = ':' then
    let q ← next? false p.rest
    have := q.shorter
    if q.value = ',' ∨ q.value = '\x7d' then return (p.orThen (q.putBack .nothing)).behind
    else
      let r ← node depth (q.value :: q.rest)
      return (p.andThen (q.orThen r)).behind
  else return p.putBack .nothing
termination_by 3 * cs.length + 1
decreasing_by
  all_goals (try simp only [List.length_cons] at *); omega

/-- What stands after an entry: a comma and further entries, or the closing brace. -/
def afterEntry (depth : Nat) (done : List (String × Node)) (cs : List Char) :
    Read (List (String × Node)) cs.length := do
  let p ← next? false cs
  have := p.shorter
  if p.value = '\x7d' then return p.map fun _ => done
  else if p.value = ',' then
    let q ← entries depth done p.rest
    return p.andThen q
  else none
termination_by 3 * cs.length + 2
decreasing_by
  all_goals omega

end

/-! ## Flat settings -/

/-- The next line that says something, without the blanks before it, and how many those are. -/
def nextLine (column : Nat) (comment : Bool) : List Char → Nat × List Char
  | [] => (0, [])
  | c :: rest =>
    if isBreak c then nextLine 0 false rest
    else if comment then nextLine column true rest
    else if c == ' ' then nextLine (column + 1) false rest
    else if c == '#' then nextLine column true rest
    else (column, c :: rest)

/-- The characters from the end of a line on which only a comment may stand. -/
def lineEnd? (apart : Bool) : List Char → Option (List Char)
  | [] => some []
  | c :: rest =>
    if isBreak c then some (c :: rest)
    else if isSpace c then lineEnd? true rest
    else if c == '#' && apart then some (rest.dropWhile (!isBreak ·))
    else none

/-- The value of a key on its line, and what stands behind it. -/
def inlineNode? (cs : List Char) : Option (Node × List Char) :=
  match cs with
  | [] => some (.nothing, [])
  | c :: rest =>
    if isBreak c || c == '#' then some (.nothing, c :: rest)
    else if c == '[' || c == '\x7b' then (node maxDepth (c :: rest)).map fun p => (p.value, p.rest)
    else (scalar false false (c :: rest)).map fun p => (p.value, p.rest)

/-- A line with a key and its value: both, and the characters from the end of the line on. -/
def setting? (cs : List Char) : Option (Node × Node × List Char) :=
  (scalar false false cs).bind fun p =>
    match p.rest.dropWhile isSpace with
    | ':' :: rest =>
      if isKeyEnd false rest then
        (inlineNode? (rest.dropWhile isSpace)).bind fun (v, rest) =>
          (lineEnd? true rest).map fun rest => (p.value, v, rest)
      else none
    | _ => none

/-- Whether nothing more stands in a text: at most a mark for the end. -/
def isFinished (cs : List Char) : Bool :=
  match skip false false cs with
  | [] => true
  | '.' :: '.' :: '.' :: rest => (skip true false rest).isEmpty
  | _ => false

/-- The settings on lines that start in one column, after those read before.  Each takes at least one character, so as
many steps as characters are enough. -/
def settings (column : Nat) : Nat → List (String × Node) → List Char → Option (List (String × Node))
  | 0, _, _ => none
  | steps + 1, done, cs => do
    let (k, v, rest) ← setting? cs
    let k ← newKey? done k
    let done := Table.put k v done
    if isFinished rest then some done
    else
      let (next, cs) := nextLine 0 false rest
      if next = column then settings column steps done cs else none

/-! ## Documents -/

/-- The characters after the mark for the start of a document. -/
def withoutMark (cs : List Char) : List Char :=
  match skip true false cs with
  | '-' :: '-' :: '-' :: rest => if isKeyEnd false rest then rest else cs
  | _ => cs

/-- The node of a text, where it has one of the forms. -/
def read? (source : String) : Option Node :=
  let cs := lineFeeds source.toList
  let body := withoutMark (match cs with
    | '\ufeff' :: rest => rest
    | cs => cs)
  let (column, cs) := nextLine 0 false body
  let whole (p : Text.Parsed Node cs.length) : Option Node := if isFinished p.rest then some p.value else none
  if isFinished cs then some .nothing
  else if cs.head? == some '[' || cs.head? == some '\x7b' then (node maxDepth cs).bind whole
  else match settings column (cs.length + 1) [] cs with
    | some es => some (.map es)
    | none => (scalar false true cs).bind whole

end Yaml

end Scoresheet
