import Scoresheet.Score.Literal
import Scoresheet.Text.Letters

/-!
# Patterns

Whether a text is a regular expression: characters, sets in brackets, groups, alternatives and repetitions.  A set is
told by its members, never by a letter that names it.  Matching without regard to case, look-around, back references and
word boundaries are not among them, and neither is anything in braces.
-/
namespace Scoresheet.Text

namespace Pattern

/-- What stands behind a backslash: a character, or an edge of the text. -/
inductive Escape where
  | char (c : Char)
  | edge
deriving DecidableEq

def isAlphanumeric (c : Char) : Bool := isDigit c || ('a' ≤ c && c ≤ 'z') || ('A' ≤ c && c ≤ 'Z')

/-- A character that a backslash takes the meaning from, if it has one. -/
def isMark (c : Char) : Bool := decide (c.toNat < 0x80) && !isAlphanumeric c && c != '<' && c != '>'

/-- The characters that a letter behind a backslash stands for. -/
def letters : List (Char × Char) :=
  [('a', '\x07'), ('f', '\x0c'), ('t', '\t'), ('n', '\n'), ('r', '\r'), ('v', '\x0b')]

/-- What stands behind a backslash, and the characters after it. -/
def escape? : List Char → Option (Escape × List Char)
  | [] => none
  | c :: rest =>
    if isMark c then some (.char c, rest)
    else if c == 'A' || c == 'z' then some (.edge, rest)
    else match letters.find? fun p => p.1 == c, codeWidth? c with
      | some p, _ => some (.char p.2, rest)
      | none, some width =>
        if (rest.take width).length < width then none
        else (naturalIn? 16 (rest.take width)).bind fun n =>
          if n.isValidChar then some (.char (Char.ofNat n), rest.drop width) else none
      | none, none => none

/-! ## Sets -/

/-- A member of a set, and the characters after it. -/
def member? : List Char → Option (Char × List Char)
  | [] => none
  | '\\' :: rest =>
    match escape? rest with
    | some (.char c, rest) => some (c, rest)
    | _ => none
  | c :: rest => some (c, rest)

/-- The characters behind the bracket that opens a set, a sign for the rest of all characters, and what stands for
itself at the start: hyphens, or else one closing bracket. -/
def opened (cs : List Char) : List Char :=
  let body := match cs with
    | '^' :: rest => rest
    | cs => cs
  match body with
  | ']' :: rest => rest
  | body => body.dropWhile (· == '-')

/-- The characters after a member of a set, which may be a range of characters from a lower to a higher one. -/
def afterMember? (cs : List Char) : Option (List Char) :=
  (member? cs).bind fun (low, rest) =>
    match rest with
    | '-' :: ']' :: _ => some rest
    | '-' :: '-' :: _ => some rest
    | '-' :: more =>
      (member? more).bind fun (high, rest) => if low ≤ high then some rest else none
    | _ => some rest

/-- The characters after sets that are open, in which further sets may stand.  Each step takes at least one character,
so as many steps as characters are enough. -/
def afterSets? : Nat → Nat → List Char → Option (List Char)
  | _, 0, cs => some cs
  | 0, _, _ => none
  | _, _, [] => none
  | steps + 1, depth + 1, c :: rest =>
    match c, rest with
    | '[', rest => afterSets? steps (depth + 2) (opened rest)
    | ']', rest => afterSets? steps depth rest
    | '&', '&' :: rest => afterSets? steps (depth + 1) rest
    | '-', '-' :: rest => afterSets? steps (depth + 1) rest
    | '~', '~' :: rest => afterSets? steps (depth + 1) rest
    | c, rest => (afterMember? (c :: rest)).bind (afterSets? steps (depth + 1))

/-! ## Groups -/

/-- What a bracket opens: a group, perhaps with a name, or options for what follows. -/
inductive Opening where
  | group (name : Option (List Char))
  | options

/-- Whether letters are options: none of them twice, no second hyphen, none at the end.  Those before the hyphen are
switched on and those after it off; case always matters. -/
def areOptions (cs : List Char) : Bool :=
  cs.all (fun c => ['i', 'm', 's', 'U', 'u', 'R', 'x', '-'].contains c) && decide cs.Nodup && cs.getLast? != some '-' &&
    !(cs.takeWhile (· != '-')).contains 'i'

/-- The name of a group. -/
def isGroupName : List Char → Bool
  | [] => false
  | c :: rest =>
    (c == '_' || isLetter c) &&
      rest.all fun c => c == '.' || c == '[' || c == ']' || isWordChar c

/-- What a bracket opens, and the characters after it. -/
def opening? (cs : List Char) : Option (Opening × List Char) :=
  let named (cs : List Char) : Option (Opening × List Char) :=
    let name := cs.takeWhile (· != '>')
    match cs.dropWhile (· != '>') with
    | _ :: rest => if isGroupName name then some (.group (some name), rest) else none
    | [] => none
  match cs with
  | '?' :: 'P' :: '<' :: rest => named rest
  | '?' :: '<' :: rest => named rest
  | '?' :: rest =>
    let options := rest.takeWhile fun c => c != ':' && c != ')'
    if !areOptions options then none
    else match rest.drop options.length with
      | ':' :: rest => some (.group none, rest)
      | _ :: rest => if options.isEmpty then none else some (.options, rest)
      | [] => none
  | cs => some (.group none, cs)

/-! ## The whole -/

/-- Whether characters complete a pattern of which `groups` groups are open.  `repeatable` says whether there is
something before them that can be repeated, and `names` holds the names of groups.  Each step takes at least one
character, so as many steps as characters are enough. -/
def completes : Nat → Nat → Bool → List (List Char) → List Char → Bool
  | _, groups, _, _, [] => groups == 0
  | 0, _, _, _, _ => false
  | steps + 1, groups, repeatable, names, c :: rest =>
    if c == '(' then
      match opening? rest with
      | none => false
      | some (.options, rest) => completes steps groups false names rest
      | some (.group none, rest) => completes steps (groups + 1) false names rest
      | some (.group (some name), rest) =>
        !names.contains name && completes steps (groups + 1) false (name :: names) rest
    else if c == ')' then groups != 0 && completes steps (groups - 1) true names rest
    else if c == '|' then completes steps groups false names rest
    else if c == '?' || c == '*' || c == '+' then
      repeatable && completes steps groups true names (match rest with
        | '?' :: rest => rest
        | rest => rest)
    else if c == '\x7b' then false
    else if c == '[' then
      match afterSets? (rest.length + 1) 1 (opened rest) with
      | some rest => completes steps groups true names rest
      | none => false
    else if c == '\\' then
      match escape? rest with
      | some (_, rest) => completes steps groups true names rest
      | none => false
    else completes steps groups true names rest

end Pattern

/-- Whether characters are a pattern. -/
def isPattern (cs : List Char) : Bool := Pattern.completes cs.length 0 false [] cs

end Scoresheet.Text
