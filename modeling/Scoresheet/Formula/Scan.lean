import Scoresheet.Error
import Scoresheet.Score.Literal
import Scoresheet.Text.Blank

/-!
# Scanning

A formula's text cut into tokens.  Blanks separate tokens and belong to none.  At each other character exactly one
kind of lexeme can start: a number at a digit, or at a point before a digit; a quoted text at a quote; a name at a
letter or underscore; else the longest symbol that fits.  Every lexeme is as long as it can be.
-/
namespace Scoresheet

namespace Scan

/-! ## Numbers -/

/-- The exponent at the front: `e`, an optional sign and at least one digit, or nothing. -/
def exponentPart : List Char → List Char
  | [] => []
  | c :: cs =>
    if c == 'e' || c == 'E' then
      let sign := (cs.take 1).filter fun s => s == '+' || s == '-'
      let digits := (cs.drop sign.length).takeWhile isDigit
      if digits.isEmpty then [] else c :: sign ++ digits
    else []

/-- The point and the digits after it at the front, or nothing. -/
def fractionPart : List Char → List Char
  | '.' :: cs => '.' :: cs.takeWhile isDigit
  | _ => []

/-- The longest numeral at the front. -/
def numeral (cs : List Char) : List Char :=
  let whole := cs.takeWhile isDigit
  let rest := cs.dropWhile isDigit
  let fraction := fractionPart rest
  whole ++ fraction ++ exponentPart (rest.drop fraction.length)

/-- A number starts at a digit or at a point before a digit. -/
def startsNumber (c : Char) (cs : List Char) : Bool :=
  isDigit c || (c == '.' && cs.head?.any isDigit)

/-! ## Quoted texts -/

/-- What a backslash and the character after it stand for; an unknown pair stands for itself. -/
def unescape : Char → List Char
  | 'n' => ['\n']
  | 't' => ['\t']
  | '\\' => ['\\']
  | '\'' => ['\'']
  | '"' => ['"']
  | c => ['\\', c]

/-- The text up to the closing quote, and the number of characters it took with that quote. -/
def quoted (quote : Char) : List Char → Option (List Char × Nat)
  | [] => none
  | c :: cs =>
    if c = quote then some ([], 1)
    else if c = '\\' then
      match cs with
      | [] => none
      | e :: rest => (quoted quote rest).map fun (body, n) => (unescape e ++ body, n + 2)
    else (quoted quote cs).map fun (body, n) => (c :: body, n + 1)

/-! ## Tokens -/

/-- The symbol at the front, the longest if several fit. -/
def symbol? (cs : List Char) : Option Symbol := Symbol.all.find? fun s => s.chars.isPrefixOf cs

/-- The lexeme that starts at `c`, and how many of the characters after `c` belong to it. -/
def lexeme (position : Nat) (c : Char) (cs : List Char) : Except FormulaFault (Lexeme × Nat) :=
  if startsNumber c cs then
    let word := numeral (c :: cs)
    let rest := (c :: cs).drop word.length
    if rest.head?.any Text.startsName then .error (.malformedNumber position)
    else match Score.ofUnsigned? word with
      | some n => .ok (.number n, word.length - 1)
      | none => .error (.malformedNumber position)
  else if c == '\'' || c == '"' then
    match quoted c cs with
    | some (body, n) => .ok (.text (String.ofList body), n)
    | none => .error (.unterminatedText position)
  else if Text.startsName c then
    let word := cs.takeWhile Text.continuesName
    .ok (.name (String.ofList (c :: word)), word.length)
  else match symbol? (c :: cs) with
    | some s => .ok (.symbol s, s.chars.length - 1)
    | none => .error (.unexpectedCharacter position c)

/-- The tokens of the characters from a position on, without the final one. -/
def tokensFrom (position : Nat) : List Char → Except FormulaFault (List Token)
  | [] => .ok []
  | c :: cs =>
    if Text.isBlank c then tokensFrom (position + 1) cs
    else
      match lexeme position c cs with
      | .error fault => .error fault
      | .ok (lex, more) =>
        match tokensFrom (position + 1 + more) (cs.drop more) with
        | .error fault => .error fault
        | .ok rest => .ok (⟨lex, position⟩ :: rest)
termination_by cs => cs.length
decreasing_by all_goals simp only [List.length_cons, List.length_drop]; omega

end Scan

/-- The tokens of a text, without the final one. -/
def scan (source : String) : Except FormulaFault (List Token) := Scan.tokensFrom 0 source.toList

/-- The tokens of a text; the last marks its end. -/
def tokenize (source : String) : Except FormulaFault (List Token) :=
  (scan source).map (· ++ [⟨.finish, source.length⟩])

end Scoresheet
