import Scoresheet.Score.Text

/-!
# Tokens

The words of a formula: numbers, quoted texts, names and symbols, each with the position of its first character.
-/
namespace Scoresheet

/-- The symbols, the ones that no formula may use among them, so that a message can name them. -/
inductive Symbol where
  | power | floorDivide | equal | notEqual | atMost | atLeast
  | plus | minus | times | divide | modulo
  | openParen | closeParen | openBracket | closeBracket | openBrace | closeBrace
  | comma | colon | assign | dot | less | greater | bang | ampersand | bar | caret | tilde | atSign
deriving DecidableEq

namespace Symbol

def text : Symbol → String
  | .power => "**"
  | .floorDivide => "//"
  | .equal => "=="
  | .notEqual => "!="
  | .atMost => "<="
  | .atLeast => ">="
  | .plus => "+"
  | .minus => "-"
  | .times => "*"
  | .divide => "/"
  | .modulo => "%"
  | .openParen => "("
  | .closeParen => ")"
  | .openBracket => "["
  | .closeBracket => "]"
  | .openBrace => "\x7b"
  | .closeBrace => "\x7d"
  | .comma => ","
  | .colon => ":"
  | .assign => "="
  | .dot => "."
  | .less => "<"
  | .greater => ">"
  | .bang => "!"
  | .ampersand => "&"
  | .bar => "|"
  | .caret => "^"
  | .tilde => "~"
  | .atSign => "@"

/-- All symbols, those of two characters first, so that the first one that fits is the longest. -/
def all : List Symbol :=
  [.power, .floorDivide, .equal, .notEqual, .atMost, .atLeast, .plus, .minus, .times, .divide, .modulo, .openParen,
   .closeParen, .openBracket, .closeBracket, .openBrace, .closeBrace, .comma, .colon, .assign, .dot, .less, .greater,
   .bang, .ampersand, .bar, .caret, .tilde, .atSign]

def chars (s : Symbol) : List Char := s.text.toList

end Symbol

inductive Lexeme where
  | number (n : Score)
  | text (s : String)
  | name (s : String)
  | symbol (s : Symbol)
  | finish
deriving DecidableEq

/-- A word of a formula and the position of its first character, counted in characters. -/
structure Token where
  lexeme : Lexeme
  position : Nat
deriving DecidableEq

namespace Lexeme

/-- How a message says what was found. -/
def description : Lexeme → String
  | .number n => s!"number {n.text}"
  | .text s => s!"string '{s}'"
  | .name s => s!"name '{s}'"
  | .symbol s => s!"'{s.text}'"
  | .finish => "end of expression"

end Lexeme

end Scoresheet
