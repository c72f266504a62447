import Scoresheet.Text.Letters

/-!
# Names

What a formula may use as a name: a letter or underscore, then letters, numerals and underscores.  Names that start
with two underscores are kept for internal keys and are never safe to write in a formula.
-/
namespace Scoresheet.Text

/-- The characters a name may start with. -/
def startsName (c : Char) : Bool := isLetter c || c == '_'

/-- The characters a name may go on with. -/
def continuesName (c : Char) : Bool := isWordChar c || c == '_'

def isIdentifier (s : String) : Bool :=
  match s.toList with
  | [] => false
  | c :: cs => startsName c && cs.all continuesName

/-- A name that a formula may refer to. -/
def isSafeName (s : String) : Bool :=
  isIdentifier s && !(['_', '_'].isPrefixOf s.toList)

theorem continuesName_of_startsName {c : Char} (h : startsName c = true) : continuesName c = true := by
  simp only [startsName, continuesName, Bool.or_eq_true] at h ⊢
  exact h.imp_left isWordChar_of_isLetter

end Scoresheet.Text
