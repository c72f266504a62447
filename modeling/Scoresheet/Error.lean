import Scoresheet.Formula.Dialect
import Scoresheet.Formula.Function
import Scoresheet.Formula.Token

/-!
# Errors

What can go wrong while a schema is read, a formula is compiled, or a sheet is scored, by cause.  `Error.message` has
all the wording.
-/
namespace Scoresheet

/-- What is wrong with a schema document. -/
inductive SchemaFault where
  | notAnObject
  | notAList (key : String)
  | parametersNotAnObject
  | parametersNull
  | missingCode
  | duplicateCode (code : String)
deriving DecidableEq

/-- What a formula should have had where it had something else. -/
inductive Expectation where
  | symbol (s : Symbol)
  | expression
  | finish
  | noMorePositional
deriving DecidableEq

/-- What is wrong with the text of a formula, with a name in it, or with the arguments of a call. -/
inductive FormulaFault where
  | unexpectedCharacter (position : Nat) (c : Char)
  | malformedNumber (position : Nat)
  | unterminatedText (position : Nat)
  | expected (position : Nat) (what : Expectation) (found : Lexeme)
  | comparison (s : Symbol)
  | operator (s : Symbol)
  | tooDeep (levels : Nat)
  | indirectCall
  | unknownFunction (name : String)
  | slice
  | attribute
  | keyword (word : String)
  | setLiteral
  | repeatedKeyword (f : Function) (name : String)
  | nameOutside (d : Dialect) (name : String)
  | noneOutside (d : Dialect)
  | callOutside (d : Dialect) (f : Function)
  | containerOutside (d : Dialect)
  | unknownName (name : String)
  | tooManyArguments (f : Function) (given : Nat)
  | unexpectedKeyword (f : Function) (name : String)
  | boundTwice (f : Function) (name : String)
  | missingArgument (f : Function) (name : String)
  | unsafeSource (f : Function) (name : String)
  | unknownSource (f : Function) (name : String)
deriving DecidableEq

/-- What is wrong with a selection, an aggregate, or a mode. -/
inductive SelectionFault where
  | unknownMethod (name : String)
  | countRequired (name : String)
  | unknownAggregate (name : String)
  | basis (parameter : String) (given : String)
  | returnMode (f : Function) (perLine : String) (given : String)
deriving DecidableEq

inductive ArithmeticFault where
  | divisionByZero
  | moduloByZero
deriving DecidableEq

/-- A value of the wrong kind.  Kinds are given by their words. -/
inductive TypeFault where
  | unary (sign : String) (kind : String)
  | operands (operator : String) (left right : String)
  | subscript (kind : String) (index : String)
  | dictKey (kind : String)
  | notANumber (kind : String)
  | textArgument (f : Function) (name : String) (kind : String)
  | numbersExpected (f : Function) (kind : String)
  | codeExpected (f : Function) (kind : String)
  | elementMatrixExpected (f : Function) (kind : String)
  | itemMatrixExpected (f : Function) (kind : String)
  | sourceExpected (f : Function) (kind : String)
  | expressionExpected (parameter : String) (kind : String)
deriving DecidableEq

inductive Error where
  | schema (fault : SchemaFault)
  | formula (fault : FormulaFault)
  | selection (fault : SelectionFault)
  /-- The entries that wait for each other. -/
  | cycle (codes : List String)
  /-- An error within the formula of a computed entry. -/
  | computed (code : String) (cause : Error)
  | arithmetic (fault : ArithmeticFault)
  | type (fault : TypeFault)
deriving DecidableEq

def SchemaFault.message : SchemaFault → String
  | .notAnObject => "schema must be an object"
  | .notAList key => s!"'{key}' must be a list"
  | .parametersNotAnObject => "'params' must be an object"
  | .parametersNull => "invalid type: null, expected a map"
  | .missingCode => "every field and computed entry needs a code"
  | .duplicateCode code => s!"duplicate code: {code}"

def Expectation.message : Expectation → String
  | .symbol s => s!"expected '{s.text}'"
  | .expression => "expected an expression"
  | .finish => "expected end of expression"
  | .noMorePositional => "positional argument follows keyword argument"

/-- A fault at a place in the text; columns count from one. -/
def atColumn (position : Nat) (what : String) : String :=
  let column := position + 1
  s!"syntax error at column {column}: {what}"

def FormulaFault.message : FormulaFault → String
  | .unexpectedCharacter p c => atColumn p s!"unexpected character '{c}'"
  | .malformedNumber p => atColumn p "invalid number literal"
  | .unterminatedText p => atColumn p "unterminated string"
  | .expected p what found => atColumn p s!"{what.message}, found {found.description}"
  | .comparison s => s!"comparison '{s.text}' is not allowed"
  | .operator s => s!"operator '{s.text}' is not allowed"
  | .tooDeep levels => s!"expression is nested too deeply (more than {levels} levels)"
  | .indirectCall => "only direct calls to builtin functions are allowed"
  | .unknownFunction name => s!"function not allowed: {name}"
  | .slice => "slices are not allowed"
  | .attribute => "attribute access is not allowed"
  | .keyword word => s!"keyword '{word}' is not allowed"
  | .setLiteral => "set literals are not allowed"
  | .repeatedKeyword f name => s!"{f.name}() got repeated keyword argument '{name}'"
  | .nameOutside d name => s!"name not allowed in {d.label}: {name}"
  | .noneOutside d => s!"None is not allowed in {d.label}"
  | .callOutside d f => s!"function not allowed in {d.label}: {f.name}"
  | .containerOutside d => s!"containers and subscripts are not allowed in {d.label}"
  | .unknownName name => s!"unknown name: {name}"
  | .tooManyArguments f given =>
    s!"{f.name}() takes at most {f.parameters.length} arguments ({given} given)"
  | .unexpectedKeyword f name => s!"{f.name}() got an unexpected keyword argument '{name}'"
  | .boundTwice f name => s!"{f.name}() got multiple values for argument '{name}'"
  | .missingArgument f name => s!"{f.name}() missing required argument '{name}'"
  | .unsafeSource f name => s!"{f.name}(): source name not allowed: '{name}'"
  | .unknownSource f name => s!"{f.name}(): unknown source '{name}'"

def SelectionFault.message : SelectionFault → String
  | .unknownMethod name => s!"unknown selection method: {name}"
  | .countRequired name => s!"selection '{name}' requires n"
  | .unknownAggregate name => s!"unknown aggregator: {name}"
  | .basis parameter given => s!"{parameter} must be 'expr' or 'raw', got '{given}'"
  | .returnMode f perLine given => s!"{f.name}() return_mode must be 'final' or '{perLine}', got '{given}'"

def ArithmeticFault.message : ArithmeticFault → String
  | .divisionByZero => "division by zero"
  | .moduloByZero => "modulo by zero"

def TypeFault.message : TypeFault → String
  | .unary sign kind => s!"bad operand type for unary {sign}: '{kind}'"
  | .operands operator left right => s!"unsupported operand types for {operator}: '{left}' and '{right}'"
  | .subscript kind index => s!"invalid index access: '{kind}'[{index}]"
  | .dictKey kind => s!"unsupported dict key type: '{kind}'"
  | .notANumber kind => s!"expression produced '{kind}', expected a number"
  | .textArgument f name kind => s!"{f.name}() argument '{name}' must be a string, got '{kind}'"
  | .numbersExpected f kind => s!"{f.name}() expects a list of numbers, got '{kind}'"
  | .codeExpected f kind => s!"{f.name}() expects a field code string, got '{kind}'"
  | .elementMatrixExpected f kind => s!"{f.name}() expects a judge x element matrix, got '{kind}'"
  | .itemMatrixExpected f kind => s!"{f.name}() expects a judge x item matrix, got '{kind}'"
  | .sourceExpected f kind => s!"{f.name}() source must be a field code or a matrix, got '{kind}'"
  | .expressionExpected parameter kind => s!"{parameter} must be a string, got '{kind}'"

namespace Error

/-- The text of an error. -/
def message : Error → String
  | .schema fault => s!"invalid schema: {fault.message}"
  | .formula fault => fault.message
  | .selection fault => fault.message
  | .cycle codes =>
    let list := ", ".intercalate codes
    s!"dependency cycle between computed fields: {list}"
  | .computed code cause => s!"computed '{code}': {cause.message}"
  | .arithmetic fault => s!"arithmetic error: {fault.message}"
  | .type fault => s!"type error: {fault.message}"

/-- The innermost cause. -/
def root : Error → Error
  | .computed _ cause => cause.root
  | e => e

end Error

/-- An answer or an error. -/
abbrev Result (α : Type) := Except Error α

end Scoresheet
