import DeckBinding.Diagnostic

set_option autoImplicit false

namespace DeckBinding

open DeckBinding.Number

/-- What a complete expression in a text turned out to be: a parsed one, or literal text with the
reason why it is none. -/
inductive Reading where
  | parsed (expression : Expression)
  | literal (text : List Char) (error : ExpressionError)
deriving DecidableEq

namespace Reading

/-- Reads what the braces of an expression hold. Only a numeral that cannot be converted fails. -/
def ofBody (body : List Char) : Except NumeralError Reading :=
  match Expression.read body (braced body) with
  | .ok expression => .ok (.parsed expression)
  | .error (.malformed error) => .ok (.literal (braced body) error)
  | .error (.numeral error) => .error error

def expression? : Reading → Option Expression
  | .parsed expression => some expression
  | .literal .. => none

def problem? : Reading → Option Problem
  | .parsed _ => none
  | .literal text error => some (.literalExpression text error)

end Reading

def Piece.body? : Piece → Option (List Char)
  | .plain _ => none
  | .bound body => some body

/-- Reads every complete expression of a text, typographic quotes taken as plain ones. -/
def readings (cs : List Char) : Except NumeralError (List Reading) :=
  ((pieces (withPlainQuotes cs)).filterMap Piece.body?).mapM Reading.ofBody

/-- The expressions of a text in order, and a diagnostic for each complete one that stays
literal. -/
def readExpressions (slide : Option Int) (cs : List Char) :
    Except NumeralError (List Expression × List Diagnostic) := do
  let found ← readings cs
  .ok (found.filterMap Reading.expression?,
    (found.filterMap Reading.problem?).map fun problem => ⟨problem, slide⟩)

end DeckBinding
