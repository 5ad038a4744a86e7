import DeckBinding.Number.Power
import DeckBinding.Text.Blank
import DeckBinding.Text.Digit
import DeckBinding.Text.Quoted

set_option autoImplicit false

namespace DeckBinding.Number

open DeckBinding.Text

/-- Integers are read from text and written as text up to this many digits. -/
def digitLimit : Nat := 4300

inductive NumeralError where
  | notANumeral (text : List Char)
  | tooLongToRead (digits : Nat)
  | tooLongToWrite
deriving DecidableEq

def NumeralError.message : NumeralError → String
  | .notANumeral text =>
    "invalid literal for int() with base 10: " ++ String.ofList ((quoted text).take 200)
  | .tooLongToRead digits =>
    s!"Exceeds the limit ({digitLimit} digits) for integer string conversion: value has {digits} "
      ++ "digits; use sys.set_int_max_str_digits() to increase the limit"
  | .tooLongToWrite =>
    s!"Exceeds the limit ({digitLimit} digits) for integer string conversion; use "
      ++ "sys.set_int_max_str_digits() to increase the limit"

/-- The number written by a list of digit values, most significant first. -/
def ofDigitValues (values : List Nat) : Nat :=
  values.foldl (fun number digit => 10 * number + digit) 0

/-- The least integer that is too long to be written. -/
def writeBound : Nat := tenTo digitLimit

def write (n : Int) : Except NumeralError String :=
  if n.natAbs < writeBound then .ok (toString n) else .error .tooLongToWrite

def readDigits (digits : List Char) : Except NumeralError Nat :=
  if digits.length ≤ digitLimit then .ok (ofDigitValues (digits.filterMap digitValue?))
  else .error (.tooLongToRead digits.length)

/-- The blanks that may stand around an integer; a blank of another script counts as a space. -/
def isNumeralBlank (c : Char) : Bool :=
  let n := c.toNat
  (9 ≤ n && n ≤ 13) || n == 32 || (128 ≤ n && isBlank c)

def takeSign : List Char → Bool × List Char
  | '-' :: rest => (true, rest)
  | '+' :: rest => (false, rest)
  | cs => (false, cs)

/-- Single underscores stand only between digits. -/
def underscoresFit : List Char → Bool
  | [] => true
  | ['_'] => false
  | '_' :: '_' :: _ => false
  | _ :: rest => underscoresFit rest

/-- An integer with an optional sign, decimal digits of any script, single underscores between
digits and blanks around it. A run of too many digits is refused before what follows it is read. -/
def readInteger (text : List Char) : Except NumeralError Int :=
  let (negative, body) := takeSign (text.dropWhile isNumeralBlank)
  let run := body.takeWhile fun c => isDecimalDigit c || c == '_'
  let digits := run.filter isDecimalDigit
  if run.head? == some '_' || !underscoresFit run then .error (.notANumeral text)
  else if digitLimit < digits.length then .error (.tooLongToRead digits.length)
  else if run.isEmpty || !(body.drop run.length).all isNumeralBlank then .error (.notANumeral text)
  else
    let number : Int := ofDigitValues (digits.filterMap digitValue?)
    .ok (if negative then -number else number)

end DeckBinding.Number
