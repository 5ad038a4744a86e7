import DeckBinding.Number.Numeral
import DeckBinding.Value.Basic

set_option autoImplicit false

namespace DeckBinding.Value

open DeckBinding.Number DeckBinding.Text

/-- The name of the kind of a value, as error texts give it. -/
def kindName : Value → String
  | .null => "NoneType"
  | .bool _ => "bool"
  | .int _ => "int"
  | .float _ => "float"
  | .decimal _ => "decimal.Decimal"
  | .date _ => "datetime.date"
  | .moment _ => "datetime.datetime"
  | .text _ => "str"
  | .bytes _ => "bytes"
  | .list _ => "list"
  | .tuple _ => "tuple"
  | .map _ => "dict"
  | .record _ => "Record"

def shortKindName : Value → String
  | .decimal _ => "Decimal"
  | .date _ => "date"
  | .moment _ => "datetime"
  | value => value.kindName

inductive IntegerError where
  | numeral (error : NumeralError)
  | bytes (content : List UInt8)
  | undefinedFloat
  | infiniteFloat
  | undefinedDecimal
  | infiniteDecimal
  | notANumber (kind : String)
deriving DecidableEq

def IntegerError.message : IntegerError → String
  | .numeral error => error.message
  | .bytes content =>
    "invalid literal for int() with base 10: " ++ String.ofList ((quotedBytes content).toList.take 200)
  | .undefinedFloat => "cannot convert float NaN to integer"
  | .infiniteFloat => "cannot convert float infinity to integer"
  | .undefinedDecimal => "cannot convert NaN to integer"
  | .infiniteDecimal => "cannot convert Infinity to integer"
  | .notANumber kind =>
    s!"int() argument must be a string, a bytes-like object or a real number, not '{kind}'"

/-- The character of a byte. A byte outside ASCII has none, and stands for the null character, which
is part of no numeral. -/
def byteCharacter (byte : UInt8) : Char :=
  if byte < 128 then Char.ofNat byte.toNat else '\x00'

/-- A value as an integer: a number without its fraction, or a text that reads as an integer. -/
def toInteger : Value → Except IntegerError Int
  | .bool b => .ok (if b then 1 else 0)
  | .int n => .ok n
  | .float .undefined => .error .undefinedFloat
  | .float (.infinite _) => .error .infiniteFloat
  | .float x => .ok (x.truncate?.getD 0)
  | .decimal (.undefined ..) => .error .undefinedDecimal
  | .decimal (.infinite _) => .error .infiniteDecimal
  | .decimal (.finite negative coefficient exponent) =>
    let magnitude : Int := Decimal.wholePart coefficient exponent
    .ok (if negative then -magnitude else magnitude)
  | .text s =>
    match readInteger s.toList with
    | .ok n => .ok n
    | .error error => .error (.numeral error)
  | .bytes content =>
    match readInteger (content.map byteCharacter) with
    | .ok n => .ok n
    | .error (.notANumeral _) => .error (.bytes content)
    | .error error => .error (.numeral error)
  | value => .error (.notANumber value.kindName)

end DeckBinding.Value
