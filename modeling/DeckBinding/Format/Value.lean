import DeckBinding.Calendar.IsoText
import DeckBinding.Calendar.Pattern
import DeckBinding.Format.Number
import DeckBinding.Text.Case
import DeckBinding.Value.Render

set_option autoImplicit false

namespace DeckBinding

open DeckBinding.Calendar DeckBinding.Number DeckBinding.Text

namespace Value

/-- A value as a decimal: a number, or a text that reads as one when its commas are left out. Truth
values are no numbers. -/
def toDecimal? (value : Value) : Except NumeralError (Option Decimal) :=
  match value with
  | .int n => (write n).map fun _ => some (Decimal.ofInt n)
  | .float x => .ok (Decimal.read? x.text.toList)
  | .decimal d => .ok (some d)
  | .text s => .ok (Decimal.read? ((trim s.toList).filter (· != ',')))
  | _ => .ok none

/-- A value as a moment: a date is its midnight, and a text is read as an ISO date. -/
def toMoment? (value : Value) : Option Moment :=
  match value with
  | .date day => some ⟨day, 0, 0, 0, 0, none⟩
  | .moment time => some time
  | .text s => readMoment? (trim s.toList)
  | _ => none

def isDate (value : Value) : Bool :=
  match value with
  | .date _ => true
  | .moment _ => true
  | _ => false

/-- The digits of a specifier that cuts a text short. -/
def truncation? : List Char → Option (List Char)
  | letter :: digits =>
    if (letter == 'T' || letter == 't') && !digits.isEmpty && digits.all isDecimalDigit then
      some digits
    else none
  | [] => none

def formatNumber? (value : Value) (spec : List Char) : Except FormatError (Option String) :=
  match NumberSpec.read? spec with
  | none => .ok none
  | some numeric =>
    if value.isDate then .ok none
    else do
      match ← liftNumeral value.toDecimal? with
      | some (.finite negative coefficient exponent) =>
        let digits ← numeric.format negative coefficient exponent
        .ok (digits.map String.ofList)
      | _ => .ok none

def formatDate? (value : Value) (spec : List Char) : Option String :=
  if isDatePattern spec then
    value.toMoment?.map fun moment => String.ofList (moment.format spec)
  else none

/-- A value formatted by a trimmed specifier: upper or lower case, cut short, as a number, or as a
date. A specifier that does not apply leaves the plain text. -/
def formatWith (value : Value) (spec : List Char) : Except FormatError String :=
  let plain := liftNumeral value.render
  if spec = ['U'] ∨ spec = ['u'] then plain.map upperString
  else if spec = ['L'] ∨ spec = ['l'] then plain.map lowerString
  else match truncation? spec with
    | some digits => do
      let whole ← plain
      let size ← liftNumeral (readDigits digits)
      .ok (String.ofList (whole.toList.take size))
    | none => do
      match ← value.formatNumber? spec with
      | some formatted => .ok formatted
      | none =>
        match value.formatDate? spec with
        | some formatted => .ok formatted
        | none => plain

def format (value : Value) (spec : Option String) : Except FormatError String :=
  match value, spec with
  | .null, _ => .ok ""
  | value, none => liftNumeral value.render
  | value, some spec =>
    if spec.isEmpty then liftNumeral value.render
    else value.formatWith (trim spec.toList)

end Value

end DeckBinding
