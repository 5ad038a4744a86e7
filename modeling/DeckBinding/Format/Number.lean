import DeckBinding.Number.Decimal
import DeckBinding.Number.Grouping

set_option autoImplicit false

namespace DeckBinding

open DeckBinding.Number DeckBinding.Text

inductive FormatError where
  | numeral (error : NumeralError)
  | decimal (error : DecimalError)
deriving DecidableEq

def FormatError.message : FormatError → String
  | .numeral error => error.message
  | .decimal error => error.message

def liftNumeral {α : Type} : Except NumeralError α → Except FormatError α
  | .ok value => .ok value
  | .error error => .error (.numeral error)

def liftDecimal {α : Type} : Except DecimalError α → Except FormatError α
  | .ok value => .ok value
  | .error error => .error (.decimal error)

inductive NumberStyle where
  /-- A dollar sign, grouped digits and a fixed fraction. -/
  | currency
  /-- Grouped digits and a fixed fraction. -/
  | grouped
  /-- A fixed fraction. -/
  | fixed
  /-- A hundred times the number, grouped, with a percent sign. -/
  | percent
  /-- An integer, padded with zeros. -/
  | padded
deriving DecidableEq

def NumberStyle.ofLetter? (letter : Char) : Option NumberStyle :=
  match letter.toUpper with
  | 'C' => some .currency
  | 'N' => some .grouped
  | 'F' => some .fixed
  | 'P' => some .percent
  | 'D' => some .padded
  | _ => none

/-- A style with the number behind its letter: fraction digits, or the least number of digits of a
padded integer. -/
structure NumberSpec where
  style : NumberStyle
  size : Option Nat
deriving DecidableEq

def defaultPlaces : Nat := 2

/-- Reads a letter with at most two digits behind it. -/
def NumberSpec.read? : List Char → Option NumberSpec
  | [] => none
  | letter :: digits => do
    let style ← NumberStyle.ofLetter? letter
    if digits.length ≤ 2 ∧ digits.all isDecimalDigit then
      some ⟨style, if digits.isEmpty then none else some (ofDigitValues (digits.filterMap digitValue?))⟩
    else none

/-- A sign and digits. A zero keeps its sign. -/
def signed (negative : Bool) (digits : List Char) : List Char :=
  if negative then '-' :: digits else digits

/-- A finite decimal as a padded integer; none when it has a fraction. -/
def padInteger (negative : Bool) (coefficient : Nat) (exponent : Int) (width : Nat) :
    Except NumeralError (Option (List Char)) :=
  if coefficient ≠ 0 ∧ (digitLimit : Int) < Decimal.digitCount coefficient + exponent then
    if 0 ≤ exponent then .error .tooLongToWrite
    else match Decimal.integral? coefficient exponent with
      | some _ => .error .tooLongToWrite
      | none => .ok none
  else match Decimal.integral? coefficient exponent with
    | none => .ok none
    | some magnitude =>
      let digits := Nat.toDigits 10 magnitude
      .ok (some (signed (negative && magnitude != 0)
        (List.replicate (width - digits.length) '0' ++ digits)))

/-- A finite decimal in a style; none when the style does not apply to it. -/
def NumberSpec.format (spec : NumberSpec) (negative : Bool) (coefficient : Nat) (exponent : Int) :
    Except FormatError (Option (List Char)) :=
  let places := spec.size.getD defaultPlaces
  match spec.style with
  | .padded => liftNumeral (padInteger negative coefficient exponent (spec.size.getD 0))
  | .percent => do
    match ← liftDecimal (Decimal.timesHundred negative coefficient exponent) with
    | .finite negative coefficient exponent =>
      let units ← liftDecimal (Decimal.quantize coefficient exponent places)
      .ok (some (signed negative (fixedPoint true places units) ++ ['%']))
    | _ => .ok none
  | .fixed => do
    let units ← liftDecimal (Decimal.quantize coefficient exponent places)
    .ok (some (signed negative (fixedPoint false places units)))
  | .grouped => do
    let units ← liftDecimal (Decimal.quantize coefficient exponent places)
    .ok (some (signed negative (fixedPoint true places units)))
  | .currency => do
    let units ← liftDecimal (Decimal.quantize coefficient exponent places)
    .ok (some (signed (negative && units != 0) ('$' :: fixedPoint true places units)))

end DeckBinding
