import DeckBinding.Number.Numeral
import DeckBinding.Number.Rounding

set_option autoImplicit false

namespace DeckBinding.Number

open DeckBinding.Text

/-- A decimal floating point number: `coefficient * 10 ^ exponent` with a sign, an infinity, or an
undefined value that may carry digits. -/
inductive Decimal where
  | finite (negative : Bool) (coefficient : Nat) (exponent : Int)
  | infinite (negative : Bool)
  | undefined (negative signaling : Bool) (payload : List Char)
deriving DecidableEq, Inhabited

inductive DecimalError where
  | invalidOperation
  | overflow
deriving DecidableEq

def DecimalError.message : DecimalError → String
  | .invalidOperation => "[<class 'decimal.InvalidOperation'>]"
  | .overflow => "[<class 'decimal.Overflow'>]"

namespace Decimal

/-- Results of arithmetic have at most this many digits. -/
def precision : Nat := 28

/-- Results of arithmetic lie below ten to one more than this. -/
def greatestExponent : Int := 999999

/-- Decimals that are read have no leading digit above this power of ten. -/
def readGreatestExponent : Int := 999999999999999999

/-- Decimals that are read have no digit below this power of ten. -/
def readLeastExponent : Int := -1999999999999999997

/-- The number of digits of a coefficient; zero has one. -/
def digitCount (coefficient : Nat) : Nat :=
  (Nat.toDigits 10 coefficient).length

/-- Whether `c * 10 ^ e` and `d * 10 ^ f` are equal. Unless their first digits stand in one place,
no power is computed. -/
def sameMagnitude (c : Nat) (e : Int) (d : Nat) (f : Int) : Bool :=
  if c = 0 || d = 0 then c == d
  else e + digitCount c == f + digitCount d
    && c * tenTo (e - f).toNat == d * tenTo (f - e).toNat

/-- The digits of `c * 10 ^ e` in front of the point, as a number. -/
def wholePart (c : Nat) (e : Int) : Nat :=
  if c = 0 || e + digitCount c ≤ 0 then 0
  else c * tenTo e.toNat / tenTo (-e).toNat

/-- The value `100 * d`, rounded to the working precision with ties to even. -/
def timesHundred (negative : Bool) (coefficient : Nat) (exponent : Int) :
    Except DecimalError Decimal :=
  let product := coefficient * 100
  let excess := digitCount product - precision
  let rounded := roundDiv .toEven product (tenTo excess)
  if coefficient = 0 then .ok (.finite negative 0 exponent)
  else if greatestExponent < exponent + excess + digitCount rounded - 1 then .error .overflow
  else .ok (.finite negative rounded (exponent + excess))

/-- The coefficient of a finite decimal rounded to `places` fraction digits, ties away from zero.
A coefficient of more digits than the working precision is refused. -/
def quantize (coefficient : Nat) (exponent : Int) (places : Nat) : Except DecimalError Nat :=
  let shift := exponent + places
  if coefficient = 0 then .ok 0
  else if 0 ≤ shift then
    if (precision : Int) < digitCount coefficient + shift then .error .invalidOperation
    else .ok (coefficient * tenTo shift.toNat)
  else if (digitCount coefficient : Int) < -shift then .ok 0
  else
    let rounded := roundDiv .awayFromZero coefficient (tenTo (-shift).toNat)
    if precision < digitCount rounded then .error .invalidOperation else .ok rounded

def integral? (coefficient : Nat) (exponent : Int) : Option Nat :=
  if coefficient = 0 then some 0
  else if 0 ≤ exponent then some (coefficient * tenTo exponent.toNat)
  else if (digitCount coefficient : Int) < -exponent then none
  else
    let den := tenTo (-exponent).toNat
    if coefficient % den = 0 then some (coefficient / den) else none

def ofInt (n : Int) : Decimal :=
  .finite (n < 0) n.natAbs 0

def exponentText (exponent : Int) : List Char :=
  (if exponent < 0 then '-' else '+') :: Nat.toDigits 10 exponent.natAbs

/-- A decimal as text that keeps its exponent: positional where the exponent is not positive and
the leading digit is at most six places behind the point, else scientific. -/
def text : Decimal → String
  | .infinite negative => if negative then "-Infinity" else "Infinity"
  | .undefined negative signaling payload =>
    (if negative then "-" else "") ++ (if signaling then "sNaN" else "NaN") ++
      String.ofList payload
  | .finite negative coefficient exponent =>
    let digits := Nat.toDigits 10 coefficient
    let left := exponent + digits.length
    let dot : Int := if exponent ≤ 0 ∧ -6 < left then left else 1
    let mantissa :=
      if dot ≤ 0 then '0' :: '.' :: (List.replicate (-dot).toNat '0' ++ digits)
      else if digits.length ≤ dot.toNat then
        digits ++ List.replicate (dot.toNat - digits.length) '0'
      else digits.take dot.toNat ++ '.' :: digits.drop dot.toNat
    let tail := if left = dot then [] else 'E' :: exponentText (left - dot)
    String.ofList ((if negative then ['-'] else []) ++ mantissa ++ tail)

/-- A text in ASCII: the digits of every script become ASCII digits, and underscores are left
out. -/
def plainDigits (cs : List Char) : List Char :=
  (cs.filter (· != '_')).map fun c =>
    match digitValue? c with
    | some digit => Nat.digitChar digit
    | none => c

/-- Digits with an optional point and an optional exponent, as coefficient and exponent. -/
def readUnsigned? (cs : List Char) : Option (Nat × Int) :=
  let whole := cs.takeWhile Char.isDigit
  let rest := cs.drop whole.length
  let fraction := match rest with
    | '.' :: rest => rest.takeWhile Char.isDigit
    | _ => []
  let rest := match rest with
    | '.' :: rest => rest.drop fraction.length
    | _ => rest
  let coefficient := ofDigitValues ((whole ++ fraction).filterMap digitValue?)
  if whole.isEmpty && fraction.isEmpty then none
  else match rest with
    | [] => some (coefficient, -(fraction.length : Int))
    | e :: rest =>
      if e == 'e' || e == 'E' then
        let (negative, digits) := takeSign rest
        if digits.isEmpty || !digits.all Char.isDigit then none
        else
          let size : Int := ofDigitValues (digits.filterMap digitValue?)
          some (coefficient, (if negative then -size else size) - fraction.length)
      else none

def readable (coefficient : Nat) (exponent : Int) : Bool :=
  readLeastExponent ≤ exponent &&
    exponent + digitCount coefficient - 1 ≤ readGreatestExponent

/-- A decimal read from text: blanks around it and underscores are ignored, and the names of the
infinities and of undefined values are read in any case. -/
def read? (cs : List Char) : Option Decimal :=
  let (negative, body) := takeSign (plainDigits (trim cs))
  let name := body.map Char.toLower
  if name == "inf".toList || name == "infinity".toList then some (.infinite negative)
  else if "nan".toList.isPrefixOf name && (body.drop 3).all Char.isDigit then
    some (.undefined negative false ((body.drop 3).dropWhile (· == '0')))
  else if "snan".toList.isPrefixOf name && (body.drop 4).all Char.isDigit then
    some (.undefined negative true ((body.drop 4).dropWhile (· == '0')))
  else match readUnsigned? body with
    | some (coefficient, exponent) =>
      if readable coefficient exponent then some (.finite negative coefficient exponent) else none
    | none => none

end Decimal

end DeckBinding.Number
