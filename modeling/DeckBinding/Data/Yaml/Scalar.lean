import DeckBinding.Data.Yaml.ScalarText
import DeckBinding.Value.Basic

set_option autoImplicit false

namespace DeckBinding.Yaml

open DeckBinding.Calendar DeckBinding.Number

inductive Failure where
  | scalar (error : ScalarError)
  | date (error : DateError)
  | clock (error : ClockError)
  | offset (size : Int)
  | numeral (error : NumeralError)
deriving DecidableEq

def Failure.malformed : Failure := .scalar .malformed

def nullTexts : List String := ["", "~", "null", "Null", "NULL"]

def trueTexts : List String :=
  ["yes", "Yes", "YES", "true", "True", "TRUE", "on", "On", "ON"]

def falseTexts : List String :=
  ["no", "No", "NO", "false", "False", "FALSE", "off", "Off", "OFF"]

/-- The plain scalars that are an infinity behind an optional sign. -/
def infinityTexts : List String := [".inf", ".Inf", ".INF"]

def undefinedTexts : List String := [".nan", ".NaN", ".NAN"]

def digitIn? (base : Nat) (c : Char) : Option Nat :=
  let value :=
    if c.isDigit then c.toNat - 48
    else if 'a' ≤ c && c ≤ 'f' then c.toNat - 87
    else if 'A' ≤ c && c ≤ 'F' then c.toNat - 55
    else base
  if value < base then some value else none

/-- The number written in a base by at least one digit. -/
def readIn? (base : Nat) (digits : List Char) : Option Nat :=
  if digits.isEmpty then none
  else do
    let values ← digits.mapM (digitIn? base)
    some (values.foldl (fun number digit => base * number + digit) 0)

def colonParts : List Char → List Char × List (List Char)
  | [] => ([], [])
  | ':' :: rest => let (first, others) := colonParts rest; ([], first :: others)
  | c :: rest => let (first, others) := colonParts rest; (c :: first, others)

/-- The number of a part in base sixty: up to two digits below sixty. -/
def readSixtieth? (part : List Char) : Option Nat := do
  let n ← readIn? 10 part
  if part.length ≤ 2 && n < 60 then some n else none

/-- A magnitude: octal behind a zero, hexadecimal, binary, base sixty with colons, or decimal.
Underscores between digits do not count. -/
def readMagnitude? (cs : List Char) : Option (Except NumeralError Nat) :=
  let digits := cs.filter (· != '_')
  match cs, digits with
  | _, ['0'] => if cs.head? == some '0' then some (.ok 0) else none
  | '0' :: 'b' :: _, _ :: _ :: bits => (readIn? 2 bits).map .ok
  | '0' :: 'x' :: _, _ :: _ :: hexes => (readIn? 16 hexes).map .ok
  | '0' :: _, _ :: octals => (readIn? 8 octals).map .ok
  | first :: _, _ =>
    if !first.isDigit then none
    else
      match colonParts digits with
      | (whole, []) =>
        if whole.all Char.isDigit then some (readDigits whole) else none
      | (whole, others) =>
        if whole.all Char.isDigit && ((colonParts cs).2.all fun part => !part.contains '_') then
          match others.mapM readSixtieth? with
          | some parts => some ((readDigits whole).map fun front =>
              parts.foldl (fun number part => 60 * number + part) front)
          | none => none
        else none
  | [], _ => none

def readInt? (cs : List Char) : Option (Except NumeralError Int) :=
  let (negative, magnitude) := takeSign cs
  (readMagnitude? magnitude).map fun found =>
    found.map fun n => if negative then -(n : Int) else n

/-- An exponent: its letter, a sign that is never left out, and digits; zero when there is none. -/
def readExponent? : List Char → Option Int
  | [] => some 0
  | e :: sign :: digits =>
    if (e == 'e' || e == 'E') && (sign == '+' || sign == '-') then
      (readIn? 10 digits).map fun size => if sign == '-' then -(size : Int) else size
    else none
  | _ => none

/-- A decimal fraction: digits around a point, and an exponent. Only the digits in front of the
point can be left out, and then there is no sign either. Underscores between digits do not count. -/
def readFloat? (cs : List Char) : Option Binary64 := do
  let (negative, unsigned) := takeSign cs
  let isDigit := fun c : Char => c.isDigit || c == '_'
  let whole := unsigned.takeWhile isDigit
  match unsigned.drop whole.length with
  | '.' :: behind =>
    let fraction := behind.takeWhile isDigit
    let exponent ← readExponent? (behind.drop fraction.length)
    let leading := if whole.isEmpty then fraction.head? else whole.head?
    let signed := unsigned.length < cs.length
    if !(leading.any Char.isDigit) || (whole.isEmpty && signed) then none
    else
      let places := fraction.filter Char.isDigit
      let coefficient ← readIn? 10 (whole.filter Char.isDigit ++ places)
      some (.ofDecimal negative coefficient (exponent - places.length))
  | _ => none

/-- A number in base sixty with a fraction: a part of digits, parts of up to two digits behind
colons, and a point in the last of them. The parts are added up from the last to the first. -/
def readSixtiethFloat? (cs : List Char) : Option Binary64 := do
  let (negative, unsigned) := takeSign cs
  let fraction := (unsigned.dropWhile (· != '.')).drop 1
  let (front, parts) := colonParts (unsigned.takeWhile (· != '.'))
  let isDigit := fun c : Char => c.isDigit || c == '_'
  if !unsigned.contains '.' || !(front.head?.any Char.isDigit) || !front.all isDigit
      || parts.isEmpty || !fraction.all isDigit then none
  else
    let first ← readIn? 10 (front.filter Char.isDigit)
    let numbers := first :: (← parts.mapM readSixtieth?)
    let places := fraction.filter Char.isDigit
    let seconds ← readIn? 10 ((parts.getLastD []) ++ places)
    let last := Binary64.ofDecimal false seconds (-(places.length : Int))
    let terms := numbers.reverse.zipIdx.map fun (number, power) =>
      let term := if power = 0 then last else .ofDecimal false number 0
      term.mul (.ofQuotient false (Nat.pow 60 power) 1)
    match terms.foldl Binary64.add (.finite false 0 0) with
    | .finite _ significand exponent => some (.finite negative significand exponent)
    | _ => some (.infinite negative)

def readPlainFloat? (cs : List Char) : Option Binary64 :=
  let (negative, unsigned) := takeSign cs
  if infinityTexts.contains (String.ofList unsigned) then some (.infinite negative)
  else if undefinedTexts.contains (String.ofList cs) then some .undefined
  else (readFloat? cs).or (readSixtiethFloat? cs)

/-- A day written with four, two and two digits. -/
def readDay? : List Char → Option (Except DateError Date)
  | [a, b, c, d, '-', e, f, '-', g, h] => do
    let year ← readIn? 10 [a, b, c, d]
    let month ← readIn? 10 [e, f]
    let day ← readIn? 10 [g, h]
    some (Date.ofNumbers year month day)
  | _ => none

def takeShort? (cs : List Char) : Option (Nat × List Char) := do
  let digits := (cs.take 2).takeWhile Char.isDigit
  let number ← readIn? 10 digits
  some (number, cs.drop digits.length)

def takePair? (mark : Char) : List Char → Option (Nat × List Char)
  | c :: a :: b :: rest => do
    let number ← readIn? 10 [a, b]
    if c == mark then some (number, rest) else none
  | _ => none

/-- The offset from universal time at the end of a moment, in microseconds; none when there is
none. -/
def readOffset? (cs : List Char) : Option (Option Int) :=
  match cs, cs.dropWhile isSpaceOrTab with
  | [], _ => some none
  | _, ['Z'] => some (some 0)
  | _, sign :: rest => do
    let (hours, rest) ← takeShort? rest
    let (minutes, rest) ← if rest.isEmpty then some (0, []) else takePair? ':' rest
    let size : Int := (hours * 60 + minutes) * 60 * 1000000
    if !rest.isEmpty then none
    else if sign == '-' then some (some (-size))
    else if sign == '+' then some (some size)
    else none
  | _, [] => none

/-- The moment with these parts. The offset is looked at first, then the day, then the time. -/
def momentOf (year month day hour minute second micro : Nat) (offset : Option Int) :
    Except Failure Moment :=
  if offset.any fun size => offsetBound ≤ size.natAbs then .error (.offset (offset.getD 0))
  else
    match Date.ofNumbers year month day, clockError? hour minute second with
    | .error error, _ => .error (.date error)
    | .ok _, some error => .error (.clock error)
    | .ok date, none => .ok ⟨date, hour, minute, second, micro, offset⟩

/-- A moment: a day with one or two digits for month and day, a T or blanks, a clock time with
seconds, and perhaps a fraction of them and an offset. The first six digits of the fraction
count. -/
def readStamp? (cs : List Char) : Option (Except Failure Moment) := do
  let year ← readIn? 10 (cs.take 4)
  let (month, rest) ← if cs[4]? == some '-' then takeShort? (cs.drop 5) else none
  let (day, rest) ← if rest.head? == some '-' then takeShort? (rest.drop 1) else none
  let rest ← match rest with
    | 'T' :: rest => some rest
    | 't' :: rest => some rest
    | c :: rest => if isSpaceOrTab c then some (rest.dropWhile isSpaceOrTab) else none
    | [] => none
  let (hour, rest) ← takeShort? rest
  let (minute, rest) ← takePair? ':' rest
  let (second, rest) ← takePair? ':' rest
  let (fraction, rest) := match rest with
    | '.' :: rest => (rest.takeWhile Char.isDigit, rest.dropWhile Char.isDigit)
    | _ => ([], rest)
  let places := fraction.take 6
  let micro := (readIn? 10 places).getD 0 * tenTo (6 - places.length)
  let offset ← readOffset? rest
  some (momentOf year month day hour minute second micro offset)

/-- The plain scalars that stand for no value: the marks of default values and of merged
mappings. -/
def markTexts : List String := ["=", "<<"]

def plainValue (cs : List Char) : Except Failure Value :=
  let text := String.ofList cs
  if nullTexts.contains text then .ok .null
  else if trueTexts.contains text then .ok (.bool true)
  else if falseTexts.contains text then .ok (.bool false)
  else if markTexts.contains text then .error .malformed
  else
    match readInt? cs, readPlainFloat? cs, readDay? cs, readStamp? cs with
    | some (.ok n), _, _, _ => .ok (.int n)
    | some (.error error), _, _, _ => .error (.numeral error)
    | none, some x, _, _ => .ok (.float x)
    | none, none, some (.ok day), _ => .ok (.date day)
    | none, none, some (.error error), _ => .error (.date error)
    | none, none, none, some (.ok time) => .ok (.moment time)
    | none, none, none, some (.error failure) => .error failure
    | none, none, none, none => .ok (.text text)

end DeckBinding.Yaml
