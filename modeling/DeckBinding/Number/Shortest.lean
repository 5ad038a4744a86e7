import DeckBinding.Number.Binary64

set_option autoImplicit false

namespace DeckBinding.Number

/-- The greatest `p` with `10 ^ p * den ≤ num`, for positive numbers. -/
def decimalExponent (num den : Nat) : Int :=
  if den ≤ num then (Nat.toDigits 10 (num / den)).length - 1
  else
    let size := (Nat.toDigits 10 (den / num)).length
    if den ≤ num * tenTo (size - 1) then -((size : Int) - 1) else -(size : Int)

/-- An interval of positive rationals over one denominator, with the point it stands for. -/
structure RoundingInterval where
  low : Nat
  point : Nat
  high : Nat
  den : Nat
  /-- The ends belong to the interval. -/
  closed : Bool

/-- The numbers that round to a positive finite double. Below a power of two the next double is
half as far away. -/
def Binary64.interval (significand : Nat) (exponent : Int) : RoundingInterval :=
  let scale := twoTo (exponent - 2).toNat
  let below :=
    if significand = twoTo 52 ∧ leastExponent < exponent then 4 * significand - 1
    else 4 * significand - 2
  ⟨below * scale, 4 * significand * scale, (4 * significand + 2) * scale,
    twoTo (2 - exponent).toNat, significand % 2 == 0⟩

/-- Whether `digits * 10 ^ exponent` lies in the interval. -/
def RoundingInterval.contains (range : RoundingInterval) (digits : Nat) (exponent : Int) : Bool :=
  let value := digits * tenTo exponent.toNat * range.den
  let unit := tenTo (-exponent).toNat
  if range.closed then range.low * unit ≤ value && value ≤ range.high * unit
  else range.low * unit < value && value < range.high * unit

/-- The multiple of `10 ^ exponent` in the interval that is nearest to its point. -/
def RoundingInterval.nearest? (range : RoundingInterval) (exponent : Int) : Option Nat :=
  let num := range.point * tenTo (-exponent).toNat
  let den := range.den * tenTo exponent.toNat
  let below := num / den
  match range.contains below exponent, range.contains (below + 1) exponent with
  | true, true => some (roundDiv .toEven num den)
  | true, false => some below
  | false, true => some (below + 1)
  | false, false => none

/-- The fewest digits, from `count` on, of a decimal in the interval, with their exponent. -/
def RoundingInterval.shortest (range : RoundingInterval) (top : Int) :
    Nat → Nat → Nat × Int
  | _, 0 => (roundDiv .toEven range.point range.den, 0)
  | count, tries + 1 =>
    let exponent := top - (count : Int) + 1
    match range.nearest? exponent with
    | some digits => (digits, exponent)
    | none => range.shortest top (count + 1) tries

/-- The shortest decimal that rounds to a positive finite double, without trailing zeros. -/
def Binary64.shortestDecimal (significand : Nat) (exponent : Int) : List Char × Int :=
  let range := interval significand exponent
  let (digits, exponent) := range.shortest (decimalExponent range.point range.den) 1 17
  let text := Nat.toDigits 10 digits
  let kept := (text.reverse.dropWhile (· == '0')).reverse
  (kept, exponent + (text.length - kept.length : Nat))

/-- How doubles are written: positional from `10 ^ -4` up to below `10 ^ 16`, with at least one
digit behind the point, else with a signed exponent of at least two digits. -/
def Binary64.digitsText (digits : List Char) (exponent : Int) : List Char :=
  let leading := exponent + digits.length - 1
  if -4 ≤ leading ∧ leading < 16 then
    if leading < 0 then
      '0' :: '.' :: (List.replicate (-leading - 1).toNat '0' ++ digits)
    else
      let whole := (leading + 1).toNat
      let padded := digits ++ List.replicate (whole - digits.length) '0'
      let fraction := padded.drop whole
      padded.take whole ++ '.' :: (if fraction.isEmpty then ['0'] else fraction)
  else
    let sign := if leading < 0 then '-' else '+'
    let size := Nat.toDigits 10 leading.natAbs
    let fraction := digits.drop 1
    digits.take 1 ++ (if fraction.isEmpty then [] else '.' :: fraction) ++
      'e' :: sign :: (List.replicate (2 - size.length) '0' ++ size)

/-- A double as the shortest text that reads back as the same number. -/
def Binary64.text : Binary64 → String
  | .undefined => "nan"
  | .infinite negative => if negative then "-inf" else "inf"
  | .finite negative significand exponent =>
    let body :=
      if significand = 0 then ['0', '.', '0']
      else
        let (digits, exponent) := shortestDecimal significand exponent
        digitsText digits exponent
    String.ofList (if negative then '-' :: body else body)

end DeckBinding.Number
