import DeckBinding.Number.Power
import DeckBinding.Number.Rounding

set_option autoImplicit false

namespace DeckBinding.Number

/-- A double precision binary number: `significand * 2 ^ exponent` with a sign, an infinity, or the
value of an undefined operation. -/
inductive Binary64 where
  | finite (negative : Bool) (significand : Nat) (exponent : Int)
  | infinite (negative : Bool)
  | undefined
deriving DecidableEq, Inhabited

namespace Binary64

def significandBound : Nat := twoTo 53

def leastExponent : Int := -1074

def greatestExponent : Int := 971

/-- The greatest `k` with `2 ^ k * den ≤ num`, for positive numbers. -/
def binaryExponent (num den : Nat) : Int :=
  let guess : Int := (num.log2 : Int) - den.log2
  if num * twoTo (-guess).toNat < den * twoTo guess.toNat then guess - 1 else guess

/-- The double nearest to a quotient, with ties to the even significand. -/
def ofQuotient (negative : Bool) (num den : Nat) : Binary64 :=
  if num = 0 then .finite negative 0 0
  else
    let exponent := max (binaryExponent num den - 52) leastExponent
    let significand :=
      roundDiv .toEven (num * twoTo (-exponent).toNat) (den * twoTo exponent.toNat)
    let (significand, exponent) :=
      if significand = significandBound then (significand / 2, exponent + 1)
      else (significand, exponent)
    if greatestExponent < exponent then .infinite negative
    else .finite negative significand exponent

/-- The double nearest to `coefficient * 10 ^ exponent`. Magnitudes far outside the range are
decided by their digit count. -/
def ofDecimal (negative : Bool) (coefficient : Nat) (exponent : Int) : Binary64 :=
  if coefficient = 0 then .finite negative 0 0
  else
    let magnitude : Int := (Nat.toDigits 10 coefficient).length + exponent
    if 400 < magnitude then .infinite negative
    else if magnitude < -400 then .finite negative 0 0
    else ofQuotient negative (coefficient * tenTo exponent.toNat) (tenTo (-exponent).toNat)

/-- The double nearest to an integer; none when it is out of range. -/
def ofInt? (n : Int) : Option Binary64 :=
  match ofQuotient (n < 0) n.natAbs 1 with
  | .finite negative significand exponent => some (.finite negative significand exponent)
  | _ => none

def ofIntQuotient? (num den : Int) : Option Binary64 :=
  match ofQuotient ((num < 0) != (den < 0)) num.natAbs den.natAbs with
  | .finite negative significand exponent => some (.finite negative significand exponent)
  | _ => none

/-- A finite number as a quotient of naturals, without its sign. -/
def quotient (significand : Nat) (exponent : Int) : Nat × Nat :=
  (significand * twoTo exponent.toNat, twoTo (-exponent).toNat)

def mul : Binary64 → Binary64 → Binary64
  | .finite n₁ m₁ e₁, .finite n₂ m₂ e₂ =>
    let (num, den) := quotient (m₁ * m₂) (e₁ + e₂)
    ofQuotient (n₁ != n₂) num den
  | _, _ => .undefined

def add : Binary64 → Binary64 → Binary64
  | .finite n₁ m₁ e₁, .finite n₂ m₂ e₂ =>
    let low := min e₁ e₂
    let left : Int := (m₁ * twoTo (e₁ - low).toNat : Nat)
    let right : Int := (m₂ * twoTo (e₂ - low).toNat : Nat)
    let sum := (if n₁ then -left else left) + (if n₂ then -right else right)
    let (num, den) := quotient sum.natAbs low
    ofQuotient (sum < 0) num den
  | _, _ => .undefined

def div? : Binary64 → Binary64 → Option Binary64
  | .finite n₁ m₁ e₁, .finite n₂ m₂ e₂ =>
    if m₂ = 0 then none
    else
      let (num, den) := quotient m₁ (e₁ - e₂)
      some (ofQuotient (n₁ != n₂) num (den * m₂))
  | _, _ => some .undefined

def lessThan : Binary64 → Binary64 → Bool
  | .finite n₁ m₁ e₁, .finite n₂ m₂ e₂ =>
    let low := min e₁ e₂
    let left : Int := (m₁ * twoTo (e₁ - low).toNat : Nat)
    let right : Int := (m₂ * twoTo (e₂ - low).toNat : Nat)
    decide ((if n₁ then -left else left) < (if n₂ then -right else right))
  | _, _ => false

def truncate? : Binary64 → Option Int
  | .finite negative significand exponent =>
    let (num, den) := quotient significand exponent
    some (if negative then -(num / den : Nat) else (num / den : Nat))
  | _ => none

/-- The nearest integer, ties to the even one; none for what is not finite. -/
def round? : Binary64 → Option Int
  | .finite negative significand exponent =>
    let (num, den) := quotient significand exponent
    let nearest : Int := roundDiv .toEven num den
    some (if negative then -nearest else nearest)
  | _ => none

/-- The least integer not below the number; none for what is not finite. -/
def ceil? : Binary64 → Option Int
  | .finite negative significand exponent =>
    let (num, den) := quotient significand exponent
    some (if negative then -(num / den : Nat) else ((num + den - 1) / den : Nat))
  | _ => none

def toInt? : Binary64 → Option Int
  | .finite negative significand exponent =>
    let (num, den) := quotient significand exponent
    if num % den = 0 then some (if negative then -(num / den : Nat) else (num / den : Nat)) else none
  | _ => none

end Binary64

end DeckBinding.Number
