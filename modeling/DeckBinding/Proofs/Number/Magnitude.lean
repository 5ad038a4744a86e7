import DeckBinding.Number.Decimal
import DeckBinding.Proofs.Number.Ceiling
import DeckBinding.Proofs.Number.Numeral
import Mathlib.Algebra.Order.Field.Power
import Mathlib.Data.Rat.Floor
import Mathlib.Tactic.FieldSimp
import Mathlib.Tactic.Linarith
import Mathlib.Tactic.Positivity

set_option autoImplicit false

namespace DeckBinding.Number

open DeckBinding.Text

/-- A positive number in units of its last fraction digit, rounded to the nearest one, ties away
from zero. -/
def roundedUnits (x : ℚ) (places : Nat) : Nat :=
  ⌊x * 10 ^ places + 1 / 2⌋₊

def Decimal.magnitude (coefficient : Nat) (exponent : Int) : ℚ :=
  coefficient * 10 ^ exponent

def Decimal.rational (negative : Bool) (coefficient : Nat) (exponent : Int) : ℚ :=
  if negative then -magnitude coefficient exponent else magnitude coefficient exponent

theorem tenTo_eq (exponent : Nat) : tenTo exponent = 10 ^ exponent :=
  rfl

section Nearest

variable {tie : Tie} {num den bound : Nat}

/-- A quotient between two integers goes to the upper one, if it is even or ties need not go to even
ones. -/
theorem roundDiv_of_half (positive : 0 < den) (half : 2 * num + den = 2 * (bound * den))
    (even : tie = .toEven → bound % 2 = 0) : roundDiv tie num den = bound := by
  cases bound with
  | zero => omega
  | succ below =>
    have succ : (below + 1) * den = below * den + den := Nat.succ_mul _ _
    have quotient : num / den = below := Nat.div_eq_of_lt_le (by omega) (by omega)
    have rest : 2 * (num % den) = den := by
      have split := Nat.div_add_mod num den
      rw [quotient, Nat.mul_comm] at split
      omega
    unfold roundDiv
    dsimp only
    rw [quotient, if_neg (by omega), if_neg (by omega)]
    cases tie with
    | awayFromZero => rfl
    | toEven =>
      have upper := even rfl
      exact if_neg (by omega)

/-- The nearest integer reaches a bound when the quotient and half a unit do, if the bound is even
or ties need not go to even ones. -/
theorem le_roundDiv_iff (positive : 0 < den) (even : tie = .toEven → bound % 2 = 0) :
    bound ≤ roundDiv tie num den ↔ 2 * (bound * den) ≤ 2 * num + den := by
  obtain ⟨low, high⟩ := roundDiv_within tie num den positive
  constructor
  · intro reached
    have product := Nat.mul_le_mul_right den reached
    omega
  · intro enough
    by_contra missed
    have product : (roundDiv tie num den + 1) * den ≤ bound * den := Nat.mul_le_mul_right den (by omega)
    have succ : (roundDiv tie num den + 1) * den = roundDiv tie num den * den + den := Nat.succ_mul _ _
    have half : 2 * num + den = 2 * (bound * den) := by omega
    exact missed (roundDiv_of_half positive half even).ge

theorem roundDiv_one (tie : Tie) (num : Nat) : roundDiv tie num 1 = num := by
  simp [roundDiv, Nat.mod_one]

end Nearest

section Units

variable {x : ℚ} {places bound : Nat}

theorem le_roundedUnits_iff (nonneg : 0 ≤ x) :
    bound ≤ roundedUnits x places ↔ (bound : ℚ) ≤ x * 10 ^ places + 1 / 2 :=
  Nat.le_floor_iff (by positivity)

/-- A number whose units are a quotient of naturals. -/
theorem roundedUnits_eq_roundDiv {num den : Nat} (positive : 0 < den) (nonneg : 0 ≤ x)
    (units : x * 10 ^ places = num / den) : roundedUnits x places = roundDiv .awayFromZero num den := by
  have divisor : (0 : ℚ) < den := by exact_mod_cast positive
  refine eq_of_forall_le_iff fun bound => ?_
  have cast : (bound : ℚ) ≤ num / den + 1 / 2 ↔
      ((2 * (bound * den) : Nat) : ℚ) ≤ ((2 * num + den : Nat) : ℚ) := by
    rw [show (num : ℚ) / den + 1 / 2 = (2 * num + den) / (2 * den) by field_simp, le_div_iff₀ (by positivity)]
    push_cast
    constructor <;> intro less <;> linarith
  rw [le_roundedUnits_iff nonneg, units, cast, Nat.cast_le,
    le_roundDiv_iff positive fun other => by cases other]

end Units

namespace Decimal

variable {coefficient : Nat} {exponent : Int}

theorem magnitude_nonneg (coefficient : Nat) (exponent : Int) : 0 ≤ magnitude coefficient exponent := by
  unfold magnitude
  positivity

theorem magnitude_mul_pow (coefficient : Nat) (exponent : Int) (places : Nat) :
    magnitude coefficient exponent * 10 ^ places = magnitude coefficient (exponent + places) := by
  rw [magnitude, magnitude, zpow_add₀ (by norm_num), zpow_natCast, mul_assoc]

theorem magnitude_natCast (coefficient exponent : Nat) :
    magnitude coefficient exponent = (coefficient * 10 ^ exponent : Nat) := by
  rw [magnitude, zpow_natCast]
  push_cast
  rfl

theorem magnitude_neg (coefficient exponent : Nat) :
    magnitude coefficient (-exponent) = coefficient / (10 ^ exponent : Nat) := by
  rw [magnitude, zpow_neg, zpow_natCast, div_eq_mul_inv]
  push_cast
  rfl

theorem magnitude_mul_hundred (coefficient : Nat) (exponent : Int) :
    magnitude (coefficient * 100) exponent = 100 * magnitude coefficient exponent := by
  unfold magnitude
  push_cast
  ring

theorem digitCount_pos (coefficient : Nat) : 0 < digitCount coefficient :=
  List.length_pos_iff.2 Nat.toDigits_ne_nil

theorem pow_le_iff (filled : coefficient ≠ 0) (count : Nat) :
    10 ^ count ≤ coefficient ↔ count < digitCount coefficient := by
  rcases Nat.eq_zero_or_pos count with rfl | positive
  · have digits := digitCount_pos coefficient
    rw [Nat.pow_zero]
    omega
  · have length := Nat.length_toDigits_le_iff (n := coefficient) (b := 10) (by decide) positive
    unfold digitCount
    omega

/-- A decimal reaches a power of ten when its first digit stands at the place of that power or in
front of it. -/
theorem zpow_le_magnitude_iff (filled : coefficient ≠ 0) (place : Int) :
    (10 : ℚ) ^ place ≤ magnitude coefficient exponent ↔ place < digitCount coefficient + exponent := by
  have digits := digitCount_pos coefficient
  have scale : (10 : ℚ) ^ place ≤ magnitude coefficient exponent ↔
      (10 : ℚ) ^ (place - exponent) ≤ coefficient := by
    rw [magnitude, zpow_sub₀ (by norm_num), div_le_iff₀ (by positivity)]
  rw [scale]
  rcases lt_or_ge place exponent with behind | ahead
  · have one : (1 : ℚ) ≤ coefficient := by exact_mod_cast Nat.pos_of_ne_zero filled
    have small : (10 : ℚ) ^ (place - exponent) ≤ 1 := zpow_le_one_of_nonpos₀ (by norm_num) (by omega)
    constructor
    · intro _
      omega
    · exact fun _ => small.trans one
  · obtain ⟨count, same⟩ := Int.eq_ofNat_of_zero_le (sub_nonneg.2 ahead)
    have cast : (10 : ℚ) ^ count ≤ coefficient ↔ 10 ^ count ≤ coefficient := by
      rw [← Nat.cast_le (α := ℚ)]
      push_cast
      rfl
    rw [same, zpow_natCast, cast, pow_le_iff filled]
    omega

/-- A decimal with no digits behind the last place is its own units. -/
theorem roundedUnits_of_whole {places shift : Nat} (place : exponent + places = shift) :
    roundedUnits (magnitude coefficient exponent) places = coefficient * 10 ^ shift := by
  have units : magnitude coefficient exponent * 10 ^ places =
      ((coefficient * 10 ^ shift : Nat) : ℚ) / (1 : Nat) := by
    rw [magnitude_mul_pow, place, magnitude_natCast, Nat.cast_one, div_one]
  rw [roundedUnits_eq_roundDiv Nat.one_pos (magnitude_nonneg _ _) units, roundDiv_one]

/-- A decimal with digits behind the last place is rounded. -/
theorem roundedUnits_of_fraction {places shift : Nat} (place : exponent + places = -shift) :
    roundedUnits (magnitude coefficient exponent) places =
      roundDiv .awayFromZero coefficient (10 ^ shift) := by
  refine roundedUnits_eq_roundDiv (Nat.pow_pos (by decide)) (magnitude_nonneg _ _) ?_
  rw [magnitude_mul_pow, place, magnitude_neg]

theorem precision_lt_digitCount_iff : precision < digitCount coefficient ↔ 10 ^ precision ≤ coefficient := by
  rcases Nat.eq_zero_or_pos coefficient with rfl | positive
  · decide
  · exact (pow_le_iff (Nat.ne_of_gt positive) precision).symm

/-- What has its first digit behind the last place but one is less than half a unit. -/
theorem roundDiv_eq_zero_of_digitCount {shift : Nat} (filled : coefficient ≠ 0)
    (few : digitCount coefficient < shift) : roundDiv .awayFromZero coefficient (10 ^ shift) = 0 := by
  have small := (pow_le_iff filled (digitCount coefficient)).not.2 (Nat.lt_irrefl _)
  have tenth : 10 ^ (digitCount coefficient + 1) ≤ 10 ^ shift := Nat.pow_le_pow_right (by decide) few
  have one := @le_roundDiv_iff .awayFromZero coefficient (10 ^ shift) 1 (Nat.pow_pos (by decide))
    fun other => by cases other
  rw [Nat.pow_succ] at tenth
  omega

/-- A decimal is refused when its units at the last place are more than the working precision has
digits for, and else it is these units. -/
theorem quantize_eq (coefficient : Nat) (exponent : Int) (places : Nat) :
    quantize coefficient exponent places =
      if 10 ^ precision ≤ roundedUnits (magnitude coefficient exponent) places then .error .invalidOperation
      else .ok (roundedUnits (magnitude coefficient exponent) places) := by
  have power : 0 < 10 ^ precision := Nat.pow_pos (by decide)
  unfold quantize
  dsimp only
  split
  · rename_i zero
    have none : roundedUnits (magnitude coefficient exponent) places = 0 := by
      simp only [roundedUnits, magnitude, zero]
      norm_num
    rw [none, if_neg (by omega)]
  · rename_i filled
    split
    · rename_i whole
      obtain ⟨shift, place⟩ := Int.eq_ofNat_of_zero_le whole
      have wide : (precision : Int) < digitCount coefficient + (shift : Int) ↔
          10 ^ precision ≤ coefficient * 10 ^ shift := by
        rw [← zpow_le_magnitude_iff filled, zpow_natCast, magnitude_natCast, ← Nat.cast_le (α := ℚ)]
        push_cast
        rfl
      simp only [roundedUnits_of_whole place, place, Int.toNat_natCast, tenTo_eq]
      exact if_congr wide rfl rfl
    · rename_i fraction
      obtain ⟨shift, place⟩ : ∃ shift : Nat, exponent + places = -shift :=
        ⟨(-(exponent + places)).toNat, by omega⟩
      have back : (-(exponent + (places : Int))).toNat = shift := by omega
      rw [roundedUnits_of_fraction place, back, tenTo_eq]
      split
      · rw [roundDiv_eq_zero_of_digitCount filled (by omega), if_neg (by omega)]
      · exact if_congr precision_lt_digitCount_iff rfl rfl

section Precision

variable {product excess places : Nat}

theorem le_roundedUnits_of_digitCount (filled : coefficient ≠ 0)
    (many : (precision : Int) < digitCount coefficient + (exponent + places)) :
    10 ^ precision ≤ roundedUnits (magnitude coefficient exponent) places := by
  have reached := (zpow_le_magnitude_iff filled _).2 many
  rw [zpow_natCast] at reached
  rw [le_roundedUnits_iff (magnitude_nonneg _ _), magnitude_mul_pow]
  push_cast
  linarith

theorem not_le_roundedUnits_of_le
    (small : magnitude coefficient (exponent + places) ≤ 10 ^ (precision - 1)) :
    ¬ 10 ^ precision ≤ roundedUnits (magnitude coefficient exponent) places := by
  rw [le_roundedUnits_iff (magnitude_nonneg _ _), magnitude_mul_pow]
  simp only [precision] at small ⊢
  push_cast
  norm_num at small ⊢
  linarith

theorem not_le_roundedUnits_of_digitCount (filled : coefficient ≠ 0)
    (few : digitCount coefficient + (exponent + places) < precision) :
    ¬ 10 ^ precision ≤ roundedUnits (magnitude coefficient exponent) places := by
  apply not_le_roundedUnits_of_le
  have below := (@zpow_le_magnitude_iff _ (exponent + places) filled ((precision - 1 : Nat) : Int)).not.2 (by
    simp only [precision] at few ⊢
    omega)
  rw [zpow_natCast] at below
  exact (not_le.1 below).le

/-- A product with too many digits is rounded to as many as the working precision has, or to the
next power of ten. -/
theorem rounded_bounds (filled : product ≠ 0) (digits : digitCount product = precision + excess) :
    10 ^ (precision - 1) ≤ roundDiv .toEven product (10 ^ excess) ∧
      roundDiv .toEven product (10 ^ excess) ≤ 10 ^ precision := by
  have positive : 0 < 10 ^ excess := Nat.pow_pos (by decide)
  constructor
  · have low := (pow_le_iff filled (precision - 1 + excess)).2 (by rw [digits]; simp [precision])
    rw [le_roundDiv_iff positive fun _ => by decide, ← Nat.pow_add]
    omega
  · have high := (pow_le_iff filled (precision + excess)).not.2 (by omega)
    apply roundDiv_le positive
    rw [← Nat.pow_add]
    omega

/-- With its last digit in front of the last unit a rounded product has too many. -/
theorem le_roundedUnits_rounded (filled : product ≠ 0) (digits : digitCount product = precision + excess)
    (front : 0 < exponent + excess + places) :
    10 ^ precision ≤
      roundedUnits (magnitude (roundDiv .toEven product (10 ^ excess)) (exponent + excess)) places := by
  have least := (rounded_bounds filled digits).1
  have power : 0 < 10 ^ (precision - 1) := Nat.pow_pos (by decide)
  have rounded : roundDiv .toEven product (10 ^ excess) ≠ 0 := by omega
  have many := (pow_le_iff rounded (precision - 1)).1 least
  exact le_roundedUnits_of_digitCount rounded (by omega)

/-- Rounding a product to the working precision does not decide whether its units are too many. With
the last place in front of the last digit that is kept they are not, with the last place behind it
they are, and at that digit both roundings go up to the next power of ten from the same quotient on,
as this power is even. -/
theorem le_roundedUnits_rounded_iff (filled : product ≠ 0) (digits : digitCount product = precision + excess)
    (exponent : Int) (places : Nat) :
    10 ^ precision ≤
        roundedUnits (magnitude (roundDiv .toEven product (10 ^ excess)) (exponent + excess)) places ↔
      10 ^ precision ≤ roundedUnits (magnitude product exponent) places := by
  have most := (rounded_bounds filled digits).2
  have positive : 0 < 10 ^ excess := Nat.pow_pos (by decide)
  rcases lt_trichotomy (exponent + excess + places) 0 with before | last | behind
  · have kept : (roundDiv .toEven product (10 ^ excess) : ℚ) ≤ 10 ^ precision := by exact_mod_cast most
    have tenth : (10 : ℚ) ^ (exponent + excess + places) ≤ 10 ^ (-1 : Int) :=
      zpow_le_zpow_right₀ (by norm_num) (by omega)
    refine iff_of_false (not_le_roundedUnits_of_le ?_) (not_le_roundedUnits_of_digitCount filled (by omega))
    calc magnitude (roundDiv .toEven product (10 ^ excess)) (exponent + excess + places)
        ≤ 10 ^ precision * 10 ^ (-1 : Int) := mul_le_mul kept tenth (by positivity) (by positivity)
      _ = 10 ^ (precision - 1) := by norm_num [precision]
  · have here := @roundedUnits_of_whole (roundDiv .toEven product (10 ^ excess)) (exponent + excess) places 0 (by
      omega)
    have there := @roundedUnits_of_fraction product exponent places excess (by omega)
    rw [here, there, Nat.pow_zero, Nat.mul_one, le_roundDiv_iff positive fun _ => by decide,
      le_roundDiv_iff positive fun other => by cases other]
  · exact iff_of_true (le_roundedUnits_rounded filled digits behind)
      (le_roundedUnits_of_digitCount filled (by omega))

/-- The same for a product that may have few digits and is then not rounded. -/
theorem le_roundedUnits_working_iff (filled : product ≠ 0) (kept : excess = digitCount product - precision) :
    roundDiv .toEven product (10 ^ excess) ≠ 0 ∧ ∀ exponent places,
      10 ^ precision ≤
          roundedUnits (magnitude (roundDiv .toEven product (10 ^ excess)) (exponent + excess)) places ↔
        10 ^ precision ≤ roundedUnits (magnitude product exponent) places := by
  rcases Nat.le_total (digitCount product) precision with few | many
  · rw [kept, Nat.sub_eq_zero_of_le few, Nat.pow_zero, roundDiv_one, Nat.cast_zero]
    exact ⟨filled, fun exponent places => by rw [add_zero]⟩
  · have digits : digitCount product = precision + excess := by omega
    have least := (rounded_bounds filled digits).1
    have power : 0 < 10 ^ (precision - 1) := Nat.pow_pos (by decide)
    exact ⟨by omega, le_roundedUnits_rounded_iff filled digits⟩

/-- A hundred times a decimal is rounded to the working precision, where it is refused later on
exactly when it would be without that, or it is greater than any result of that precision. -/
theorem timesHundred_spec (negative : Bool) (coefficient : Nat) (exponent : Int) :
    (∃ rounded place, timesHundred negative coefficient exponent = .ok (.finite negative rounded place) ∧
      ∀ places, 10 ^ precision ≤ roundedUnits (magnitude rounded place) places ↔
        10 ^ precision ≤ roundedUnits (100 * magnitude coefficient exponent) places) ∨
    timesHundred negative coefficient exponent = .error .overflow ∧
      ∀ places, 10 ^ precision ≤ roundedUnits (100 * magnitude coefficient exponent) places := by
  unfold timesHundred
  dsimp only
  by_cases zero : coefficient = 0
  · refine .inl ⟨0, exponent, by rw [if_pos zero], fun places => ?_⟩
    simp [zero, magnitude]
  · have filled : coefficient * 100 ≠ 0 := by omega
    simp only [zero, if_false, ← magnitude_mul_hundred, tenTo_eq]
    generalize coefficient * 100 = product at filled ⊢
    generalize kept : digitCount product - precision = excess
    obtain ⟨some, same⟩ := le_roundedUnits_working_iff filled kept.symm
    by_cases great : greatestExponent <
        exponent + excess + digitCount (roundDiv .toEven product (10 ^ excess)) - 1
    · refine .inr ⟨if_pos great, fun places => (same exponent places).1 (le_roundedUnits_of_digitCount some ?_)⟩
      simp only [greatestExponent, precision] at great ⊢
      omega
    · exact .inl ⟨_, _, if_neg great, same exponent⟩

end Precision

/-- A decimal is taken for an integer exactly when it is one. -/
theorem integral?_eq_some_iff {whole : Nat} :
    integral? coefficient exponent = some whole ↔ magnitude coefficient exponent = whole := by
  unfold integral?
  split
  · rename_i zero
    rw [zero, magnitude, Nat.cast_zero, zero_mul, Option.some_inj]
    exact_mod_cast Iff.rfl
  · rename_i filled
    split
    · rename_i nonneg
      obtain ⟨shift, rfl⟩ := Int.eq_ofNat_of_zero_le nonneg
      rw [magnitude_natCast, Nat.cast_inj, Option.some_inj, Int.toNat_natCast, tenTo_eq]
    · rename_i fraction
      obtain ⟨shift, rfl⟩ : ∃ shift : Nat, exponent = -shift := ⟨(-exponent).toNat, by omega⟩
      have positive : 0 < 10 ^ shift := Nat.pow_pos (by decide)
      have quotient : magnitude coefficient (-shift) = whole ↔ coefficient = whole * 10 ^ shift := by
        rw [magnitude_neg, div_eq_iff (by exact_mod_cast Nat.ne_of_gt positive)]
        exact_mod_cast Iff.rfl
      rw [quotient, neg_neg, Int.toNat_natCast, tenTo_eq]
      dsimp only
      split
      · rename_i few
        have small := (pow_le_iff filled shift).not.2 (by omega)
        refine iff_of_false (by simp) ?_
        rintro rfl
        have one : 1 * 10 ^ shift ≤ whole * 10 ^ shift :=
          Nat.mul_le_mul_right _ (Nat.pos_of_ne_zero fun none => filled (by rw [none, Nat.zero_mul]))
        omega
      · split
        · rename_i divides
          rw [Option.some_inj, Nat.div_eq_iff_eq_mul_left positive (Nat.dvd_of_mod_eq_zero divides)]
        · rename_i rest
          refine iff_of_false (by simp) ?_
          rintro rfl
          exact rest (Nat.mul_mod_left _ _)

end Decimal

end DeckBinding.Number
