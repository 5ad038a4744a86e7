import DeckBinding.Proofs.Number.Magnitude
import Mathlib.Algebra.Order.AbsoluteValue.Basic

set_option autoImplicit false

namespace DeckBinding.Number

/-- A number rounded to a number of fraction digits: one of the nearest that have no more, and of
two nearest ones the one farther from zero. -/
structure RoundsTo (places : Nat) (x rounded : ℚ) : Prop where
  whole : ∃ units : ℤ, rounded * 10 ^ places = units
  near : |rounded - x| * 10 ^ places ≤ 1 / 2
  away : |rounded - x| * 10 ^ places = 1 / 2 → |x| < |rounded|

/-- No two integers are nearest to a number and farther from zero than the number, as the number
lies in the middle of them. -/
theorem not_both_away {low high : ℤ} {y : ℚ} (apart : low < high) (nearLow : |low - y| ≤ 1 / 2)
    (nearHigh : |high - y| ≤ 1 / 2) (awayLow : |low - y| = 1 / 2 → |y| < |(low : ℚ)|)
    (awayHigh : |high - y| = 1 / 2 → |y| < |(high : ℚ)|) : False := by
  have step : (low : ℚ) + 1 ≤ high := by exact_mod_cast apart
  have lower : (low : ℚ) = y - 1 / 2 := by linarith [(abs_le.1 nearLow).1, (abs_le.1 nearHigh).2]
  have upper : (high : ℚ) = y + 1 / 2 := by linarith [(abs_le.1 nearLow).1, (abs_le.1 nearHigh).2]
  have outLow := sq_lt_sq.2 (awayLow (by rw [lower]; norm_num))
  have outHigh := sq_lt_sq.2 (awayHigh (by rw [upper]; norm_num))
  rw [lower] at outLow
  rw [upper] at outHigh
  have between : (0 : ℚ) < high ∧ (high : ℚ) < 1 := by
    rw [upper]
    constructor <;> nlinarith
  have integers : 0 < high ∧ high < 1 := by exact_mod_cast between
  omega

namespace RoundsTo

variable {places : Nat} {x rounded : ℚ}

theorem neg (rounds : RoundsTo places x rounded) : RoundsTo places (-x) (-rounded) := by
  have distance : |-rounded - -x| = |rounded - x| := by
    rw [neg_sub_neg, abs_sub_comm]
  obtain ⟨units, same⟩ := rounds.whole
  refine ⟨⟨-units, ?_⟩, ?_, ?_⟩
  · rw [neg_mul, same, Int.cast_neg]
  · rw [distance]
    exact rounds.near
  · rw [distance, abs_neg, abs_neg]
    exact rounds.away

/-- The rounded number is determined by the number. -/
theorem unique {other : ℚ} (rounds : RoundsTo places x rounded) (again : RoundsTo places x other) :
    other = rounded := by
  have scale : (0 : ℚ) < 10 ^ places := by positivity
  obtain ⟨first, firstUnits⟩ := rounds.whole
  obtain ⟨second, secondUnits⟩ := again.whole
  have unit (y : ℚ) : |y - x| * 10 ^ places = |y * 10 ^ places - x * 10 ^ places| := by
    rw [← sub_mul, abs_mul, abs_of_pos scale]
  have farther (y : ℚ) : |x| < |y| ↔ |x * 10 ^ places| < |y * 10 ^ places| := by
    rw [abs_mul, abs_mul, mul_lt_mul_iff_left₀ (abs_pos.2 scale.ne')]
  obtain ⟨_, near, away⟩ := rounds
  obtain ⟨_, nearAgain, awayAgain⟩ := again
  rw [unit, firstUnits] at near away
  rw [unit, secondUnits] at nearAgain awayAgain
  rw [farther, firstUnits] at away
  rw [farther, secondUnits] at awayAgain
  rcases lt_trichotomy second first with below | same | above
  · exact (not_both_away below nearAgain near awayAgain away).elim
  · rw [same, ← firstUnits] at secondUnits
    exact mul_right_cancel₀ scale.ne' secondUnits
  · exact (not_both_away above near nearAgain away awayAgain).elim

end RoundsTo

/-- A number that is not negative, rounded to units of its last fraction digit. -/
theorem roundsTo_roundedUnits {x : ℚ} (nonneg : 0 ≤ x) (places : Nat) :
    RoundsTo places x (roundedUnits x places / 10 ^ places) := by
  have scale : (0 : ℚ) < 10 ^ places := by positivity
  have low : (roundedUnits x places : ℚ) ≤ x * 10 ^ places + 1 / 2 :=
    Nat.floor_le (by positivity)
  have high : x * 10 ^ places + 1 / 2 < roundedUnits x places + 1 :=
    Nat.lt_floor_add_one _
  have distance : |roundedUnits x places / 10 ^ places - x| * 10 ^ places =
      |roundedUnits x places - x * 10 ^ places| := by
    rw [← abs_of_pos scale, ← abs_mul, abs_of_pos scale, sub_mul, div_mul_cancel₀ _ scale.ne']
  refine ⟨⟨roundedUnits x places, ?_⟩, ?_, ?_⟩
  · rw [div_mul_cancel₀ _ scale.ne', Int.cast_natCast]
  · rw [distance, abs_le]
    constructor <;> linarith
  · -- At the distance of half a unit the rounded number lies above
    intro half
    rw [distance, abs_eq (by norm_num)] at half
    have above : x * 10 ^ places < roundedUnits x places := by
      rcases half with half | half
      · linarith
      · linarith
    rw [abs_of_nonneg nonneg, abs_of_nonneg (by positivity), lt_div_iff₀ scale]
    exact above

namespace Decimal

/-- A number of units of a fraction digit. -/
theorem magnitude_units (units places : Nat) :
    magnitude units (-(places : Int)) = (units : ℚ) / 10 ^ places := by
  rw [magnitude_neg]
  push_cast
  rfl

/-- Units of one of the first hundred fraction digits can be read, if they fit the working
precision. -/
theorem readable_units {units places : Nat} (few : units < 10 ^ precision) (short : places < 100) :
    readable units (-(places : Int)) = true := by
  have digits : digitCount units ≤ 28 :=
    Nat.le_of_not_lt fun long => Nat.not_le_of_lt few (precision_lt_digitCount_iff.1 long)
  refine Bool.and_eq_true_iff.2 ⟨decide_eq_true ?_, decide_eq_true ?_⟩
  · show (-1999999999999999997 : Int) ≤ _
    omega
  · show _ ≤ (999999999999999999 : Int)
    omega

/-- A decimal is rounded to its rounded units. -/
theorem roundsTo_units (negative : Bool) (coefficient : Nat) (exponent : Int) (places : Nat) :
    RoundsTo places (rational negative coefficient exponent)
      (rational negative (roundedUnits (magnitude coefficient exponent) places) (-(places : Int))) := by
  have rounds := roundsTo_roundedUnits (magnitude_nonneg coefficient exponent) places
  rw [← magnitude_units] at rounds
  cases negative with
  | false => exact rounds
  | true => exact rounds.neg

/-- A number of units is below zero when it has the sign of such a number and is none of zero. -/
theorem rational_units_lt_zero_iff (negative : Bool) (units places : Nat) :
    rational negative units (-(places : Int)) < 0 ↔ (negative && units != 0) = true := by
  rw [Bool.and_eq_true, bne_iff_ne, rational, magnitude_units]
  have scale : (0 : ℚ) < 10 ^ places := by positivity
  cases negative with
  | false =>
    have nonneg : (0 : ℚ) ≤ units / 10 ^ places := by positivity
    simpa using nonneg
  | true => simp [div_pos_iff_of_pos_right scale, Nat.pos_iff_ne_zero]

end Decimal

end DeckBinding.Number
