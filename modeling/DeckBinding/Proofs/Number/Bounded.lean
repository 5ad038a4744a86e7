import DeckBinding.Proofs.Number.Ceiling
import Mathlib.Algebra.Order.Field.Power
import Mathlib.Tactic.FieldSimp
import Mathlib.Tactic.Linarith
import Mathlib.Tactic.Positivity

set_option autoImplicit false

namespace DeckBinding.Number

theorem twoTo_cast (exponent : Nat) : (twoTo exponent : ℚ) = 2 ^ exponent := by
  exact_mod_cast rfl

/-- A power of two as a quotient of powers with natural exponents. -/
theorem two_zpow_eq (exponent : Int) :
    (2 : ℚ) ^ exponent = twoTo exponent.toNat / twoTo (-exponent).toNat := by
  rw [twoTo_cast, twoTo_cast, eq_div_iff (by positivity), ← zpow_natCast, ← zpow_natCast,
    ← zpow_add₀ (by norm_num)]
  congr 1
  omega

namespace Binary64

variable {num den : Nat}

def magnitude (significand : Nat) (exponent : Int) : ℚ :=
  significand * 2 ^ exponent

theorem magnitude_nonneg (significand : Nat) (exponent : Int) : 0 ≤ magnitude significand exponent := by
  unfold magnitude
  positivity

theorem magnitude_mul (left right : Nat) (first second : Int) :
    magnitude (left * right) (first + second) = magnitude left first * magnitude right second := by
  rw [magnitude, Nat.cast_mul, zpow_add₀ (by norm_num), mul_mul_mul_comm]
  rfl

theorem quotient_div (significand : Nat) (exponent : Int) :
    ((quotient significand exponent).1 : ℚ) / (quotient significand exponent).2 =
      magnitude significand exponent := by
  rw [magnitude, two_zpow_eq, quotient, Nat.cast_mul, mul_div_assoc]

theorem quotient_pos (significand : Nat) (exponent : Int) : 0 < (quotient significand exponent).2 :=
  twoTo_pos _

/-- Half of an even significand with the next exponent is the same number. -/
theorem magnitude_half (significand : Nat) (exponent : Int) :
    magnitude significand (exponent + 1) = magnitude (significand * 2) exponent := by
  rw [magnitude, magnitude, zpow_add₀ (by norm_num), zpow_one, Nat.cast_mul, Nat.cast_ofNat, mul_assoc,
    mul_comm 2]

theorem zpow_binaryExponent_le (divisor : 0 < den) (positive : 0 < num) :
    (2 : ℚ) ^ binaryExponent num den ≤ num / den := by
  have lower := @le_of_binaryExponent num den positive
  have scale := twoTo_pos (-binaryExponent num den).toNat
  rw [two_zpow_eq, div_le_div_iff₀ (by exact_mod_cast scale) (by exact_mod_cast divisor)]
  rw [Nat.mul_comm] at lower
  exact_mod_cast lower

/-- The significand of a quotient, in units of its last digit, keeps below a power of two that the
quotient keeps below. -/
theorem magnitude_roundDiv_le {place exponent : Int} (divisor : 0 < den) (inside : exponent ≤ place)
    (below : (num : ℚ) / den ≤ 2 ^ place) :
    magnitude (roundDiv .toEven (num * twoTo (-exponent).toNat) (den * twoTo exponent.toNat)) exponent ≤
      2 ^ place := by
  obtain ⟨bound, same⟩ := Int.eq_ofNat_of_zero_le (Int.sub_nonneg.2 inside)
  have split : (2 : ℚ) ^ place = twoTo bound * 2 ^ exponent := by
    rw [twoTo_cast, ← zpow_natCast, ← zpow_add₀ (by norm_num)]
    congr 1
    omega
  have product : num * twoTo (-exponent).toNat ≤ twoTo bound * (den * twoTo exponent.toNat) := by
    have up := twoTo_pos (-exponent).toNat
    rw [split, two_zpow_eq, ← mul_div_assoc,
      div_le_div_iff₀ (by exact_mod_cast divisor) (by exact_mod_cast up)] at below
    rw [Nat.mul_comm den, ← Nat.mul_assoc]
    exact_mod_cast below
  have rounded := @roundDiv_le .toEven _ _ _ (Nat.mul_pos divisor (twoTo_pos _)) product
  rw [split, magnitude]
  exact mul_le_mul_of_nonneg_right (by exact_mod_cast rounded) (by positivity)

/-- A quotient that is no greater than a power of two in the range of doubles goes to a finite
double that is no greater either. -/
theorem exists_ofQuotient (negative : Bool) {place : Int} (divisor : 0 < den) (least : leastExponent ≤ place)
    (great : place ≤ 1023) (below : (num : ℚ) / den ≤ 2 ^ place) :
    ∃ significand exponent, ofQuotient negative num den = .finite negative significand exponent ∧
      magnitude significand exponent ≤ 2 ^ place := by
  rcases Nat.eq_zero_or_pos num with rfl | positive
  · refine ⟨0, 0, rfl, ?_⟩
    rw [magnitude, Nat.cast_zero, zero_mul]
    positivity
  · have power : binaryExponent num den ≤ place :=
      (zpow_le_zpow_iff_right₀ one_lt_two).1 ((zpow_binaryExponent_le divisor positive).trans below)
    have inside : max (binaryExponent num den - 52) leastExponent ≤ place := by omega
    have top : max (binaryExponent num den - 52) leastExponent ≤ greatestExponent := by
      simp only [leastExponent, greatestExponent] at *
      omega
    have bound := magnitude_roundDiv_le divisor inside below
    unfold ofQuotient
    simp only [Nat.ne_of_gt positive, if_false]
    generalize max (binaryExponent num den - 52) leastExponent = exponent at inside top bound ⊢
    generalize roundDiv .toEven (num * twoTo (-exponent).toNat) (den * twoTo exponent.toNat) =
      significand at bound ⊢
    by_cases carried : significand = significandBound
    · -- The power of two that the significand reached is no greater than the bound
      have halved : significand = significand / 2 * 2 := by
        rw [carried]
        decide
      have room : exponent + 53 ≤ place := by
        have reached : (2 : ℚ) ^ (exponent + 53) = magnitude significand exponent := by
          rw [carried, magnitude, significandBound, twoTo_cast, zpow_add₀ (by norm_num), mul_comm]
          norm_num
        exact (zpow_le_zpow_iff_right₀ one_lt_two).1 (reached.le.trans bound)
      have next : ¬ greatestExponent < exponent + 1 := by
        unfold greatestExponent
        omega
      simp only [carried, if_true, next, if_false]
      refine ⟨_, _, rfl, ?_⟩
      rw [magnitude_half, ← carried, ← halved]
      exact bound
    · simp only [carried, if_false, not_lt.2 top]
      exact ⟨_, _, rfl, bound⟩

/-- Finite numbers that are not negative are in the order of their magnitudes. -/
theorem lessThan_iff (left right : Nat) (first second : Int) :
    (finite false left first).lessThan (finite false right second) = true ↔
      magnitude left first < magnitude right second := by
  have unit (significand : Nat) {low exponent : Int} (above : low ≤ exponent) :
      magnitude significand exponent = (significand * twoTo (exponent - low).toNat : Nat) * 2 ^ low := by
    rw [Nat.cast_mul, twoTo_cast, ← zpow_natCast, mul_assoc, ← zpow_add₀ (by norm_num), magnitude]
    congr 2
    omega
  simp only [lessThan, decide_eq_true_eq, Bool.false_eq_true, if_false, Nat.cast_lt]
  rw [unit left (min_le_left first second), unit right (min_le_right first second),
    mul_lt_mul_iff_left₀ (by positivity), Nat.cast_lt]

end Binary64

end DeckBinding.Number
