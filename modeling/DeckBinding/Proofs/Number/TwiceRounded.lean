import DeckBinding.Proofs.Number.Magnitude

set_option autoImplicit false

/-! Numbers that are rounded twice. A hundred times a decimal is rounded to the working precision, ties to even, and
then to fraction digits, ties away from zero. This comes to the second rounding alone unless the first one takes the
number up to a tie of the second, or down from one. -/

namespace DeckBinding.Number

/-- A number is moved up to a tie, or down from there. -/
def MovedAt (tie x y : ℚ) : Prop :=
  x < tie ∧ y = tie ∨ x = tie ∧ y < tie

/-- A number is moved up to the middle between two naturals, or down from there. -/
def MovedAtHalf (x y : ℚ) : Prop :=
  ∃ n : Nat, MovedAt (n + 1 / 2) x y

/-- A tie is reached before the move or behind it, and not both times. -/
theorem MovedAt.not_iff {tie x y : ℚ} (moved : MovedAt tie x y) : ¬ (tie ≤ x ↔ tie ≤ y) := by
  intro same
  rcases moved with ⟨less, half⟩ | ⟨half, less⟩
  · exact not_le.2 less (same.2 half.ge)
  · exact not_le.2 less (same.1 half.ge)

/-- Two numbers are rounded to the same units when they lie on the same side of each tie. -/
theorem roundedUnits_eq_iff {x y : ℚ} {places : Nat} (left : 0 ≤ x) (right : 0 ≤ y) :
    roundedUnits x places = roundedUnits y places ↔
      ∀ n : Nat, (n : ℚ) + 1 / 2 ≤ x * 10 ^ places ↔ (n : ℚ) + 1 / 2 ≤ y * 10 ^ places := by
  have reaches {z : ℚ} (nonneg : 0 ≤ z) (n : Nat) :
      n + 1 ≤ roundedUnits z places ↔ (n : ℚ) + 1 / 2 ≤ z * 10 ^ places := by
    rw [le_roundedUnits_iff nonneg]
    push_cast
    constructor <;> intro less <;> linarith
  constructor
  · intro same n
    rw [← reaches left, ← reaches right, same]
  · intro sides
    refine eq_of_forall_le_iff fun bound => ?_
    cases bound with
    | zero => exact iff_of_true (Nat.zero_le _) (Nat.zero_le _)
    | succ n => rw [reaches left, reaches right, sides n]

/-- A number and its nearest integer, in larger units, lie on the same side of a tie, unless one of
them is the tie and the other lies below it: twice the tie is an integer, and twice the distance is
one at most. -/
theorem half_le_iff_of_near {x : ℚ} {nearest : Nat} (near : |(nearest : ℚ) - x| ≤ 1 / 2) (shift n : Nat) :
    ((n : ℚ) + 1 / 2 ≤ x / 10 ^ shift ↔ (n : ℚ) + 1 / 2 ≤ nearest / 10 ^ shift) ↔
      ¬ MovedAt (n + 1 / 2) (x / 10 ^ shift) (nearest / 10 ^ shift) := by
  refine ⟨fun same moved => moved.not_iff same, fun stays => ?_⟩
  have scale : (0 : ℚ) < 10 ^ shift := by positivity
  have tie : ((n : ℚ) + 1 / 2) * 10 ^ shift = ((2 * n + 1) * 10 ^ shift : Nat) / 2 := by
    push_cast
    ring
  generalize (2 * n + 1) * 10 ^ shift = twice at tie
  obtain ⟨above, below⟩ := abs_le.1 near
  rw [MovedAt, div_lt_iff₀ scale, div_lt_iff₀ scale, div_eq_iff scale.ne', div_eq_iff scale.ne', tie] at stays
  rw [le_div_iff₀ scale, le_div_iff₀ scale, tie]
  constructor
  · intro reached
    by_contra missed
    have less : 2 * nearest < twice := by
      exact_mod_cast (show (2 * nearest : ℚ) < twice by linarith)
    have next : ((2 * nearest + 1 : Nat) : ℚ) ≤ twice := by exact_mod_cast less
    push_cast at next
    exact stays (.inr ⟨by linarith, not_le.1 missed⟩)
  · intro reached
    by_contra missed
    have less : 2 * nearest < twice + 1 := by
      exact_mod_cast (show (2 * nearest : ℚ) < twice + 1 by linarith)
    have last : ((2 * nearest : Nat) : ℚ) ≤ twice := by exact_mod_cast Nat.le_of_lt_succ less
    push_cast at last
    exact stays (.inl ⟨not_le.1 missed, by linarith⟩)

/-- A rounded quotient is at most a half away from the quotient. -/
theorem near_roundDiv (tie : Tie) (num : Nat) {den : Nat} (positive : 0 < den) :
    |(roundDiv tie num den : ℚ) - num / den| ≤ 1 / 2 := by
  obtain ⟨high, low⟩ := roundDiv_within tie num den positive
  have scale : (0 : ℚ) < den := by exact_mod_cast positive
  have below : ((2 * (roundDiv tie num den * den) : Nat) : ℚ) ≤ ((2 * num + den : Nat) : ℚ) := by
    exact_mod_cast low
  have above : ((2 * num : Nat) : ℚ) ≤ ((2 * (roundDiv tie num den * den) + den : Nat) : ℚ) := by
    exact_mod_cast high
  push_cast at below above
  rw [sub_div' scale.ne', abs_div, abs_of_pos scale, div_le_iff₀ scale, abs_le]
  constructor <;> linarith

namespace Decimal

/-- A product rounded to the working precision and then to fraction digits is the product rounded to
these alone, unless the first rounding moves it at a tie of the second. -/
theorem roundedUnits_working_eq_iff (product : Nat) (exponent : Int) (places : Nat) :
    let excess := digitCount product - precision
    let working := magnitude (roundDiv .toEven product (10 ^ excess)) (exponent + excess)
    ¬ 10 ^ precision ≤ roundedUnits working places →
      (roundedUnits (magnitude product exponent) places = roundedUnits working places ↔
        ¬ MovedAtHalf (magnitude product exponent * 10 ^ places) (working * 10 ^ places)) := by
  intro excess working few
  rw [roundedUnits_eq_iff (magnitude_nonneg _ _) (magnitude_nonneg _ _), MovedAtHalf, not_exists]
  refine forall_congr' fun n => ?_
  by_cases kept : excess = 0
  · have same : working = magnitude product exponent := by
      simp only [working, kept, Nat.pow_zero, roundDiv_one, Nat.cast_zero, add_zero]
    rw [← same]
    exact iff_of_true Iff.rfl fun moved => moved.not_iff Iff.rfl
  · have filled : product ≠ 0 := by
      rintro rfl
      exact kept (by decide)
    have digits : digitCount product = precision + excess := by omega
    have behind : exponent + excess + places ≤ 0 :=
      not_lt.1 fun front => few (le_roundedUnits_rounded filled digits front)
    obtain ⟨shift, place⟩ := Int.eq_ofNat_of_zero_le (Int.neg_nonneg.2 behind)
    have whole : magnitude product exponent * 10 ^ places = product / 10 ^ excess / 10 ^ shift := by
      rw [magnitude_mul_pow, show exponent + places = -((excess + shift : Nat) : Int) by omega, magnitude_neg,
        div_div]
      push_cast
      rw [pow_add]
    have rounded : working * 10 ^ places = (roundDiv .toEven product (10 ^ excess) : ℚ) / 10 ^ shift := by
      rw [magnitude_mul_pow, show exponent + excess + places = -(shift : Int) by omega, magnitude_neg]
      push_cast
      rfl
    rw [whole, rounded]
    exact half_le_iff_of_near (by exact_mod_cast near_roundDiv .toEven product (Nat.pow_pos (by decide))) shift n

section Hundredfold

variable {negative : Bool} {coefficient product : Nat} {exponent place : Int}

theorem timesHundred_eq_ok (done : timesHundred negative coefficient exponent = .ok (.finite negative product place)) :
    let excess := digitCount (coefficient * 100) - precision
    product = roundDiv .toEven (coefficient * 100) (10 ^ excess) ∧ place = exponent + excess := by
  intro excess
  unfold timesHundred at done
  dsimp only at done
  split at done
  · rename_i zero
    cases done
    subst zero
    exact ⟨by decide, (add_zero exponent).symm⟩
  · split at done
    · cases done
    · cases done
      exact ⟨rfl, rfl⟩

/-- A hundred times a decimal is exact, if it needs no more digits than the working precision. -/
theorem timesHundred_exact (done : timesHundred negative coefficient exponent = .ok (.finite negative product place))
    (short : coefficient * 100 < 10 ^ precision) : product = coefficient * 100 ∧ place = exponent := by
  obtain ⟨rfl, rfl⟩ := timesHundred_eq_ok done
  have digits : digitCount (coefficient * 100) ≤ precision :=
    Nat.le_of_not_lt fun long => Nat.not_le_of_lt short (precision_lt_digitCount_iff.1 long)
  rw [Nat.sub_eq_zero_of_le digits, Nat.pow_zero, roundDiv_one]
  exact ⟨rfl, add_zero exponent⟩

/-- The working product of a decimal is rounded like a hundred times the decimal, unless the product
was moved at a tie. -/
theorem roundedUnits_timesHundred_eq_iff {places : Nat}
    (done : timesHundred negative coefficient exponent = .ok (.finite negative product place))
    (few : ¬ 10 ^ precision ≤ roundedUnits (magnitude product place) places) :
    roundedUnits (magnitude (coefficient * 100) exponent) places = roundedUnits (magnitude product place) places ↔
      ¬ MovedAtHalf (100 * magnitude coefficient exponent * 10 ^ places) (magnitude product place * 10 ^ places) := by
  obtain ⟨rfl, rfl⟩ := timesHundred_eq_ok done
  rw [← magnitude_mul_hundred]
  exact roundedUnits_working_eq_iff (coefficient * 100) exponent places few

end Hundredfold

end Decimal

end DeckBinding.Number
