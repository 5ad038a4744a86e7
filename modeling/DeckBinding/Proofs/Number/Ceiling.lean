import DeckBinding.Number.Binary64

set_option autoImplicit false

namespace DeckBinding.Number

theorem twoTo_add (left right : Nat) : twoTo (left + right) = twoTo left * twoTo right :=
  Nat.pow_add 2 left right

/-- An integer that bounds a quotient from above bounds the nearest integer too. -/
theorem roundDiv_le {tie : Tie} {num den bound : Nat} (positive : 0 < den)
    (below : num ≤ bound * den) : roundDiv tie num den ≤ bound := by
  have split := Nat.div_add_mod num den
  have small := Nat.mod_lt num positive
  have quotient : num / den ≤ bound := by
    have monotone := Nat.div_le_div_right (c := den) below
    rwa [Nat.mul_div_cancel _ positive] at monotone
  rcases Nat.lt_or_eq_of_le quotient with strict | exact
  · unfold roundDiv
    dsimp only
    split
    · omega
    · split
      · omega
      · cases tie with
        | awayFromZero => exact strict
        | toEven =>
          dsimp only
          split
          · omega
          · exact strict
  · -- The quotient reaches the bound, so nothing is left to round
    have rest : num % den = 0 := by
      rw [exact, Nat.mul_comm] at split
      omega
    unfold roundDiv
    dsimp only
    rw [if_pos (by omega)]
    exact quotient

/-- A quotient of no more than half a unit goes to the even one of its two neighbours, to zero. -/
theorem roundDiv_eq_zero {num den : Nat} (positive : 0 < den) (half : 2 * num ≤ den) :
    roundDiv .toEven num den = 0 := by
  have below : num < den := by omega
  unfold roundDiv
  dsimp only
  rw [Nat.div_eq_of_lt below, Nat.mod_eq_of_lt below]
  split
  · rfl
  · rw [if_neg (by omega), if_pos rfl]

/-- A quotient more than half a unit above an integer has its nearest integer above it. -/
theorem lt_roundDiv {tie : Tie} {num den bound : Nat} (positive : 0 < den)
    (above : 2 * (bound * den) + den < 2 * num) : bound < roundDiv tie num den := by
  have within := (roundDiv_within tie num den positive).1
  rcases Nat.lt_or_ge bound (roundDiv tie num den) with done | low
  · exact done
  · have product := Nat.mul_le_mul_right den low
    omega

theorem ceilDiv_eq {num den ceiling : Nat} (above : num ≤ ceiling * den)
    (below : ceiling * den < num + den) : (num + den - 1) / den = ceiling := by
  have next : (ceiling + 1) * den = ceiling * den + den := Nat.succ_mul _ _
  refine Nat.div_eq_of_lt_le ?_ ?_
  · omega
  · omega

theorem ceilDiv_eq_one {num den : Nat} (positive : 0 < num) (below : num ≤ den) :
    (num + den - 1) / den = 1 :=
  ceilDiv_eq (by omega) (by omega)

theorem ceilDiv_bounds {num den : Nat} (positive : 0 < den) :
    num ≤ (num + den - 1) / den * den ∧ (num + den - 1) / den * den < num + den := by
  have split := Nat.div_add_mod (num + den - 1) den
  have small := Nat.mod_lt (num + den - 1) positive
  rw [Nat.mul_comm] at split
  omega

namespace Binary64

/-- The binary exponent of a quotient is no greater than its logarithm. -/
theorem le_of_binaryExponent {num den : Nat} (positive : 0 < num) :
    den * twoTo (binaryExponent num den).toNat ≤ num * twoTo (-binaryExponent num den).toNat := by
  have lower : twoTo num.log2 ≤ num := Nat.log2_self_le (Nat.ne_of_gt positive)
  have upper : den < twoTo (den.log2 + 1) := Nat.lt_log2_self
  unfold binaryExponent
  dsimp only
  split
  · rename_i less
    -- One power of two lower, the estimate by the lengths of the two numbers suffices
    rcases Int.le_total (num.log2 : Int) den.log2 with short | long
    · have place : (-((num.log2 : Int) - den.log2 - 1)).toNat = den.log2 + 1 - num.log2 := by omega
      have none : ((num.log2 : Int) - den.log2 - 1).toNat = 0 := by omega
      rw [place, none, twoTo_zero, Nat.mul_one]
      have product := Nat.mul_le_mul_right (twoTo (den.log2 + 1 - num.log2)) lower
      rw [← twoTo_add, Nat.add_sub_cancel' (by omega)] at product
      omega
    · have place : ((num.log2 : Int) - den.log2).toNat = num.log2 - den.log2 := by omega
      have none : (-((num.log2 : Int) - den.log2)).toNat = 0 := by omega
      rw [place, none, twoTo_zero, Nat.mul_one] at less
      rcases Nat.eq_or_lt_of_le (Int.ofNat_le.1 long) with same | longer
      · have one : (-((num.log2 : Int) - den.log2 - 1)).toNat = 1 := by omega
        have zero : ((num.log2 : Int) - den.log2 - 1).toNat = 0 := by omega
        rw [one, zero, twoTo_zero, Nat.mul_one, twoTo_succ, twoTo_zero, Nat.one_mul]
        rw [same, twoTo_succ] at upper
        omega
      · have down : ((num.log2 : Int) - den.log2 - 1).toNat = num.log2 - den.log2 - 1 := by omega
        have zero : (-((num.log2 : Int) - den.log2 - 1)).toNat = 0 := by omega
        rw [down, zero, twoTo_zero, Nat.mul_one]
        have product := Nat.mul_le_mul_right (twoTo (num.log2 - den.log2 - 1)) (Nat.le_of_lt upper)
        rw [← twoTo_add, show den.log2 + 1 + (num.log2 - den.log2 - 1) = num.log2 by omega] at product
        omega
  · rename_i enough
    exact Nat.le_of_not_lt enough

theorem binaryExponent_bounds {num den : Nat} :
    binaryExponent num den ≤ num.log2 ∧ -(den.log2 : Int) - 1 ≤ binaryExponent num den := by
  unfold binaryExponent
  dsimp only
  split
  · omega
  · omega

/-- The significand of a quotient has all its digits, so the error is small beside the quotient. -/
theorem le_of_scaled {num den scale : Nat} (positive : 0 < num)
    (chosen : binaryExponent num den = 52 - (scale : Int)) :
    den * twoTo 52 ≤ num * twoTo scale := by
  have lower := @le_of_binaryExponent num den positive
  rw [chosen] at lower
  rcases Nat.le_total scale 52 with few | many
  · have up : (52 - (scale : Int)).toNat = 52 - scale := by omega
    have none : (-(52 - (scale : Int))).toNat = 0 := by omega
    rw [up, none, twoTo_zero, Nat.mul_one] at lower
    have product := Nat.mul_le_mul_right (twoTo scale) lower
    rwa [Nat.mul_assoc, ← twoTo_add, Nat.sub_add_cancel few] at product
  · have none : (52 - (scale : Int)).toNat = 0 := by omega
    have down : (-(52 - (scale : Int))).toNat = scale - 52 := by omega
    rw [none, down, twoTo_zero, Nat.mul_one] at lower
    have product := Nat.mul_le_mul_right (twoTo 52) lower
    rwa [Nat.mul_assoc, ← twoTo_add, Nat.sub_add_cancel many] at product

/-- The rounded quotient of two naturals below the bound of significands. -/
theorem significand_bounds {num den scale : Nat} (divisor : 0 < den) (positive : 0 < num)
    (small : num < significandBound) (chosen : binaryExponent num den = 52 - (scale : Int)) :
    roundDiv .toEven (num * twoTo scale) den ≤ (num + den - 1) / den * twoTo scale ∧
      (num + den - 1) / den * twoTo scale <
        roundDiv .toEven (num * twoTo scale) den + twoTo scale := by
  have enough := le_of_scaled positive chosen
  obtain ⟨above, below⟩ := @ceilDiv_bounds num den divisor
  generalize (num + den - 1) / den = ceiling at above below ⊢
  have scalePos := twoTo_pos scale
  constructor
  · refine roundDiv_le divisor ?_
    calc num * twoTo scale ≤ ceiling * den * twoTo scale := Nat.mul_le_mul_right _ above
      _ = ceiling * twoTo scale * den := Nat.mul_right_comm _ _ _
  · obtain ⟨lower, rfl⟩ : ∃ lower, ceiling = lower + 1 := by
      cases ceiling with
      | zero => omega
      | succ lower => exact ⟨lower, rfl⟩
    rw [Nat.succ_mul] at below ⊢
    refine Nat.add_lt_add_right (lt_roundDiv divisor ?_) _
    -- One more than the product below the ceiling adds more than half a unit
    have half : den < 2 * twoTo scale := by
      have bounded : num * twoTo scale < twoTo 53 * twoTo scale :=
        Nat.mul_lt_mul_of_pos_right small scalePos
      have double : twoTo 53 * twoTo scale = 2 * twoTo scale * twoTo 52 := by
        rw [twoTo_succ 52, Nat.mul_assoc, Nat.mul_comm]
      rw [double] at bounded
      exact Nat.lt_of_mul_lt_mul_right (Nat.lt_of_le_of_lt enough bounded)
    have step : (lower * den + 1) * twoTo scale ≤ num * twoTo scale :=
      Nat.mul_le_mul_right _ (by omega)
    rw [Nat.succ_mul, Nat.mul_right_comm] at step
    omega

theorem ceil?_finite (significand scale : Nat) :
    (Binary64.finite false significand (-(scale : Int))).ceil? =
      some (((significand + twoTo scale - 1) / twoTo scale : Nat) : Int) := by
  have none : (-(scale : Int)).toNat = 0 := by omega
  have back : (- -(scale : Int)).toNat = scale := by omega
  simp only [ceil?, quotient, none, back, twoTo_zero, Nat.mul_one, Bool.false_eq_true, if_false]

/-- The last digit of a quotient of a natural below the bound of significands stands at most as far
behind the point as the digits of doubles go. -/
theorem exists_scale {num den : Nat} (positive : 0 < num) (small : num < significandBound) :
    ∃ scale : Nat, scale ≤ 1074 ∧ max (binaryExponent num den - 52) leastExponent = -(scale : Int) ∧
      (scale < 1074 → binaryExponent num den = 52 - (scale : Int)) := by
  have length : num.log2 < 53 := (Nat.log2_lt (Nat.ne_of_gt positive)).2 small
  obtain ⟨most, _⟩ := @binaryExponent_bounds num den
  unfold leastExponent
  refine ⟨(-max (binaryExponent num den - 52) (-1074)).toNat, ?_, ?_, ?_⟩
  · omega
  · omega
  · omega

/-- The ceiling of a quotient as a double is that of its rounded significand. -/
theorem ceil?_ofQuotient_scaled {num den scale : Nat} (divisor : 0 < den) (positive : 0 < num)
    (small : num < significandBound)
    (place : max (binaryExponent num den - 52) leastExponent = -(scale : Int)) :
    (ofQuotient false num den).ceil? =
      some (((roundDiv .toEven (num * twoTo scale) den + twoTo scale - 1) / twoTo scale : Nat) : Int) := by
  have none : (-(scale : Int)).toNat = 0 := by omega
  have back : (- -(scale : Int)).toNat = scale := by omega
  have scaled : roundDiv .toEven (num * twoTo scale) den ≤ num * twoTo scale :=
    roundDiv_le divisor (Nat.le_mul_of_pos_right _ divisor)
  unfold ofQuotient
  simp only [Nat.ne_of_gt positive, if_false, place, none, back, twoTo_zero, Nat.mul_one]
  generalize roundDiv .toEven (num * twoTo scale) den = significand at scaled ⊢
  split
  · -- Rounding up to the next power of two: half of it with the next exponent
    rename_i carried
    obtain ⟨less, rfl⟩ : ∃ less, scale = less + 1 := by
      cases scale with
      | zero =>
        rw [twoTo_zero, Nat.mul_one, carried] at scaled
        omega
      | succ less => exact ⟨less, rfl⟩
    have halved : significand / 2 = twoTo 52 := by
      rw [carried]
      rfl
    have doubled : significand = twoTo 52 * 2 := carried
    have next : -((less + 1 : Nat) : Int) + 1 = -(less : Int) := by omega
    have finite : ¬ greatestExponent < -(less : Int) := by
      unfold greatestExponent
      omega
    obtain ⟨above, below⟩ := @ceilDiv_bounds (twoTo 52) _ (twoTo_pos less)
    have ceiling : (significand + twoTo (less + 1) - 1) / twoTo (less + 1) =
        (twoTo 52 + twoTo less - 1) / twoTo less := by
      rw [doubled, twoTo_succ less]
      apply ceilDiv_eq
      · rw [← Nat.mul_assoc]
        omega
      · rw [← Nat.mul_assoc]
        omega
    rw [next]
    simp only [finite, if_false, halved, ceil?_finite, ceiling]
  · have finite : ¬ greatestExponent < -(scale : Int) := by
      unfold greatestExponent
      omega
    simp only [finite, if_false, ceil?_finite]

/-- The double nearest to a quotient of naturals below the bound of significands has the ceiling of
the quotient itself. -/
theorem ceil?_ofQuotient {num den : Nat} (divisor : 0 < den) (small : num < significandBound)
    (smallDivisor : den < significandBound) :
    (ofQuotient false num den).ceil? = some (((num + den - 1) / den : Nat) : Int) := by
  rcases Nat.eq_zero_or_pos num with rfl | positive
  · have none : (0 + den - 1) / den = 0 := Nat.div_eq_of_lt (by omega)
    rw [none]
    rfl
  · have lengthDivisor : den.log2 < 53 := (Nat.log2_lt (Nat.ne_of_gt divisor)).2 smallDivisor
    obtain ⟨_, least⟩ := @binaryExponent_bounds num den
    obtain ⟨scale, _, place, chosen⟩ := @exists_scale num den positive small
    have inside : scale < 1074 := by
      unfold leastExponent at place
      omega
    obtain ⟨upper, lower⟩ := significand_bounds divisor positive small (chosen inside)
    rw [ceil?_ofQuotient_scaled divisor positive small place, ceilDiv_eq upper lower]

/-- A divisor so great that the quotient is no more than half of the least double above zero. -/
def Vanishes (num den : Nat) : Prop :=
  num * twoTo 1075 ≤ den

instance (num den : Nat) : Decidable (Vanishes num den) :=
  inferInstanceAs (Decidable (num * twoTo 1075 ≤ den))

/-- The rounded quotient is zero where the quotient vanishes, and only there. -/
theorem roundDiv_scaled_eq_zero_iff {num den scale : Nat} (divisor : 0 < den) (positive : 0 < num)
    (inside : scale ≤ 1074) (chosen : scale < 1074 → binaryExponent num den = 52 - (scale : Int)) :
    roundDiv .toEven (num * twoTo scale) den = 0 ↔ Vanishes num den := by
  have double (exponent : Nat) : num * twoTo (exponent + 1) = 2 * (num * twoTo exponent) := by
    rw [twoTo_succ, ← Nat.mul_assoc, Nat.mul_comm]
  unfold Vanishes
  rw [double 1074]
  rcases Nat.lt_or_eq_of_le inside with earlier | rfl
  · -- A significand with all its digits is not zero
    have enough := le_of_scaled positive (chosen earlier)
    have more : den * 1 < den * twoTo 52 := Nat.mul_lt_mul_of_pos_left (by decide) divisor
    have further : num * twoTo scale ≤ num * twoTo 1074 := by
      apply Nat.mul_le_mul_left
      obtain ⟨rest, whole⟩ := Nat.exists_eq_add_of_le inside
      rw [whole, twoTo_add]
      exact Nat.le_mul_of_pos_right _ (twoTo_pos rest)
    have filled := @lt_roundDiv .toEven (num * twoTo scale) den 0 divisor (by omega)
    omega
  · constructor
    · intro zero
      rcases Nat.lt_or_ge den (2 * (num * twoTo 1074)) with above | below
      · have filled := @lt_roundDiv .toEven (num * twoTo 1074) den 0 divisor (by omega)
        omega
      · exact below
    · exact roundDiv_eq_zero divisor

/-- The double nearest to a quotient of a natural below the bound of significands has the ceiling of
the quotient itself, unless the quotient vanishes. -/
theorem ceil?_ofQuotient_eq {num den : Nat} (divisor : 0 < den) (small : num < significandBound) :
    (ofQuotient false num den).ceil? =
      some ((if Vanishes num den then 0 else (num + den - 1) / den : Nat) : Int) := by
  rcases Nat.eq_zero_or_pos num with rfl | positive
  · rw [if_pos (show Vanishes 0 den by simp [Vanishes])]
    rfl
  · obtain ⟨scale, inside, place, chosen⟩ := @exists_scale num den positive small
    have zero := roundDiv_scaled_eq_zero_iff divisor positive inside chosen
    rcases Nat.lt_or_ge den significandBound with smallDivisor | great
    · have fills : ¬ Vanishes num den := by
        have power : twoTo 53 ≤ twoTo 1075 := by
          rw [show 1075 = 53 + 1022 from rfl, twoTo_add]
          exact Nat.le_mul_of_pos_right _ (twoTo_pos 1022)
        have product : 1 * twoTo 1075 ≤ num * twoTo 1075 := Nat.mul_le_mul_right _ positive
        unfold significandBound at smallDivisor
        unfold Vanishes
        omega
      rw [ceil?_ofQuotient divisor small smallDivisor, if_neg fills]
    · -- The quotient lies between zero and one, and so does the double
      have below : roundDiv .toEven (num * twoTo scale) den ≤ twoTo scale := by
        apply roundDiv_le divisor
        rw [Nat.mul_comm]
        exact Nat.mul_le_mul_left _ (Nat.le_trans (Nat.le_of_lt small) great)
      have scalePos := twoTo_pos scale
      rw [ceil?_ofQuotient_scaled divisor positive small place]
      by_cases vanishes : Vanishes num den
      · rw [if_pos vanishes, zero.2 vanishes, Nat.div_eq_of_lt (by omega)]
      · have filled := mt zero.1 vanishes
        rw [if_neg vanishes, ceilDiv_eq_one positive (Nat.le_trans (Nat.le_of_lt small) great),
          ceilDiv_eq_one (Nat.pos_of_ne_zero filled) below]

end Binary64

end DeckBinding.Number
