set_option autoImplicit false

namespace DeckBinding.Number

/-- Where a quotient goes that lies exactly between two integers. -/
inductive Tie where
  | toEven
  | awayFromZero
deriving DecidableEq

def roundDiv (tie : Tie) (num den : Nat) : Nat :=
  let quotient := num / den
  let remainder := num % den
  if 2 * remainder < den then quotient
  else if den < 2 * remainder then quotient + 1
  else match tie with
    | .awayFromZero => quotient + 1
    | .toEven => if quotient % 2 = 0 then quotient else quotient + 1

/-- The nearest integer lies within half a unit of the quotient. -/
theorem roundDiv_within (tie : Tie) (num den : Nat) (positive : 0 < den) :
    2 * num ≤ 2 * (roundDiv tie num den * den) + den ∧
      2 * (roundDiv tie num den * den) ≤ 2 * num + den := by
  have split := Nat.div_add_mod num den
  have small := Nat.mod_lt num positive
  rw [Nat.mul_comm] at split
  have succ : (num / den + 1) * den = num / den * den + den := Nat.succ_mul _ _
  unfold roundDiv
  dsimp only
  split
  · omega
  · split
    · omega
    · cases tie with
      | awayFromZero => dsimp only; omega
      | toEven => dsimp only; split <;> omega

end DeckBinding.Number
