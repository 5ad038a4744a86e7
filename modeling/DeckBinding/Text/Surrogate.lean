set_option autoImplicit false

/-!
Halves of surrogate pairs. An escape can name half of a pair, which is no character. A text holds an
unassigned character in its place, and shows the number of the half where numbers of characters show.
-/

namespace DeckBinding.Text

def isSurrogate (code : Nat) : Bool :=
  0xd800 ≤ code && code < 0xe000

/-- The distance from a half of a surrogate pair to the character that stands for it. -/
def surrogateShift : Nat := 0xd3800

/-- The character with a number; none above the last one. -/
def characterOf? (code : Nat) : Option Char :=
  if 0x10ffff < code then none
  else some (Char.ofNat (if isSurrogate code then code + surrogateShift else code))

/-- The number of a character, or of the half that it stands for. -/
def codeOf (c : Char) : Nat :=
  if isSurrogate (c.toNat - surrogateShift) then c.toNat - surrogateShift else c.toNat

private theorem toNat_ofNat_of_valid {n : Nat} (valid : n.isValidChar) : (Char.ofNat n).toNat = n := by
  have chosen : Char.ofNat n = Char.ofNatAux n valid := dif_pos valid
  rw [chosen]
  rfl

theorem codeOf_characterOf? {code : Nat} (small : code < 0xe1000) :
    (characterOf? code).map codeOf = some code := by
  have valid : ¬ 0x10ffff < code := by omega
  simp only [characterOf?, valid, if_false, Option.map_some, Option.some.injEq]
  by_cases half : 0xd800 ≤ code ∧ code < 0xe000
  · have isHalf : isSurrogate code = true := by simp [isSurrogate, half]
    have shifted : (Char.ofNat (code + surrogateShift)).toNat = code + surrogateShift :=
      toNat_ofNat_of_valid (by simp only [surrogateShift, Nat.isValidChar]; omega)
    simp only [isHalf, if_true, codeOf, shifted, Nat.add_sub_cancel]
  · have isWhole : isSurrogate code = false := by
      simp only [isSurrogate, Bool.and_eq_false_iff, decide_eq_false_iff_not]
      omega
    have number : (Char.ofNat code).toNat = code :=
      toNat_ofNat_of_valid (by simp only [Nat.isValidChar]; omega)
    have away : isSurrogate (code - surrogateShift) = false := by
      have low : code - surrogateShift < 0xd800 := by unfold surrogateShift; omega
      simp [isSurrogate, Nat.not_le.2 low]
    simp only [isWhole, Bool.false_eq_true, if_false, codeOf, number, away]

end DeckBinding.Text
