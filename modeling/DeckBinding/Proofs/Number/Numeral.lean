import DeckBinding.Number.Numeral
import DeckBinding.Proofs.Text.Name
import Mathlib.Algebra.Group.Nat.Defs
import Mathlib.Data.List.TakeWhile

set_option autoImplicit false

namespace DeckBinding.Number

open DeckBinding.Text

theorem digitValue?_of_isDigit {c : Char} (digit : c.isDigit = true) :
    digitValue? c = some (c.toNat - 48) := by
  have range : ('0' ≤ c && c ≤ '9') = true := digit
  rw [digitValue?, range]
  rfl

theorem isDecimalDigit_of_isDigit {c : Char} (digit : c.isDigit = true) :
    isDecimalDigit c = true := by
  rw [isDecimalDigit, digitValue?_of_isDigit digit]
  rfl

theorem ofDigitValues_of_isDigit {digits : List Char} (plain : ∀ c ∈ digits, c.isDigit = true) :
    ofDigitValues (digits.filterMap digitValue?) = Nat.ofDigitChars 10 digits 0 := by
  unfold ofDigitValues
  generalize 0 = number
  induction digits generalizing number with
  | nil => rfl
  | cons c rest ih =>
    rw [List.filterMap_cons_some (digitValue?_of_isDigit (plain c List.mem_cons_self)),
      List.foldl_cons, Nat.ofDigitChars_cons]
    exact ih (fun d member => plain d (List.mem_cons_of_mem c member)) _

theorem isDigit_of_mem_numeral {number : Nat} {c : Char} (member : c ∈ Nat.toDigits 10 number) :
    c.isDigit = true :=
  Nat.isDigit_of_mem_toDigits (by decide) (by decide) member

theorem exists_numeral_concat (number : Nat) :
    ∃ front last, Nat.toDigits 10 number = front ++ [last] ∧ last.isDigit = true := by
  rcases List.eq_nil_or_concat (Nat.toDigits 10 number) with none | ⟨front, last, same⟩
  · exact absurd none Nat.toDigits_ne_nil
  · rw [List.concat_eq_append] at same
    refine ⟨front, last, same, ?_⟩
    apply @isDigit_of_mem_numeral number
    rw [same]
    exact List.mem_append_right _ List.mem_cons_self

theorem ofDigitValues_numeral (number : Nat) :
    ofDigitValues ((Nat.toDigits 10 number).filterMap digitValue?) = number := by
  rw [ofDigitValues_of_isDigit fun c member => isDigit_of_mem_numeral member,
    Nat.ofDigitChars_ten_toDigits]

theorem writeBound_eq : writeBound = 10 ^ digitLimit := by
  unfold writeBound tenTo
  generalize digitLimit = digits
  rfl

theorem length_numeral_le {number : Nat} (bound : number < writeBound) :
    (Nat.toDigits 10 number).length ≤ digitLimit := by
  rw [writeBound_eq] at bound
  exact (Nat.length_toDigits_le_iff (by decide) (by decide)).2 bound

theorem foldl_digits_lt {values : List Nat} (digits : ∀ value ∈ values, value < 10) (number : Nat) :
    values.foldl (fun number digit => 10 * number + digit) number <
      (number + 1) * 10 ^ values.length := by
  induction values generalizing number with
  | nil => simp
  | cons value rest ih =>
    have small := digits value List.mem_cons_self
    have behind := ih (fun other member => digits other (List.mem_cons_of_mem _ member))
      (10 * number + value)
    rw [List.foldl_cons, List.length_cons]
    calc rest.foldl (fun number digit => 10 * number + digit) (10 * number + value)
        < (10 * number + value + 1) * 10 ^ rest.length := behind
      _ ≤ (number + 1) * 10 * 10 ^ rest.length := Nat.mul_le_mul_right _ (by omega)
      _ = (number + 1) * 10 ^ (rest.length + 1) := by rw [Nat.pow_succ', Nat.mul_assoc]

/-- A number that is read has a numeral. -/
theorem lt_writeBound_of_readDigits {digits : List Char} {number : Nat}
    (read : readDigits digits = .ok number) : number < writeBound := by
  unfold readDigits at read
  split at read
  · rename_i short
    cases read
    have bound := @foldl_digits_lt (digits.filterMap digitValue?) (fun value member => by
      obtain ⟨c, _, found⟩ := List.mem_filterMap.1 member
      exact digitValue?_lt found) 0
    have length : (digits.filterMap digitValue?).length ≤ digitLimit :=
      Nat.le_trans (List.length_filterMap_le _ _) short
    rw [Nat.zero_add, Nat.one_mul] at bound
    rw [writeBound_eq]
    exact Nat.lt_of_lt_of_le bound (Nat.pow_le_pow_right (by decide) length)
  · cases read

theorem readDigits_numeral {number : Nat} (bound : number < writeBound) :
    readDigits (Nat.toDigits 10 number) = .ok number := by
  rw [readDigits, if_pos (length_numeral_le bound), ofDigitValues_numeral]

theorem lt_writeBound_of_lt {number : Nat} (small : number < 2 ^ 53) : number < writeBound := by
  have power : 10 ^ 16 ≤ 10 ^ digitLimit := Nat.pow_le_pow_right (by decide) (by decide)
  have bound : number < 10 ^ 16 := Nat.lt_of_lt_of_le small (by decide)
  rw [writeBound_eq]
  exact Nat.lt_of_lt_of_le bound power

theorem writeBound_pos : 0 < writeBound :=
  lt_writeBound_of_lt (by decide)

theorem write_natCast {number : Nat} (bound : number < writeBound) :
    write (number : Int) = .ok (toString number) := by
  rw [write, Int.natAbs_natCast, if_pos bound]
  rfl

theorem isBlank_of_isNumeralBlank {c : Char} (blank : isNumeralBlank c = true) :
    isBlank c = true := by
  simp only [isNumeralBlank, Bool.or_eq_true, Bool.and_eq_true, decide_eq_true_eq,
    beq_iff_eq] at blank
  rcases blank with (tabs | space) | ⟨_, other⟩
  · simp only [isBlank, inRanges, blankRanges, List.any_cons, Bool.or_eq_true, Bool.and_eq_true,
      decide_eq_true_eq]
    omega
  · simp only [isBlank, inRanges, blankRanges, List.any_cons, Bool.or_eq_true, Bool.and_eq_true,
      decide_eq_true_eq]
    omega
  · exact other

theorem takeSign_of_isDigit {c : Char} (digit : c.isDigit = true) (rest : List Char) :
    takeSign (c :: rest) = (false, c :: rest) := by
  unfold takeSign
  split
  · rename_i same
    cases same
    cases digit
  · rename_i same
    cases same
    cases digit
  · rfl

theorem underscoresFit_of_isDigit {digits : List Char} (plain : ∀ c ∈ digits, c.isDigit = true) :
    underscoresFit digits = true := by
  fun_induction underscoresFit digits with
  | case1 => rfl
  | case2 => exact plain '_' List.mem_cons_self
  | case3 => exact plain '_' List.mem_cons_self
  | case4 c rest _ _ ih => exact ih fun d member => plain d (List.mem_cons_of_mem c member)

theorem readInteger_numeral {number : Nat} (bound : number < writeBound) :
    readInteger (Nat.toDigits 10 number) = .ok (number : Int) := by
  have plain : ∀ c ∈ Nat.toDigits 10 number, c.isDigit = true :=
    fun c member => isDigit_of_mem_numeral member
  have digit : ∀ c ∈ Nat.toDigits 10 number, isDecimalDigit c = true :=
    fun c member => isDecimalDigit_of_isDigit (plain c member)
  have length := length_numeral_le bound
  have value := ofDigitValues_numeral number
  have nonempty : Nat.toDigits 10 number ≠ [] := Nat.toDigits_ne_nil
  generalize Nat.toDigits 10 number = digits at plain digit length value nonempty ⊢
  obtain ⟨c, rest, rfl⟩ := List.exists_cons_of_ne_nil nonempty
  have first := plain c List.mem_cons_self
  have full : isNumeralBlank c = false := by
    cases blank : isNumeralBlank c with
    | false => rfl
    | true =>
      have word := isWord_of_isBlank (isBlank_of_isNumeralBlank blank)
      rw [isWord_of_isDigit first] at word
      cases word
  have dropped : (c :: rest).dropWhile isNumeralBlank = c :: rest := by
    rw [List.dropWhile_cons_of_neg]
    rw [full]
    exact Bool.false_ne_true
  have run : (c :: rest).takeWhile (fun d => isDecimalDigit d || d == '_') = c :: rest := by
    rw [List.takeWhile_eq_self_iff]
    intro d member
    rw [digit d member]
    rfl
  have kept : (c :: rest).filter isDecimalDigit = c :: rest := List.filter_eq_self.2 digit
  have start : ((c :: rest).head? == some '_') = false := by
    rw [List.head?_cons, beq_eq_false_iff_ne]
    rintro same
    cases same
    cases first
  unfold readInteger
  simp only [dropped, takeSign_of_isDigit first, run, kept, start, underscoresFit_of_isDigit plain,
    Nat.not_lt.2 length, value, List.drop_length]
  rfl

end DeckBinding.Number
