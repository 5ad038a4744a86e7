import DeckBinding.Proofs.Number.Magnitude
import DeckBinding.Value.Basic
import Mathlib.Tactic.NormNum
import Mathlib.Tactic.Ring

set_option autoImplicit false

namespace DeckBinding

open DeckBinding.Calendar DeckBinding.Number

namespace Number.Decimal

variable {c d : Nat} {e f : Int}

theorem magnitude_eq_zero_iff : magnitude c e = 0 ↔ c = 0 := by
  have power : (10 : ℚ) ^ e ≠ 0 := zpow_ne_zero e (by norm_num)
  simp [magnitude, power]

/-- Equal decimals have their first digits at one place. -/
theorem place_eq_of_magnitude_eq (first : c ≠ 0) (second : d ≠ 0) (same : magnitude c e = magnitude d f) :
    e + digitCount c = f + digitCount d := by
  have places (place : Int) : place < digitCount c + e ↔ place < digitCount d + f := by
    rw [← zpow_le_magnitude_iff first, ← zpow_le_magnitude_iff second, same]
  have lower := places (digitCount c + e - 1)
  have upper := places (digitCount d + f - 1)
  omega

/-- One of the two scales is one, so that the cross products are whole. -/
theorem cross_eq_iff : c * tenTo (e - f).toNat = d * tenTo (f - e).toNat ↔
    magnitude c e = magnitude d f := by
  have scaled (c d : Nat) (shift : Nat) (f : Int) :
      c * tenTo shift = d ↔ magnitude c (f + shift) = magnitude d f := by
    have power : (10 : ℚ) ^ f ≠ 0 := zpow_ne_zero f (by norm_num)
    rw [magnitude, magnitude, zpow_add₀ (by norm_num), zpow_natCast, mul_comm ((10 : ℚ) ^ f), ← mul_assoc,
      mul_left_inj' power, tenTo_eq]
    exact_mod_cast Iff.rfl
  rcases le_total f e with below | above
  · obtain ⟨shift, difference⟩ := Int.eq_ofNat_of_zero_le (sub_nonneg.2 below)
    rw [difference, show (f - e).toNat = 0 by omega, show e = f + shift by omega]
    simpa [tenTo] using scaled c d shift f
  · obtain ⟨shift, difference⟩ := Int.eq_ofNat_of_zero_le (sub_nonneg.2 above)
    rw [difference, show (e - f).toNat = 0 by omega, show f = e + shift by omega, eq_comm,
      @eq_comm ℚ]
    simpa [tenTo] using scaled d c shift e

theorem sameMagnitude_iff : sameMagnitude c e d f = true ↔ magnitude c e = magnitude d f := by
  unfold sameMagnitude
  by_cases first : c = 0
  · subst first
    rw [magnitude_eq_zero_iff.2 rfl, @eq_comm ℚ, magnitude_eq_zero_iff]
    simp [@eq_comm Nat 0]
  · by_cases second : d = 0
    · subst second
      rw [magnitude_eq_zero_iff.2 rfl, magnitude_eq_zero_iff]
      simp
    · simp only [first, second, decide_false, Bool.or_self, Bool.false_eq_true, if_false,
        Bool.and_eq_true, beq_iff_eq, cross_eq_iff]
      exact ⟨fun both => both.2, fun same => ⟨place_eq_of_magnitude_eq first second same, same⟩⟩

theorem rational_eq_iff {m n : Bool} : rational m c e = rational n d f ↔
    magnitude c e = magnitude d f ∧ (m = n ∨ c = 0) := by
  have first := magnitude_nonneg c e
  have second := magnitude_nonneg d f
  have zero := @magnitude_eq_zero_iff c e
  unfold rational
  cases m <;> cases n <;> simp only [if_true, if_false, neg_inj, Bool.false_eq_true, reduceCtorEq,
    false_or, true_or, and_true] <;> rw [← zero]
  all_goals
    constructor
    · intro same
      constructor <;> linarith
    · intro both
      linarith [both.1, both.2]

end Number.Decimal

namespace Value

variable {left right key : Value}

/-- What a number comes to: a rational, or the sign of an infinity. -/
def quantity? (value : Value) : Option (ℚ ⊕ Bool) :=
  match value.decimalForm? with
  | some (negative, coefficient, exponent) => some (.inl (Decimal.rational negative coefficient exponent))
  | none => value.infinity?.map .inr

theorem quantity?_int (n : Int) : quantity? (.int n) = some (.inl (n : ℚ)) := by
  have magnitude : Decimal.magnitude n.natAbs 0 = |(n : ℚ)| := by
    rw [Decimal.magnitude, zpow_zero, mul_one, ← Int.cast_abs, Int.abs_eq_natAbs]
    rfl
  simp only [quantity?, decimalForm?, Decimal.rational, magnitude, decide_eq_true_eq]
  by_cases negative : n < 0
  · rw [if_pos negative, abs_of_neg (by exact_mod_cast negative), neg_neg]
  · rw [if_neg negative, abs_of_nonneg (by exact_mod_cast not_lt.1 negative)]

/-- Two values are one number when they come to the same. -/
theorem sameNumber_iff :
    left.sameNumber right = true ↔ left.quantity? ≠ none ∧ left.quantity? = right.quantity? := by
  unfold sameNumber quantity?
  rcases left.decimalForm? with _ | ⟨m, c, e⟩ <;> rcases right.decimalForm? with _ | ⟨n, d, f⟩
  · cases left.infinity? <;> cases right.infinity? <;> simp
  · cases left.infinity? <;> simp
  · cases right.infinity? <;> simp
  · simp [Decimal.sameMagnitude_iff, Decimal.rational_eq_iff]

inductive KeyForm where
  | null
  | text (s : String)
  | date (day : Date)
  | moment (aware : Bool) (instant : Int)
  | bytes (content : List UInt8)
  | number (quantity : ℚ ⊕ Bool)
  | tuple (items : List KeyForm)

mutual

def keyForm? : Value → Option KeyForm
  | .null => some .null
  | .text s => some (.text s)
  | .date day => some (.date day)
  | .moment time => some (.moment time.offset.isSome time.instant)
  | .bytes content => some (.bytes content)
  | .tuple items => (keyForms? items).map .tuple
  | value => value.quantity?.map .number
termination_by structural value => value

def keyForms? : List Value → Option (List KeyForm)
  | [] => some []
  | item :: items =>
    match keyForm? item, keyForms? items with
    | some form, some forms => some (form :: forms)
    | _, _ => none
termination_by structural items => items

end

theorem sameNumber_iff_form : left.sameNumber right = true ↔
    left.quantity?.map KeyForm.number ≠ none ∧
      left.quantity?.map KeyForm.number = right.quantity?.map KeyForm.number := by
  have injective : Function.Injective (Option.map KeyForm.number) :=
    Option.map_injective fun _ _ same => KeyForm.number.inj same
  rw [sameNumber_iff, ne_eq, ne_eq, Option.map_eq_none_iff, injective.eq_iff]

mutual

/-- Two values are one key when both have one form. -/
theorem sameKey_iff (left right : Value) :
    left.sameKey right = true ↔ left.keyForm? ≠ none ∧ left.keyForm? = right.keyForm? := by
  cases left with
  | tuple items =>
    cases right with
    | tuple others =>
      have injective : Function.Injective (Option.map KeyForm.tuple) :=
        Option.map_injective fun _ _ same => KeyForm.tuple.inj same
      rw [sameKey, keyForm?, keyForm?, sameKeys_iff items others, ne_eq, ne_eq,
        Option.map_eq_none_iff, injective.eq_iff]
    | _ =>
      cases forms : keyForms? items <;>
        simp [sameKey, keyForm?, forms, sameNumber_iff_form, quantity?, decimalForm?, infinity?]
  | int m =>
    cases right with
    | int n => simp [sameKey, keyForm?, quantity?_int]
    | bool _ | float _ | decimal _ => simp only [sameKey, keyForm?, sameNumber_iff_form]
    | _ => simp [sameKey, keyForm?, sameNumber_iff_form, quantity?, decimalForm?, infinity?]
  | bool _ | float _ | decimal _ =>
    cases right with
    | int _ | bool _ | float _ | decimal _ => simp only [sameKey, keyForm?, sameNumber_iff_form]
    | tuple others =>
      cases forms : keyForms? others <;>
        simp [sameKey, keyForm?, forms, sameNumber_iff_form, quantity?, decimalForm?, infinity?]
    | _ => simp [sameKey, keyForm?, sameNumber_iff_form, quantity?, decimalForm?, infinity?]
  | _ =>
    cases right <;>
      simp [sameKey, keyForm?, sameNumber_iff_form, quantity?, decimalForm?, infinity?, Moment.sameInstant]
termination_by structural left

theorem sameKeys_iff (items others : List Value) :
    sameKeys items others = true ↔ keyForms? items ≠ none ∧ keyForms? items = keyForms? others := by
  cases items with
  | nil =>
    cases others with
    | nil => simp [sameKeys, keyForms?]
    | cons other others =>
      simp only [sameKeys, keyForms?]
      cases keyForm? other <;> cases keyForms? others <;> simp
  | cons item items =>
    cases others with
    | nil =>
      simp only [sameKeys, keyForms?]
      cases keyForm? item <;> cases keyForms? items <;> simp
    | cons other others =>
      rw [sameKeys, Bool.and_eq_true, sameKey_iff item other, sameKeys_iff items others]
      simp only [keyForms?]
      cases keyForm? item <;> cases keyForms? items <;> cases keyForm? other <;>
        cases keyForms? others <;> simp
termination_by structural items

end

theorem sameKey_comm (left right : Value) : left.sameKey right = right.sameKey left := by
  rw [Bool.eq_iff_iff, sameKey_iff, sameKey_iff]
  constructor <;> exact fun ⟨known, same⟩ => ⟨same ▸ known, same.symm⟩

/-- A key can be taken for another that is one key with it. -/
theorem sameKey_congr (same : left.sameKey right = true) (key : Value) :
    left.sameKey key = right.sameKey key := by
  rw [Bool.eq_iff_iff, sameKey_iff, sameKey_iff, ((sameKey_iff left right).1 same).2]

end Value

end DeckBinding
