import DeckBinding.Proofs.Format.Rounded
import DeckBinding.Proofs.Number.TwiceRounded

set_option autoImplicit false

namespace DeckBinding

open DeckBinding.Number DeckBinding.Text

theorem NumberStyle.written_grouped_injective {negative : Bool} {places left right : Nat}
    (same : written .grouped negative places left = written .grouped negative places right) : left = right := by
  cases negative with
  | true => exact fixedPoint_injective (List.cons.inj same).2
  | false => exact fixedPoint_injective same

/-- A percentage is the grouped working product with a percent sign, or it is refused. -/
theorem NumberSpec.percent_of_format {numeric : NumberSpec} (percent : numeric.style = .percent) {negative : Bool}
    {coefficient : Nat} {exponent : Int} {digits : List Char}
    (formatted : numeric.format negative coefficient exponent = .ok (some digits)) :
    let places := numeric.size.getD defaultPlaces
    ∃ product place, Decimal.timesHundred negative coefficient exponent = .ok (.finite negative product place) ∧
      ¬ 10 ^ Decimal.precision ≤ roundedUnits (Decimal.magnitude product place) places ∧
      ¬ 10 ^ Decimal.precision ≤ roundedUnits (Decimal.magnitude (coefficient * 100) exponent) places ∧
      digits = NumberStyle.written .grouped negative places
        (roundedUnits (Decimal.magnitude product place) places) ++ ['%'] := by
  obtain ⟨style, size⟩ := numeric
  cases percent
  unfold NumberSpec.format at formatted
  dsimp only at formatted ⊢
  rcases Decimal.timesHundred_spec negative coefficient exponent with ⟨product, place, done, same⟩ | ⟨failed, _⟩
  · refine ⟨product, place, done, ?_⟩
    rw [done] at formatted
    have rounded : (do
        let units ← liftDecimal (Decimal.quantize product place (size.getD defaultPlaces))
        .ok (some (signed negative (fixedPoint true (size.getD defaultPlaces) units) ++ ['%']))) =
          (.ok (some digits) : Except FormatError (Option (List Char))) := formatted
    rw [Decimal.quantize_eq] at rounded
    by_cases wide : 10 ^ Decimal.precision ≤ roundedUnits (Decimal.magnitude product place) (size.getD defaultPlaces)
    · rw [if_pos wide] at rounded
      cases rounded
    · rw [if_neg wide] at rounded
      cases rounded
      rw [Decimal.magnitude_mul_hundred, ← same]
      exact ⟨wide, wide, rfl⟩
  · rw [failed] at formatted
    cases formatted

namespace Value

/-- A percentage is the grouped text of the working product, a hundred times the number rounded to
the working precision, with a percent sign. This is the grouped text of the exact product with a
percent sign, unless the working product was moved up to the middle between two units of the last
fraction digit, or down from there; it never was if the exact product fits the working precision. -/
theorem format_percent {value : Value} {spec text : String} {letter : Char} {digits : List Char}
    {numeric : NumberSpec} {negative : Bool} {coefficient : Nat} {exponent : Int}
    (written : trim spec.toList = letter :: digits) (read : NumberSpec.read? (letter :: digits) = some numeric)
    (percent : numeric.style = .percent)
    (number : value.toDecimal? = .ok (some (.finite negative coefficient exponent)))
    (shown : value.format (some spec) = .ok text) :
    let places := numeric.size.getD defaultPlaces
    let grouped := String.ofList ('N' :: digits)
    ∃ product place working exact,
      Decimal.timesHundred negative coefficient exponent = .ok (.finite negative product place) ∧
      (Value.decimal (.finite negative product place)).format (some grouped) = .ok working ∧
      text = working ++ "%" ∧
      (Value.decimal (.finite negative (coefficient * 100) exponent)).format (some grouped) = .ok exact ∧
      (text = exact ++ "%" ↔ ¬ MovedAtHalf (100 * Decimal.magnitude coefficient exponent * 10 ^ places)
        (Decimal.magnitude product place * 10 ^ places)) ∧
      (coefficient * 100 < 10 ^ Decimal.precision → text = exact ++ "%") := by
  intro places grouped
  obtain ⟨letters, formatted, rfl⟩ := exists_of_format_ok written read number (by rw [percent]; decide) shown
  obtain ⟨product, place, done, few, fits, rfl⟩ := numeric.percent_of_format percent formatted
  have agrees := Decimal.roundedUnits_timesHundred_eq_iff done few
  have sign (units : Nat) : String.ofList (NumberStyle.written .grouped negative places units ++ ['%']) =
      String.ofList (NumberStyle.written .grouped negative places units) ++ "%" := String.ofList_append
  refine ⟨product, place, _, _, done, (format_grouped read negative product place).trans (if_neg few), sign _,
    (format_grouped read negative (coefficient * 100) exponent).trans (if_neg fits), ?_, fun short => ?_⟩
  · rw [← agrees, ← sign, String.ofList_inj, List.append_cancel_right_eq]
    exact ⟨fun same => (NumberStyle.written_grouped_injective same).symm, fun same => by rw [same]⟩
  · obtain ⟨rfl, rfl⟩ := Decimal.timesHundred_exact done short
    exact sign _

/-- An eighth, with two fraction digits. -/
theorem format_percent_eighth :
    (Value.text "0.125").format (some "P") = .ok "12.50%" ∧
      ¬ MovedAtHalf (100 * Decimal.magnitude 125 (-3) * 10 ^ 2) (Decimal.magnitude 12500 (-3) * 10 ^ 2) := by
  have number : (Value.text "0.125").toDecimal? = .ok (some (.finite false 125 (-3))) := by decide +kernel
  have shown : (Value.text "0.125").format (some "P") = .ok "12.50%" := by decide +kernel
  have hundredfold : Decimal.timesHundred false 125 (-3) = .ok (.finite false 12500 (-3)) := by decide +kernel
  obtain ⟨product, place, _, _, done, _, _, _, moved, short⟩ :=
    @format_percent _ "P" _ 'P' [] ⟨.percent, none⟩ _ _ _ (by decide) (by decide) rfl number shown
  cases hundredfold.symm.trans done
  exact ⟨shown, moved.1 (short (by decide))⟩

/-- A product that is less than a half by less than the working precision tells is taken for the
half and rounded up: the text is one percent, and the grouped text of the exact product is zero. -/
theorem percent_rounded_twice :
    (Value.text "0.00499999999999999999999999999999").format (some "P0") = .ok "1%" ∧
      (Value.text "0.499999999999999999999999999999").format (some "N0") = .ok "0" := by
  exact ⟨by decide +kernel, by decide +kernel⟩

end Value

end DeckBinding
