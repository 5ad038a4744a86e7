import DeckBinding.Proofs.Format.Refusal
import DeckBinding.Proofs.Number.FixedPoint
import DeckBinding.Proofs.Number.Rounded

set_option autoImplicit false

namespace DeckBinding

open DeckBinding.Number DeckBinding.Text

theorem NumberSpec.read?_cons {letter : Char} {digits : List Char} {numeric : NumberSpec}
    (read : NumberSpec.read? (letter :: digits) = some numeric) :
    NumberStyle.ofLetter? letter = some numeric.style ∧ digits.length ≤ 2 ∧
      (∀ c ∈ digits, isDecimalDigit c = true) ∧
      numeric.size = if digits.isEmpty then none else some (ofDigitValues (digits.filterMap digitValue?)) := by
  rw [NumberSpec.read?] at read
  obtain ⟨style, known, rest⟩ := Option.bind_eq_some_iff.1 read
  rw [Option.ite_none_right_eq_some] at rest
  obtain ⟨⟨short, decimal⟩, same⟩ := rest
  cases same
  exact ⟨known, short, List.all_eq_true.1 decimal, rfl⟩

/-- The digits of a format are the same behind another letter. -/
theorem NumberSpec.read?_letter {letter other : Char} {digits : List Char} {numeric : NumberSpec}
    {style : NumberStyle} (read : NumberSpec.read? (letter :: digits) = some numeric)
    (known : NumberStyle.ofLetter? other = some style) :
    NumberSpec.read? (other :: digits) = some ⟨style, numeric.size⟩ := by
  obtain ⟨_, short, decimal, size⟩ := read?_cons read
  rw [NumberSpec.read?, known, size]
  exact if_pos ⟨short, List.all_eq_true.2 decimal⟩

/-- A format has at most two digits. -/
theorem NumberSpec.places_lt {letter : Char} {digits : List Char} {numeric : NumberSpec}
    (read : NumberSpec.read? (letter :: digits) = some numeric) : numeric.size.getD defaultPlaces < 100 := by
  obtain ⟨_, short, _, size⟩ := read?_cons read
  rw [size]
  split
  · decide
  · have bound := @foldl_digits_lt (digits.filterMap digitValue?) (fun value member => by
      obtain ⟨c, _, found⟩ := List.mem_filterMap.1 member
      exact digitValue?_lt found) 0
    have length := Nat.le_trans (List.length_filterMap_le digitValue? digits) short
    have power : 10 ^ (digits.filterMap digitValue?).length ≤ 10 ^ 2 := Nat.pow_le_pow_right (by decide) length
    rw [Option.getD_some, ofDigitValues]
    omega

/-- No blank stands around a number format. -/
theorem NumberSpec.trim_of_read? {letter : Char} {digits : List Char} {numeric : NumberSpec}
    (read : NumberSpec.read? (letter :: digits) = some numeric) (full : isBlank letter = false) :
    trim (letter :: digits) = letter :: digits := by
  obtain ⟨_, _, decimal, _⟩ := read?_cons read
  exact trim_of_full (List.forall_mem_cons.2 ⟨full, fun c member => isBlank_of_isDecimalDigit (decimal c member)⟩)

/-- A style that pads no integers applies to each decimal. -/
theorem NumberSpec.format_ne_none {numeric : NumberSpec} (applies : numeric.style ≠ .padded) (negative : Bool)
    (coefficient : Nat) (exponent : Int) : numeric.format negative coefficient exponent ≠ .ok none := by
  obtain ⟨fails, shows, _⟩ := numeric.format_spec negative coefficient exponent
  intro none
  by_cases wide : numeric.TooWide coefficient exponent
  · obtain ⟨error, failed⟩ := fails wide
    cases none.symm.trans failed
  · obtain ⟨text, shown⟩ := shows (fun padded => absurd padded applies) wide
    cases none.symm.trans shown

/-- A style shows the number itself, rounded. -/
def NumberStyle.Rounds (style : NumberStyle) : Prop :=
  style = .currency ∨ style = .grouped ∨ style = .fixed

theorem NumberStyle.Rounds.ne_padded {style : NumberStyle} (rounds : style.Rounds) : style ≠ .padded := by
  rintro rfl
  rcases rounds with other | other | other
  · cases other
  · cases other
  · cases other

def NumberStyle.symbol : NumberStyle → List Char
  | .currency => ['$']
  | _ => []

/-- Whether a rounded number has a sign. A currency has none on a zero. -/
def NumberStyle.sign (style : NumberStyle) (negative : Bool) (units : Nat) : Bool :=
  match style with
  | .currency => negative && units != 0
  | _ => negative

/-- A number in a style, given in units of its last fraction digit. -/
def NumberStyle.written (style : NumberStyle) (negative : Bool) (places units : Nat) : List Char :=
  signed (style.sign negative units) (style.symbol ++ fixedPoint (style != .fixed) places units)

theorem NumberStyle.rational_sign (style : NumberStyle) (negative : Bool) (units : Nat) (place : Int) :
    Decimal.rational (style.sign negative units) units place = Decimal.rational negative units place := by
  cases style with
  | currency =>
    by_cases zero : units = 0
    · simp [sign, Decimal.rational, Decimal.magnitude, zero]
    · have some : (units != 0) = true := bne_iff_ne.2 zero
      rw [sign, some, Bool.and_true]
  | _ => rfl

/-- A currency is a grouped number without a sign behind the symbol, with a sign in front if it is
below zero. -/
theorem NumberStyle.written_currency (negative : Bool) (places units : Nat) :
    written .currency negative places units =
      (if Decimal.rational negative units (-(places : Int)) < 0 then ['-'] else []) ++ ['$'] ++
        written .grouped false places units := by
  have below := Decimal.rational_units_lt_zero_iff negative units places
  show signed (negative && units != 0) ('$' :: fixedPoint true places units) = _
  cases sign : negative && units != 0 with
  | true =>
    rw [if_pos (below.2 sign)]
    rfl
  | false =>
    rw [if_neg fun less => Bool.false_ne_true (sign.symm.trans (below.1 less))]
    rfl

/-- Without the symbol and the commas a number is left in plain digits. -/
theorem NumberStyle.filter_written (style : NumberStyle) (negative : Bool) (places units : Nat) :
    (style.written negative places units).filter (fun c => c != '$' && c != ',') =
      signed (style.sign negative units) (fixedPoint false places units) := by
  have kept : ∀ c : Char, c.isDigit = true → (c != '$' && c != ',') = true := fun c digit =>
    Bool.and_eq_true_iff.2 ⟨bne_iff_ne.2 (ne_of_isDigit digit rfl), bne_iff_ne.2 (ne_of_isDigit digit rfl)⟩
  have body : (fixedPoint (style != .fixed) places units).filter (fun c => c != '$' && c != ',') =
      fixedPoint false places units := filter_fixedPoint _ places units rfl rfl kept
  have symbol : style.symbol.filter (fun c => c != '$' && c != ',') = [] := by
    cases style <;> rfl
  unfold written
  cases style.sign negative units with
  | true =>
    rw [signed, if_pos rfl, List.filter_cons_of_pos rfl, List.filter_append, symbol, body]
    rfl
  | false =>
    rw [signed, if_neg Bool.false_ne_true, List.filter_append, symbol, body]
    rfl

theorem NumberSpec.format_of_rounds {numeric : NumberSpec} (rounds : numeric.style.Rounds) (negative : Bool)
    (coefficient : Nat) (exponent : Int) :
    let places := numeric.size.getD defaultPlaces
    let units := roundedUnits (Decimal.magnitude coefficient exponent) places
    numeric.format negative coefficient exponent =
      if 10 ^ Decimal.precision ≤ units then .error (.decimal .invalidOperation)
      else .ok (some (numeric.style.written negative places units)) := by
  obtain ⟨style, size⟩ := numeric
  intro places units
  unfold NumberSpec.format
  dsimp only
  rw [Decimal.quantize_eq]
  by_cases wide : 10 ^ Decimal.precision ≤ units
  · rw [if_pos wide, if_pos wide]
    rcases rounds with rfl | rfl | rfl <;> rfl
  · rw [if_neg wide, if_neg wide]
    rcases rounds with rfl | rfl | rfl <;> rfl

namespace Value

variable {value : Value} {spec : String} {letter : Char} {digits : List Char} {numeric : NumberSpec} {negative : Bool}
  {coefficient : Nat} {exponent : Int}

/-- A format with a number style is applied to a number, if the style applies to it. -/
theorem format_of_number (written : trim spec.toList = letter :: digits)
    (read : NumberSpec.read? (letter :: digits) = some numeric)
    (number : value.toDecimal? = .ok (some (.finite negative coefficient exponent)))
    (applies : numeric.style ≠ .padded) :
    value.format (some spec) =
      (numeric.format negative coefficient exponent).map fun text => String.ofList (text.getD []) := by
  have present : value ≠ .null := by
    rintro rfl
    cases number
  have filled : ¬ spec.isEmpty = true := by
    intro empty
    rw [String.isEmpty_iff.1 empty] at written
    cases written
  rw [format_some present, if_neg filled, written, formatWith_of_read? read, formatNumber?_of_number read number]
  have shown := numeric.format_ne_none applies negative coefficient exponent
  cases formatted : numeric.format negative coefficient exponent with
  | error error => rfl
  | ok text =>
    cases text with
    | some text => rfl
    | none => exact absurd formatted shown

/-- The text of a number is that of its style. -/
theorem exists_of_format_ok {text : String} (written : trim spec.toList = letter :: digits)
    (read : NumberSpec.read? (letter :: digits) = some numeric)
    (number : value.toDecimal? = .ok (some (.finite negative coefficient exponent)))
    (applies : numeric.style ≠ .padded) (shown : value.format (some spec) = .ok text) : ∃ letters,
      numeric.format negative coefficient exponent = .ok (some letters) ∧ text = String.ofList letters := by
  rw [format_of_number written read number applies] at shown
  cases formatted : numeric.format negative coefficient exponent with
  | error error =>
    rw [formatted] at shown
    cases shown
  | ok result =>
    cases result with
    | none => exact absurd formatted (numeric.format_ne_none applies negative coefficient exponent)
    | some letters =>
      rw [formatted] at shown
      exact ⟨letters, rfl, (Except.ok.inj shown).symm⟩

theorem format_of_rounds (written : trim spec.toList = letter :: digits)
    (read : NumberSpec.read? (letter :: digits) = some numeric) (rounds : numeric.style.Rounds)
    (number : value.toDecimal? = .ok (some (.finite negative coefficient exponent))) :
    value.format (some spec) =
      if 10 ^ Decimal.precision ≤
          roundedUnits (Decimal.magnitude coefficient exponent) (numeric.size.getD defaultPlaces) then
        .error (.decimal .invalidOperation)
      else .ok (String.ofList (numeric.style.written negative (numeric.size.getD defaultPlaces)
        (roundedUnits (Decimal.magnitude coefficient exponent) (numeric.size.getD defaultPlaces)))) := by
  rw [format_of_number written read number rounds.ne_padded, NumberSpec.format_of_rounds rounds]
  split <;> rfl

/-- A decimal in the grouped style with the digits of another format. -/
theorem format_grouped (read : NumberSpec.read? (letter :: digits) = some numeric) (negative : Bool)
    (coefficient : Nat) (exponent : Int) :
    let places := numeric.size.getD defaultPlaces
    let units := roundedUnits (Decimal.magnitude coefficient exponent) places
    (Value.decimal (.finite negative coefficient exponent)).format (some (String.ofList ('N' :: digits))) =
      if 10 ^ Decimal.precision ≤ units then .error (.decimal .invalidOperation)
      else .ok (String.ofList (NumberStyle.written .grouped negative places units)) := by
  have grouped := NumberSpec.read?_letter read (show NumberStyle.ofLetter? 'N' = some .grouped from rfl)
  refine format_of_rounds ?_ grouped (.inr (.inl rfl)) rfl
  rw [String.toList_ofList, NumberSpec.trim_of_read? grouped (by decide)]

/-- A currency, a grouped number and a fixed fraction have exactly the fraction digits of the
format, with no point where there are none, and digits grouped in threes except in a fixed fraction;
a sign may stand in front of them, and in a currency the symbol does. Without the symbol and the
commas the text reads back as the number rounded to these fraction digits, a tie away from zero. A
currency is the grouped number without a sign, behind the symbol, with a sign in front of it where
the rounded number is below zero. -/
theorem format_exactly_rounded {text : String} (written : trim spec.toList = letter :: digits)
    (read : NumberSpec.read? (letter :: digits) = some numeric) (rounds : numeric.style.Rounds)
    (number : value.toDecimal? = .ok (some (.finite negative coefficient exponent)))
    (shown : value.format (some spec) = .ok text) :
    let places := numeric.size.getD defaultPlaces
    ∃ rounded : ℚ,
      (∀ other, RoundsTo places (Decimal.rational negative coefficient exponent) other ↔ other = rounded) ∧
      (∃ sign body, text.toList = signed sign (numeric.style.symbol ++ body) ∧
        FixedText (numeric.style != .fixed) places body) ∧
      (∃ sign units place,
        Decimal.read? (text.toList.filter fun c => c != '$' && c != ',') = some (.finite sign units place) ∧
          Decimal.rational sign units place = rounded) ∧
      (numeric.style = .currency → ∃ plain,
        (Value.decimal (.finite false coefficient exponent)).format (some (String.ofList ('N' :: digits))) =
          .ok plain ∧ text = (if rounded < 0 then "-" else "") ++ "$" ++ plain) := by
  intro places
  let units := roundedUnits (Decimal.magnitude coefficient exponent) places
  rw [format_of_rounds written read rounds number] at shown
  split at shown
  · cases shown
  · rename_i few
    have letters := congrArg String.toList (Except.ok.inj shown)
    rw [String.toList_ofList] at letters
    have rounded := Decimal.roundsTo_units negative coefficient exponent places
    refine ⟨_, fun other => ⟨rounded.unique, fun same => same ▸ rounded⟩, ?_, ?_, ?_⟩
    · exact ⟨_, _, letters.symm, fixedText_fixedPoint (numeric.style != .fixed) places units⟩
    · refine ⟨numeric.style.sign negative units, units, -(places : Int), ?_,
        numeric.style.rational_sign negative units _⟩
      rw [← letters, NumberStyle.filter_written]
      exact read?_fixedPoint _ (Decimal.readable_units (Nat.lt_of_not_le few) (NumberSpec.places_lt read))
    · intro currency
      have plain := (format_grouped read false coefficient exponent).trans (if_neg few)
      refine ⟨_, plain, String.toList_inj.1 ?_⟩
      rw [← letters, currency, NumberStyle.written_currency, String.toList_append, String.toList_append,
        @String.toList_ofList (NumberStyle.written .grouped _ _ _)]
      split <;> rfl

/-- A tie is rounded away from zero. -/
theorem format_exactly_rounded_tie :
    NumberSpec.read? ['C', '2'] = some ⟨.currency, some 2⟩ ∧
      (Value.text "-1,234.565").format (some "C2") = .ok "-$1,234.57" ∧
      RoundsTo 2 (Decimal.rational true 1234565 (-3)) (Decimal.rational true 123457 (-2)) := by
  have read : NumberSpec.read? ['C', '2'] = some ⟨.currency, some 2⟩ := by decide
  have number : (Value.text "-1,234.565").toDecimal? = .ok (some (.finite true 1234565 (-3))) := by decide +kernel
  have shown : (Value.text "-1,234.565").format (some "C2") = .ok "-$1,234.57" := by decide +kernel
  obtain ⟨rounded, only, _, ⟨sign, units, place, digits, same⟩, _⟩ :=
    format_exactly_rounded (by decide) read (.inl rfl) number shown
  have found : Decimal.read? ("-$1,234.57".toList.filter fun c => c != '$' && c != ',') =
      some (.finite true 123457 (-2)) := by decide +kernel
  cases found.symm.trans digits
  exact ⟨read, shown, (only _).2 same⟩

end Value

end DeckBinding
