import DeckBinding.Format.Value
import DeckBinding.Proofs.Number.Magnitude

set_option autoImplicit false

namespace DeckBinding

open DeckBinding.Calendar DeckBinding.Number DeckBinding.Text

/-- A style applies to a decimal: padding applies to integers, any other style to each decimal. -/
def NumberSpec.AppliesTo (spec : NumberSpec) (coefficient : Nat) (exponent : Int) : Prop :=
  spec.style = .padded → ∃ whole : Nat, Decimal.magnitude coefficient exponent = whole

/-- A decimal needs too many digits in a style: an integer that is padded more than a numeral may
have, and a rounded number more than the working precision. -/
def NumberSpec.TooWide (spec : NumberSpec) (coefficient : Nat) (exponent : Int) : Prop :=
  let places := spec.size.getD defaultPlaces
  match spec.style with
  | .padded => ∃ whole : Nat, Decimal.magnitude coefficient exponent = whole ∧ writeBound ≤ whole
  | .percent => 10 ^ Decimal.precision ≤ roundedUnits (100 * Decimal.magnitude coefficient exponent) places
  | .fixed => 10 ^ Decimal.precision ≤ roundedUnits (Decimal.magnitude coefficient exponent) places
  | .grouped => 10 ^ Decimal.precision ≤ roundedUnits (Decimal.magnitude coefficient exponent) places
  | .currency => 10 ^ Decimal.precision ≤ roundedUnits (Decimal.magnitude coefficient exponent) places

/-- A format is a number style, and a value is a finite decimal, to be written in it. -/
def Value.IsNumberIn (value : Value) (spec : List Char) (numeric : NumberSpec) (coefficient : Nat)
    (exponent : Int) : Prop :=
  NumberSpec.read? spec = some numeric ∧
    ∃ negative, value.toDecimal? = .ok (some (.finite negative coefficient exponent))

/-- A value has no text in a format: a number needs too many digits in its style, or the length to
cut the text to has more digits than can be read. -/
inductive Value.Refuses : Value → List Char → Prop
  | number {value : Value} {spec : List Char} {numeric : NumberSpec} {coefficient : Nat} {exponent : Int}
      (known : value.IsNumberIn spec numeric coefficient exponent)
      (wide : numeric.TooWide coefficient exponent) : Refuses value spec
  | cut {value : Value} {letter : Char} {digits : List Char} (present : value ≠ .null)
      (cuts : letter = 'T' ∨ letter = 't') (decimal : ∀ c ∈ digits, isDecimalDigit c = true)
      (long : digitLimit < digits.length) : Refuses value (letter :: digits)

section Styles

variable {spec : NumberSpec} {coefficient : Nat} {exponent : Int}

theorem padInteger_of_integer {whole : Nat} (integral : Decimal.magnitude coefficient exponent = whole)
    (negative : Bool) (width : Nat) :
    padInteger negative coefficient exponent width =
      if writeBound ≤ whole then .error .tooLongToWrite
      else .ok (some (signed (negative && whole != 0)
        (List.replicate (width - (Nat.toDigits 10 whole).length) '0' ++ Nat.toDigits 10 whole))) := by
  have found := Decimal.integral?_eq_some_iff.2 integral
  have long : coefficient ≠ 0 ∧ (digitLimit : Int) < Decimal.digitCount coefficient + exponent ↔
      writeBound ≤ whole := by
    by_cases zero : coefficient = 0
    · have none : whole = 0 := by
        rw [zero, Decimal.magnitude, Nat.cast_zero, zero_mul] at integral
        exact_mod_cast integral.symm
      have positive := writeBound_pos
      exact iff_of_false (fun some => some.1 zero) (by omega)
    · rw [← Decimal.zpow_le_magnitude_iff zero, integral, zpow_natCast, writeBound_eq, and_iff_right zero]
      exact_mod_cast Iff.rfl
  unfold padInteger
  simp only [long, found]
  split
  · split <;> rfl
  · rfl

theorem padInteger_of_fraction (fraction : ∀ whole : Nat, Decimal.magnitude coefficient exponent ≠ whole)
    (negative : Bool) (width : Nat) : padInteger negative coefficient exponent width = .ok none := by
  have absent : Decimal.integral? coefficient exponent = none :=
    Option.eq_none_iff_forall_ne_some.2 fun whole found => fraction whole (Decimal.integral?_eq_some_iff.1 found)
  have split : ¬ 0 ≤ exponent := by
    intro nonneg
    obtain ⟨shift, rfl⟩ := Int.eq_ofNat_of_zero_le nonneg
    exact fraction _ (Decimal.magnitude_natCast coefficient shift)
  unfold padInteger
  simp only [absent, split, if_false, ite_self]

/-- A decimal that is rounded to the fraction digits of a style, however they are written then. -/
theorem format_rounded (coefficient : Nat) (exponent : Int) (places : Nat) (view : Nat → List Char) :
    (10 ^ Decimal.precision ≤ roundedUnits (Decimal.magnitude coefficient exponent) places →
      ∃ error, (do
        let units ← liftDecimal (Decimal.quantize coefficient exponent places)
        .ok (some (view units)) : Except FormatError (Option (List Char))) = .error error) ∧
    (¬ 10 ^ Decimal.precision ≤ roundedUnits (Decimal.magnitude coefficient exponent) places →
      ∃ digits, (do
        let units ← liftDecimal (Decimal.quantize coefficient exponent places)
        .ok (some (view units)) : Except FormatError (Option (List Char))) = .ok (some digits)) := by
  rw [Decimal.quantize_eq]
  constructor
  · intro wide
    rw [if_pos wide]
    exact ⟨_, rfl⟩
  · intro fits
    rw [if_neg fits]
    exact ⟨_, rfl⟩

/-- A decimal has a text in a style that applies to it, unless it needs too many digits, and none in
a style that does not apply. -/
theorem NumberSpec.format_spec (spec : NumberSpec) (negative : Bool) (coefficient : Nat) (exponent : Int) :
    (spec.TooWide coefficient exponent → ∃ error, spec.format negative coefficient exponent = .error error) ∧
    (spec.AppliesTo coefficient exponent → ¬ spec.TooWide coefficient exponent →
      ∃ digits, spec.format negative coefficient exponent = .ok (some digits)) ∧
    (¬ spec.AppliesTo coefficient exponent → spec.format negative coefficient exponent = .ok none) := by
  obtain ⟨style, size⟩ := spec
  have rounded := format_rounded coefficient exponent (size.getD defaultPlaces)
  unfold TooWide AppliesTo NumberSpec.format
  cases style with
  | padded =>
    dsimp only
    by_cases integral : ∃ whole : Nat, Decimal.magnitude coefficient exponent = whole
    · obtain ⟨whole, same⟩ := integral
      rw [padInteger_of_integer same]
      refine ⟨?_, ?_, fun other => absurd (fun _ => ⟨whole, same⟩) other⟩
      · rintro ⟨other, again, long⟩
        rw [Nat.cast_injective (again.symm.trans same)] at long
        rw [if_pos long]
        exact ⟨_, rfl⟩
      · intro _ fits
        rw [if_neg fun long => fits ⟨whole, same, long⟩]
        exact ⟨_, rfl⟩
    · refine ⟨?_, fun applies => absurd (applies rfl) integral, fun _ => ?_⟩
      · rintro ⟨whole, same, _⟩
        exact absurd ⟨whole, same⟩ integral
      · rw [padInteger_of_fraction (not_exists.1 integral)]
        rfl
  | percent =>
    dsimp only
    rcases Decimal.timesHundred_spec negative coefficient exponent with
      ⟨rounded, place, done, same⟩ | ⟨failed, wide⟩
    · have hundredth := format_rounded rounded place (size.getD defaultPlaces) fun units =>
        signed negative (fixedPoint true (size.getD defaultPlaces) units) ++ ['%']
      rw [done, ← same]
      exact ⟨hundredth.1, fun _ => hundredth.2, fun other => absurd (fun none => nomatch none) other⟩
    · rw [failed]
      exact ⟨fun _ => ⟨_, rfl⟩, fun _ fits => absurd (wide _) fits,
        fun other => absurd (fun none => nomatch none) other⟩
  | fixed => exact ⟨(rounded _).1, fun _ => (rounded _).2, fun other => absurd (fun none => nomatch none) other⟩
  | grouped => exact ⟨(rounded _).1, fun _ => (rounded _).2, fun other => absurd (fun none => nomatch none) other⟩
  | currency => exact ⟨(rounded _).1, fun _ => (rounded _).2, fun other => absurd (fun none => nomatch none) other⟩

end Styles

namespace Value

variable {value : Value} {plain : String} {spec : List Char}

theorem formatNumber?_of_number {numeric : NumberSpec} {negative : Bool} {coefficient : Nat} {exponent : Int}
    (read : NumberSpec.read? spec = some numeric)
    (finite : value.toDecimal? = .ok (some (.finite negative coefficient exponent))) :
    value.formatNumber? spec =
      (numeric.format negative coefficient exponent).map fun digits => digits.map String.ofList := by
  have number : value.isDate = false := by
    cases value with
    | date day => cases finite
    | moment time => cases finite
    | _ => rfl
  unfold formatNumber?
  rw [read]
  dsimp only
  rw [number, if_neg Bool.false_ne_true, finite]
  show (numeric.format negative coefficient exponent >>= fun digits => .ok (digits.map String.ofList)) = _
  cases numeric.format negative coefficient exponent <;> rfl

/-- A value that can be written can be taken for a number, if it is one. -/
theorem exists_toDecimal? (shown : value.render = .ok plain) : ∃ number, value.toDecimal? = .ok number := by
  cases value with
  | int n =>
    have written : write n = .ok plain := shown
    exact ⟨some (Decimal.ofInt n), by rw [toDecimal?, written]; rfl⟩
  | float x => exact ⟨_, rfl⟩
  | decimal d => exact ⟨_, rfl⟩
  | text s => exact ⟨_, rfl⟩
  | _ => exact ⟨none, rfl⟩

theorem formatNumber?_of_no_number (shown : value.render = .ok plain)
    (other : ∀ numeric coefficient exponent, ¬ value.IsNumberIn spec numeric coefficient exponent) :
    value.formatNumber? spec = .ok none := by
  obtain ⟨number, same⟩ := exists_toDecimal? shown
  unfold formatNumber?
  cases read : NumberSpec.read? spec with
  | none => rfl
  | some numeric =>
    dsimp only
    rw [same]
    split
    · rfl
    · rcases number with _ | ⟨negative, coefficient, exponent⟩ | _ | _
      · rfl
      · exact absurd ⟨read, negative, same⟩ (other numeric coefficient exponent)
      · rfl
      · rfl

theorem forall_isNumberIn_iff {numeric : NumberSpec} {negative : Bool} {coefficient : Nat} {exponent : Int}
    (read : NumberSpec.read? spec = some numeric)
    (finite : value.toDecimal? = .ok (some (.finite negative coefficient exponent)))
    {holds : NumberSpec → Nat → Int → Prop} :
    (∀ numeric coefficient exponent, value.IsNumberIn spec numeric coefficient exponent →
      holds numeric coefficient exponent) ↔ holds numeric coefficient exponent := by
  constructor
  · exact fun all => all _ _ _ ⟨read, negative, finite⟩
  · rintro here _ _ _ ⟨again, _, same⟩
    rw [read] at again
    rw [finite] at same
    cases again
    cases same
    exact here

/-- A number style fails on a number that needs too many digits. It is left out where there is no
number and where it does not apply to the number, and has a text for any other one. -/
theorem formatNumber?_spec (shown : value.render = .ok plain) (spec : List Char) :
    ((∃ number, value.formatNumber? spec = .ok number) ↔ ∀ numeric coefficient exponent,
      value.IsNumberIn spec numeric coefficient exponent → ¬ numeric.TooWide coefficient exponent) ∧
    ((∀ numeric coefficient exponent, value.IsNumberIn spec numeric coefficient exponent →
      ¬ numeric.AppliesTo coefficient exponent) → value.formatNumber? spec = .ok none) := by
  by_cases known : ∃ numeric coefficient exponent, value.IsNumberIn spec numeric coefficient exponent
  · obtain ⟨numeric, coefficient, exponent, read, negative, finite⟩ := known
    obtain ⟨fails, applies, apart⟩ := numeric.format_spec negative coefficient exponent
    rw [formatNumber?_of_number read finite, forall_isNumberIn_iff read finite, forall_isNumberIn_iff read finite]
    by_cases fits : numeric.AppliesTo coefficient exponent
    · refine ⟨?_, fun other => absurd fits other⟩
      by_cases wide : numeric.TooWide coefficient exponent
      · obtain ⟨error, failed⟩ := fails wide
        rw [failed]
        refine iff_of_false ?_ fun none => none wide
        rintro ⟨_, ⟨⟩⟩
      · obtain ⟨digits, done⟩ := applies fits wide
        rw [done]
        exact iff_of_true ⟨_, rfl⟩ wide
    · have narrow : ¬ numeric.TooWide coefficient exponent := by
        intro wide
        obtain ⟨error, failed⟩ := fails wide
        rw [apart fits] at failed
        cases failed
      rw [apart fits]
      exact ⟨iff_of_true ⟨_, rfl⟩ narrow, fun _ => rfl⟩
  · simp only [not_exists] at known
    rw [formatNumber?_of_no_number shown known]
    exact ⟨iff_of_true ⟨_, rfl⟩ fun _ _ _ here => absurd here (known _ _ _), fun _ => rfl⟩

theorem truncation?_eq_some_iff {digits : List Char} : truncation? spec = some digits ↔
    ∃ letter, (letter = 'T' ∨ letter = 't') ∧ digits ≠ [] ∧ (∀ c ∈ digits, isDecimalDigit c = true) ∧
      spec = letter :: digits := by
  cases spec with
  | nil => simp [truncation?]
  | cons letter rest =>
    simp only [truncation?, Option.ite_none_right_eq_some, Bool.and_eq_true, Bool.or_eq_true, beq_iff_eq,
      Bool.not_eq_true', List.isEmpty_eq_false_iff, List.all_eq_true, Option.some.injEq, List.cons.injEq]
    constructor
    · rintro ⟨⟨⟨cuts, filled⟩, decimal⟩, rfl⟩
      exact ⟨letter, cuts, filled, decimal, rfl, rfl⟩
    · rintro ⟨_, cuts, filled, decimal, rfl, rfl⟩
      exact ⟨⟨⟨cuts, filled⟩, decimal⟩, rfl⟩

/-- A letter that is no number style opens no number format. -/
theorem read?_of_letter {letter : Char} (other : NumberStyle.ofLetter? letter = none) (digits : List Char) :
    NumberSpec.read? (letter :: digits) = none := by
  rw [NumberSpec.read?, other]
  rfl

theorem read?_truncation {digits : List Char} (found : truncation? spec = some digits) :
    NumberSpec.read? spec = none := by
  obtain ⟨letter, rfl | rfl, _, _, rfl⟩ := truncation?_eq_some_iff.1 found
  · exact read?_of_letter (by decide) digits
  · exact read?_of_letter (by decide) digits

theorem not_refuses_of_letter {letter : Char} (other : NumberStyle.ofLetter? letter = none)
    (apart : letter ≠ 'T' ∧ letter ≠ 't') (digits : List Char) : ¬ value.Refuses (letter :: digits) := by
  rintro (⟨⟨read, _⟩, _⟩ | ⟨_, cuts, _, _⟩)
  · rw [read?_of_letter other] at read
    cases read
  · exact cuts.elim apart.1 apart.2

theorem refuses_truncation_iff (present : value ≠ .null) {digits : List Char}
    (found : truncation? spec = some digits) : value.Refuses spec ↔ digitLimit < digits.length := by
  constructor
  · rintro (⟨⟨read, _⟩, _⟩ | ⟨_, _, _, long⟩)
    · rw [read?_truncation found] at read
      cases read
    · obtain ⟨_, _, _, _, same⟩ := truncation?_eq_some_iff.1 found
      rwa [(List.cons.inj same).2] at long
  · obtain ⟨letter, cuts, _, decimal, rfl⟩ := truncation?_eq_some_iff.1 found
    exact .cut present cuts decimal

theorem refuses_number_iff (absent : truncation? spec = none) : value.Refuses spec ↔
    ∃ numeric coefficient exponent, value.IsNumberIn spec numeric coefficient exponent ∧
      numeric.TooWide coefficient exponent := by
  constructor
  · intro refused
    cases refused with
    | number known wide => exact ⟨_, _, _, known, wide⟩
    | @cut letter digits _ cuts decimal long =>
      have filled : digits ≠ [] := by
        rintro rfl
        exact absurd long (Nat.not_lt_zero _)
      rw [truncation?_eq_some_iff.2 ⟨letter, cuts, filled, decimal, rfl⟩] at absent
      cases absent
  · rintro ⟨_, _, _, known, wide⟩
    exact .number known wide

/-- A value that is not absent has a text in every format that it does not refuse. -/
theorem formatWith_ok_iff (shown : value.render = .ok plain) (present : value ≠ .null) (spec : List Char) :
    (∃ text, value.formatWith spec = .ok text) ↔ ¬ value.Refuses spec := by
  unfold formatWith
  dsimp only
  rw [shown]
  split
  · rename_i upper
    refine iff_of_true ⟨_, rfl⟩ ?_
    rcases upper with rfl | rfl
    · exact not_refuses_of_letter (by decide) (by decide) []
    · exact not_refuses_of_letter (by decide) (by decide) []
  · split
    · rename_i lower
      refine iff_of_true ⟨_, rfl⟩ ?_
      rcases lower with rfl | rfl
      · exact not_refuses_of_letter (by decide) (by decide) []
      · exact not_refuses_of_letter (by decide) (by decide) []
    · split
      · rename_i digits found
        rw [refuses_truncation_iff present found]
        unfold readDigits
        split
        · rename_i short
          exact iff_of_true ⟨_, rfl⟩ (Nat.not_lt.2 short)
        · rename_i long
          refine iff_of_false ?_ (not_not.2 (Nat.lt_of_not_le long))
          rintro ⟨_, ⟨⟩⟩
      · rename_i absent
        have number := (formatNumber?_spec shown spec).1
        rw [refuses_number_iff absent]
        simp only [not_exists, not_and]
        rw [← number]
        cases value.formatNumber? spec with
        | error error =>
          refine iff_of_false ?_ ?_
          · rintro ⟨_, ⟨⟩⟩
          · rintro ⟨_, ⟨⟩⟩
        | ok number =>
          refine iff_of_true ?_ ⟨_, rfl⟩
          cases number with
          | some formatted => exact ⟨_, rfl⟩
          | none => cases value.formatDate? spec <;> exact ⟨_, rfl⟩

/-- A format that neither changes the case nor cuts the text is tried as a number style, then as a
date pattern. -/
theorem formatWith_of_apart (upper : ¬ (spec = ['U'] ∨ spec = ['u'])) (lower : ¬ (spec = ['L'] ∨ spec = ['l']))
    (whole : truncation? spec = none) :
    value.formatWith spec = value.formatNumber? spec >>= fun number =>
      match number with
      | some formatted => .ok formatted
      | none =>
        match value.formatDate? spec with
        | some formatted => .ok formatted
        | none => liftNumeral value.render := by
  unfold formatWith
  dsimp only
  rw [if_neg upper, if_neg lower]
  split
  · rename_i found
    cases found.symm.trans whole
  · rfl

/-- A number style neither changes the case nor cuts the text. -/
theorem formatWith_of_read? {numeric : NumberSpec} (read : NumberSpec.read? spec = some numeric) :
    value.formatWith spec = value.formatNumber? spec >>= fun number =>
      match number with
      | some formatted => .ok formatted
      | none =>
        match value.formatDate? spec with
        | some formatted => .ok formatted
        | none => liftNumeral value.render := by
  have other {letter : Char} (none : NumberStyle.ofLetter? letter = none) : spec ≠ [letter] := by
    rintro rfl
    rw [read?_of_letter none] at read
    cases read
  refine formatWith_of_apart (not_or.2 ⟨other (by decide), other (by decide)⟩)
    (not_or.2 ⟨other (by decide), other (by decide)⟩) ?_
  rw [Option.eq_none_iff_forall_ne_some]
  intro digits found
  rw [read?_truncation found] at read
  cases read

/-- A number style that does not apply to a value leaves its plain text, unless it is a date pattern
as well. -/
theorem formatWith_of_not_appliesTo (shown : value.render = .ok plain) {numeric : NumberSpec}
    (read : NumberSpec.read? spec = some numeric) (undated : isDatePattern spec = false)
    (apart : ∀ coefficient exponent, value.IsNumberIn spec numeric coefficient exponent →
      ¬ numeric.AppliesTo coefficient exponent) : value.formatWith spec = .ok plain := by
  have number : value.formatNumber? spec = .ok none := by
    refine (formatNumber?_spec shown spec).2 fun other coefficient exponent known => ?_
    have same := read.symm.trans known.1
    cases same
    exact apart coefficient exponent known
  have date : value.formatDate? spec = none := by
    rw [formatDate?, undated]
    rfl
  rw [formatWith_of_read? read, number, shown]
  show (match value.formatDate? spec with
    | some formatted => Except.ok formatted
    | none => Except.ok plain) = _
  rw [date]

theorem format_none (present : value ≠ .null) : value.format none = liftNumeral value.render := by
  cases value with
  | null => exact absurd rfl present
  | _ => rfl

theorem format_some (present : value ≠ .null) (format : String) : value.format (some format) =
    if format.isEmpty then liftNumeral value.render else value.formatWith (trim format.toList) := by
  cases value with
  | null => exact absurd rfl present
  | _ => rfl

theorem not_refuses_null : ¬ Refuses .null spec := by
  rintro (⟨⟨_, _, finite⟩, _⟩ | ⟨present, _⟩)
  · cases finite
  · exact present rfl

/-- Whatever can be written can be formatted, unless a number needs too many digits in its style or
the length to cut a text to is too long. A number style that does not apply to a value leaves its
plain text. -/
theorem format_ok_iff (shown : value.render = .ok plain) (format : String) :
    value.format none = .ok plain ∧
    ((∃ text, value.format (some format) = .ok text) ↔ ¬ value.Refuses (trim format.toList)) ∧
    ∀ numeric, NumberSpec.read? (trim format.toList) = some numeric →
      isDatePattern (trim format.toList) = false →
      (∀ coefficient exponent, value.IsNumberIn (trim format.toList) numeric coefficient exponent →
        ¬ numeric.AppliesTo coefficient exponent) →
      value.format (some format) = .ok plain := by
  by_cases present : value = .null
  · subst present
    cases shown
    exact ⟨rfl, iff_of_true ⟨"", rfl⟩ not_refuses_null, fun _ _ _ _ => rfl⟩
  · rw [format_none present, format_some present, shown]
    refine ⟨rfl, ?_⟩
    by_cases empty : format.isEmpty = true
    · have none : trim format.toList = [] := by
        rw [String.isEmpty_iff.1 empty]
        rfl
      rw [if_pos empty, none]
      refine ⟨iff_of_true ⟨plain, rfl⟩ ?_, fun _ _ _ _ => rfl⟩
      intro refused
      cases refused with
      | number known => cases known.1
    · rw [if_neg empty]
      exact ⟨formatWith_ok_iff shown present _, fun numeric read undated apart =>
        formatWith_of_not_appliesTo shown read undated apart⟩

/-- A number with a fraction is grouped, and is left as it is where integers are padded. -/
theorem format_ok_iff_fraction :
    (Value.decimal (.finite false 15 (-1))).render = .ok "1.5" ∧
      ¬ (Value.decimal (.finite false 15 (-1))).Refuses "N2".toList ∧
      (Value.decimal (.finite false 15 (-1))).format (some "D4") = .ok "1.5" := by
  have shown : (Value.decimal (.finite false 15 (-1))).render = .ok "1.5" := by decide +kernel
  have grouped : (Value.decimal (.finite false 15 (-1))).format (some "N2") = .ok "1.50" := by decide +kernel
  have style : trim "N2".toList = "N2".toList := by decide
  refine ⟨shown, ?_, (format_ok_iff shown "D4").2.2 ⟨.padded, some 4⟩ (by decide) (by decide +kernel) ?_⟩
  · rw [← style]
    exact (format_ok_iff shown "N2").2.1.1 ⟨"1.50", grouped⟩
  · rintro coefficient exponent ⟨_, _, finite⟩ applies
    cases finite
    obtain ⟨whole, same⟩ := applies rfl
    have found := Decimal.integral?_eq_some_iff.2 same
    have absent : Decimal.integral? 15 (-1) = none := by decide
    rw [absent] at found
    cases found

/-- One with 99 fraction digits has more digits than the working precision, and formatting it
fails. -/
theorem digits_beyond_precision_refused :
    (Value.int 1).render = .ok "1" ∧
      (Value.int 1).format (some "N99") = .error (.decimal .invalidOperation) := by
  exact ⟨by decide +kernel, by decide +kernel⟩

end Value

end DeckBinding
