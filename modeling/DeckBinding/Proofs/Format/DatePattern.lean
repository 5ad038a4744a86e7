import DeckBinding.Proofs.Calendar.Pattern
import DeckBinding.Proofs.Format.Refusal

set_option autoImplicit false

namespace DeckBinding.Value

open DeckBinding.Calendar DeckBinding.Text

variable {value : Value} {moment : Moment}

theorem exists_render_of_toMoment? (dated : value.toMoment? = some moment) :
    value ≠ .null ∧ ∃ plain, value.render = .ok plain := by
  cases value with
  | date day => exact ⟨by simp, _, rfl⟩
  | moment time => exact ⟨by simp, _, rfl⟩
  | text s => exact ⟨by simp, _, rfl⟩
  | _ => cases dated

/-- A format that no other kind of format claims is a pattern for a date, and is left out where it
is none. -/
theorem formatWith_of_toMoment? (dated : value.toMoment? = some moment) {pattern : List Char}
    (case : ¬ (pattern = ['U'] ∨ pattern = ['u']) ∧ ¬ (pattern = ['L'] ∨ pattern = ['l']))
    (whole : truncation? pattern = none) (number : value.formatNumber? pattern = .ok none) :
    value.formatWith pattern =
      if isDatePattern pattern = true then .ok (String.ofList (moment.format pattern))
      else liftNumeral value.render := by
  rw [formatWith_of_apart case.1 case.2 whole, number]
  by_cases applied : isDatePattern pattern = true
  · have date : value.formatDate? pattern = some (String.ofList (moment.format pattern)) := by
      rw [formatDate?, if_pos applied, dated]
      rfl
    rw [date, if_pos applied]
    rfl
  · have date : value.formatDate? pattern = none := by
      rw [formatDate?, if_neg applied]
    rw [date, if_neg applied]
    rfl

/-- A date is written in a format that is neither a case, a cut nor a number style by the reading of
the format, if the letters outside its quotations are all of fields and there is one: fields as the
date has them, quotations without their quotes, and other characters as they stand. None of these is
a letter exactly when the runs of letters are made of fields. With a letter that has no field, or
with no letter, the date is left in its plain text. -/
theorem format_date {spec : String} (dated : value.toMoment? = some moment) (filled : spec ≠ "")
    (case : ¬ (trim spec.toList = ['U'] ∨ trim spec.toList = ['u']) ∧
      ¬ (trim spec.toList = ['L'] ∨ trim spec.toList = ['l']))
    (whole : truncation? (trim spec.toList) = none) (number : value.formatNumber? (trim spec.toList) = .ok none) :
    let pattern := trim spec.toList
    let runs := letterRuns pattern
    (runs ≠ [] ∧ (∀ run ∈ runs, run.1 ∈ fieldLetters) → ∃ parts,
      (∀ other, PatternReading pattern other ↔ other = parts) ∧
        value.format (some spec) = .ok (String.ofList (parts.flatMap (PatternPart.text moment))) ∧
        ((∀ c, .literal c ∈ parts → isLetter c = false) ↔ ∀ run ∈ runs, MadeOfFields run)) ∧
      (runs = [] ∨ (∃ run ∈ runs, run.1 ∉ fieldLetters) →
        ∃ plain, value.format none = .ok plain ∧ value.format (some spec) = .ok plain) := by
  intro pattern runs
  obtain ⟨present, plain, shown⟩ := exists_render_of_toMoment? dated
  have applied := isDatePattern_iff pattern
  rw [format_none present, format_some present, if_neg (by simpa using filled),
    formatWith_of_toMoment? dated case whole number, shown]
  constructor
  · intro known
    rw [if_pos (applied.2 known)]
    exact ⟨patternParts pattern, fun _ => patternReading_iff, rfl, noLetterLeft_iff pattern⟩
  · intro unknown
    have other : ¬ isDatePattern pattern = true := by
      rw [applied]
      rintro ⟨some, known⟩
      rcases unknown with none | ⟨run, member, bare⟩
      · exact some none
      · exact bare (known run member)
    rw [if_neg other]
    exact ⟨plain, rfl, rfl⟩

/-- A day and a month with a quotation between them. -/
theorem format_date_quoted :
    (Value.date ⟨2024, 3, 5⟩).toMoment? = some ⟨⟨2024, 3, 5⟩, 0, 0, 0, 0, none⟩ ∧
      (Value.date ⟨2024, 3, 5⟩).format (some "dd 'of' MMM") = .ok "05 of Mar" ∧
      ∃ parts, PatternReading "dd 'of' MMM".toList parts ∧ ∀ c, .literal c ∈ parts → isLetter c = false := by
  have dated : (Value.date ⟨2024, 3, 5⟩).toMoment? = some ⟨⟨2024, 3, 5⟩, 0, 0, 0, 0, none⟩ := rfl
  have same : trim "dd 'of' MMM".toList = "dd 'of' MMM".toList := by decide
  have runs : letterRuns "dd 'of' MMM".toList = [('d', 2), ('M', 3)] := by decide +kernel
  have spec := (@format_date _ _ "dd 'of' MMM" dated (by decide) (by decide) (by decide) (by decide +kernel)).1
  rw [same, runs] at spec
  obtain ⟨parts, reading, _, left⟩ := spec ⟨by decide, by decide⟩
  refine ⟨dated, by decide +kernel, parts, (reading parts).2 rfl, left.2 ?_⟩
  simp [madeOfFields_iff, fieldLetters]

/-- A single letter of the year is no field. It makes a format a pattern all the same, and is left
in the text instead of the plain text of the date. -/
theorem lone_year_letter_left :
    ¬ MadeOfFields ('y', 1) ∧ (Value.date ⟨2024, 3, 5⟩).format (some "y") = .ok "y" ∧
      (Value.date ⟨2024, 3, 5⟩).format none = .ok "2024-03-05" := by
  refine ⟨?_, by decide +kernel, by decide +kernel⟩
  simp [madeOfFields_iff]

end DeckBinding.Value
