import DeckBinding.Calendar.Pattern
import DeckBinding.Proofs.Text.Blanks
import Mathlib.Algebra.BigOperators.Ring.List
import Mathlib.Algebra.Ring.Nat
import Mathlib.Data.List.TakeWhile

set_option autoImplicit false

namespace DeckBinding.Calendar

open DeckBinding.Text

theorem untilQuote?_of_free {quote : Char} {inner : List Char} (free : quote ∉ inner) (after : List Char) :
    untilQuote? quote (inner ++ quote :: after) = some (inner, after) := by
  induction inner with
  | nil => simp [untilQuote?]
  | cons c inner ih =>
    rw [List.mem_cons, not_or] at free
    rw [List.cons_append, untilQuote?, if_neg (by simpa using Ne.symm free.1), ih free.2]
    rfl

theorem untilQuote?_eq_none_iff {quote : Char} {cs : List Char} : untilQuote? quote cs = none ↔ quote ∉ cs := by
  induction cs with
  | nil => simp [untilQuote?]
  | cons c rest ih =>
    rw [untilQuote?, List.mem_cons, not_or]
    split
    · rename_i closes
      simp [beq_iff_eq.1 closes]
    · rename_i other
      rw [beq_iff_eq] at other
      rw [Option.map_eq_none_iff, ih, and_iff_right (Ne.symm other)]

theorem untilQuote?_eq_some_iff {quote : Char} {cs inner after : List Char} :
    untilQuote? quote cs = some (inner, after) ↔ quote ∉ inner ∧ cs = inner ++ quote :: after := by
  constructor
  · intro found
    have closed : quote ∈ cs := by
      by_contra free
      cases found.symm.trans (untilQuote?_eq_none_iff.2 free)
    obtain ⟨front, behind, rfl, free⟩ := List.eq_append_cons_of_mem closed
    cases (untilQuote?_of_free free behind).symm.trans found
    exact ⟨free, rfl⟩
  · rintro ⟨free, rfl⟩
    exact untilQuote?_of_free free after

theorem closedQuotation?_eq_some_iff {cs inner after : List Char} : closedQuotation? cs = some (inner, after) ↔
    ∃ quote, isQuote quote = true ∧ quote ∉ inner ∧ cs = quote :: (inner ++ quote :: after) := by
  cases cs with
  | nil => simp [closedQuotation?]
  | cons c rest =>
    rw [closedQuotation?, Option.ite_none_right_eq_some, untilQuote?_eq_some_iff]
    constructor
    · rintro ⟨opens, free, rfl⟩
      exact ⟨c, opens, free, rfl⟩
    · rintro ⟨quote, opens, free, same⟩
      obtain ⟨rfl, rfl⟩ := List.cons.inj same
      exact ⟨opens, free, rfl⟩

theorem closedQuotation?_eq_none_iff {c : Char} {rest : List Char} :
    closedQuotation? (c :: rest) = none ↔ (isQuote c = true → c ∉ rest) := by
  rw [closedQuotation?, ite_eq_right_iff, untilQuote?_eq_none_iff]

theorem fieldWidths_pairwise (letter : Char) : (fieldWidths letter).Pairwise (· > ·) := by
  unfold fieldWidths
  repeat' split
  all_goals decide

/-- A text begins with some letters alike, if its first run has as many. -/
theorem replicate_prefix_iff {letter : Char} {count : Nat} {cs : List Char} :
    List.replicate count letter <+: cs ↔ count ≤ (cs.takeWhile (· == letter)).length := by
  induction count generalizing cs with
  | zero => simp
  | succ count ih =>
    cases cs with
    | nil => simp
    | cons c rest =>
      by_cases same : c = letter
      · subst same
        rw [List.replicate_succ, List.prefix_cons_inj, ih, List.takeWhile_cons_of_pos (by simp),
          List.length_cons, Nat.succ_le_succ_iff]
      · rw [List.takeWhile_cons_of_neg (by simpa using same), List.replicate_succ, List.cons_prefix_cons]
        exact iff_of_false (fun begins => same begins.1.symm) (Nat.not_succ_le_zero _)

theorem frontField?_eq_find? (letter : Char) (rest : List Char) : frontField? letter rest =
    (fieldWidths letter).find? fun width => List.replicate width letter <+: letter :: rest := by
  have fits (width : Nat) : List.replicate width letter <+: letter :: rest ↔
      width ≤ 1 + (rest.takeWhile (· == letter)).length := by
    rw [replicate_prefix_iff, List.takeWhile_cons_of_pos (by simp), List.length_cons, Nat.add_comm]
  simp only [frontField?, fits]

theorem frontField?_eq_none_iff {letter : Char} {rest : List Char} : frontField? letter rest = none ↔
    ∀ width ∈ fieldWidths letter, ¬ List.replicate width letter <+: letter :: rest := by
  rw [frontField?_eq_find?, List.find?_eq_none]
  simp only [decide_eq_true_eq]

/-- The field at the front of a text is the widest one. -/
theorem frontField?_eq_some_iff {letter : Char} {rest : List Char} {width : Nat} :
    frontField? letter rest = some width ↔ width ∈ fieldWidths letter ∧
      List.replicate width letter <+: letter :: rest ∧
      ∀ wider ∈ fieldWidths letter, List.replicate wider letter <+: letter :: rest → wider ≤ width := by
  have widest {width : Nat} (found : frontField? letter rest = some width) : width ∈ fieldWidths letter ∧
      List.replicate width letter <+: letter :: rest ∧
      ∀ wider ∈ fieldWidths letter, List.replicate wider letter <+: letter :: rest → wider ≤ width := by
    rw [frontField?_eq_find?] at found
    obtain ⟨fits, before, behind, widths, missed⟩ := List.find?_eq_some_iff_append.1 found
    refine ⟨List.mem_of_find?_eq_some found, of_decide_eq_true fits, fun wider member spelled => ?_⟩
    have falling := fieldWidths_pairwise letter
    rw [widths] at member falling
    rcases List.mem_append.1 member with front | back
    · have other := missed wider front
      rw [decide_eq_true spelled] at other
      cases other
    · rcases List.mem_cons.1 back with rfl | later
      · exact Nat.le_refl _
      · exact Nat.le_of_lt (List.rel_of_pairwise_cons (List.pairwise_append.1 falling).2.1 later)
  refine ⟨widest, ?_⟩
  rintro ⟨member, spelled, longest⟩
  cases found : frontField? letter rest with
  | none => exact absurd spelled (frontField?_eq_none_iff.1 found width member)
  | some other =>
    obtain ⟨known, fits, greatest⟩ := widest found
    rw [Nat.le_antisymm (longest other known fits) (greatest width member spelled)]

/-- A pattern is read from left to right: a closed quotation, the widest field of the letters that
follow, or a single character where neither stands. -/
inductive PatternReading : List Char → List PatternPart → Prop
  | nil : PatternReading [] []
  | quoted {quote : Char} {inner rest : List Char} {parts : List PatternPart} (opens : isQuote quote = true)
      (free : quote ∉ inner) (behind : PatternReading rest parts) :
      PatternReading (quote :: (inner ++ quote :: rest)) (.quoted inner :: parts)
  | field {letter : Char} {width : Nat} {rest : List Char} {parts : List PatternPart}
      (known : width ∈ fieldWidths letter)
      (widest : ∀ wider ∈ fieldWidths letter,
        List.replicate wider letter <+: List.replicate width letter ++ rest → wider ≤ width)
      (behind : PatternReading rest parts) :
      PatternReading (List.replicate width letter ++ rest) (.field letter width :: parts)
  | literal {c : Char} {rest : List Char} {parts : List PatternPart} (unclosed : isQuote c = true → c ∉ rest)
      (bare : ∀ width ∈ fieldWidths c, ¬ List.replicate width c <+: c :: rest)
      (behind : PatternReading rest parts) : PatternReading (c :: rest) (.literal c :: parts)

section Parts

variable {c : Char} {rest inner after : List Char} {width : Nat}

theorem patternParts_quoted (found : closedQuotation? (c :: rest) = some (inner, after)) :
    patternParts (c :: rest) = .quoted inner :: patternParts after := by
  rw [patternParts]
  split
  · rename_i same
    cases same.symm.trans found
    rfl
  · rename_i none
    cases none.symm.trans found

theorem patternParts_field (unquoted : closedQuotation? (c :: rest) = none) (found : frontField? c rest = some width) :
    patternParts (c :: rest) = .field c width :: patternParts (rest.drop (width - 1)) := by
  rw [patternParts]
  split
  · rename_i some
    cases some.symm.trans unquoted
  · rw [found]

theorem patternParts_literal (unquoted : closedQuotation? (c :: rest) = none) (bare : frontField? c rest = none) :
    patternParts (c :: rest) = .literal c :: patternParts rest := by
  rw [patternParts]
  split
  · rename_i some
    cases some.symm.trans unquoted
  · rw [bare]

end Parts

theorem pos_of_mem_fieldWidths {letter : Char} {width : Nat} (known : width ∈ fieldWidths letter) : 0 < width := by
  have widths : ∀ width ∈ fieldWidths letter, 0 < width := by
    unfold fieldWidths
    repeat' split
    all_goals decide
  exact widths width known

theorem mem_fieldLetters_of_width {letter : Char} {width : Nat} (known : width ∈ fieldWidths letter) :
    letter ∈ fieldLetters := by
  by_contra other
  have none : fieldWidths letter = [] := by
    simp only [fieldLetters, List.mem_cons, List.not_mem_nil, or_false, not_or] at other
    simp [fieldWidths, fieldLetters, other]
  rw [none] at known
  cases known

theorem isLetter_of_mem_fieldLetters {letter : Char} (known : letter ∈ fieldLetters) : isLetter letter = true := by
  have letters : fieldLetters.all isLetter = true := by decide
  exact List.all_eq_true.1 letters letter known

theorem isQuote_of_isLetter {c : Char} (letter : isLetter c = true) : isQuote c = false := by
  rw [Bool.eq_false_iff]
  intro opens
  rcases Bool.or_eq_true_iff.1 opens with single | double
  · rw [beq_iff_eq.1 single] at letter
    cases letter
  · rw [beq_iff_eq.1 double] at letter
    cases letter

theorem closedQuotation?_of_isLetter {c : Char} (letter : isLetter c = true) (rest : List Char) :
    closedQuotation? (c :: rest) = none :=
  closedQuotation?_eq_none_iff.2 fun opens =>
    absurd ((isQuote_of_isLetter letter).symm.trans opens) Bool.false_ne_true

/-- A pattern has one reading, which the pieces it is cut into make up. -/
theorem patternReading_iff {pattern : List Char} {parts : List PatternPart} :
    PatternReading pattern parts ↔ parts = patternParts pattern := by
  constructor
  · intro reading
    induction reading with
    | nil => rw [patternParts]
    | quoted opens free behind same =>
      rw [patternParts_quoted (closedQuotation?_eq_some_iff.2 ⟨_, opens, free, rfl⟩), same]
    | @field letter width rest parts known widest behind same =>
      obtain ⟨count, rfl⟩ := Nat.exists_eq_add_one.2 (pos_of_mem_fieldWidths known)
      rw [List.replicate_succ, List.cons_append] at widest ⊢
      have found : frontField? letter (List.replicate count letter ++ rest) = some (count + 1) :=
        frontField?_eq_some_iff.2 ⟨known, ⟨rest, by rw [List.replicate_succ, List.cons_append]⟩, widest⟩
      have letters := isLetter_of_mem_fieldLetters (mem_fieldLetters_of_width known)
      rw [patternParts_field (closedQuotation?_of_isLetter letters _) found, Nat.add_sub_cancel,
        List.drop_left' List.length_replicate, same]
    | literal unclosed bare behind same =>
      rw [patternParts_literal (closedQuotation?_eq_none_iff.2 unclosed) (frontField?_eq_none_iff.2 bare), same]
  · rintro rfl
    fun_induction patternParts pattern with
    | case1 => exact .nil
    | case2 c rest inner after found ih =>
      obtain ⟨quote, opens, free, same⟩ := closedQuotation?_eq_some_iff.1 found
      rw [same]
      exact .quoted opens free ih
    | case3 c rest unquoted width found ih =>
      obtain ⟨known, ⟨behind, spelled⟩, widest⟩ := frontField?_eq_some_iff.1 found
      obtain ⟨count, rfl⟩ := Nat.exists_eq_add_one.2 (pos_of_mem_fieldWidths known)
      obtain rfl : List.replicate count c ++ behind = rest := (List.cons.inj spelled).2
      rw [Nat.add_sub_cancel, List.drop_left' List.length_replicate] at ih ⊢
      exact .field known widest ih
    | case4 c rest unquoted bare ih =>
      exact .literal (closedQuotation?_eq_none_iff.1 unquoted) (frontField?_eq_none_iff.1 bare) ih

/-- The runs of equal letters outside closed quotations, from left to right, with their lengths. -/
def letterRuns : List Char → List (Char × Nat)
  | [] => []
  | c :: rest =>
    match _found : closedQuotation? (c :: rest) with
    | some (_, after) => letterRuns after
    | none =>
      if isLetter c then
        let more := (rest.takeWhile (· == c)).length
        (c, more + 1) :: letterRuns (rest.drop more)
      else letterRuns rest
termination_by cs => cs.length
decreasing_by
  · exact length_of_closedQuotation? _found
  · simp only [List.length_cons, List.length_drop]; omega
  · simp only [List.length_cons]; omega

/-- A run of a letter is made of fields. -/
def MadeOfFields (run : Char × Nat) : Prop :=
  ∃ widths : List Nat, (∀ width ∈ widths, width ∈ fieldWidths run.1) ∧ widths.sum = run.2

theorem mod_two_of_mem_fieldWidths {letter : Char} {width : Nat} (paired : letter = 'y' ∨ letter = 't')
    (known : width ∈ fieldWidths letter) : width % 2 = 0 := by
  have widths : ∀ letter, letter = 'y' ∨ letter = 't' → ∀ width ∈ fieldWidths letter, width % 2 = 0 := by
    rintro _ (rfl | rfl)
    · decide
    · decide
  exact widths letter paired width known

/-- A letter with fields has one of a single letter, or it is one of two letters and has a field of
two. -/
theorem one_or_two_mem_fieldWidths {letter : Char} (fields : letter ∈ fieldLetters) :
    1 ∈ fieldWidths letter ∨ (letter = 'y' ∨ letter = 't') ∧ 2 ∈ fieldWidths letter := by
  simp only [fieldLetters, List.mem_cons, List.not_mem_nil, or_false] at fields
  rcases fields with rfl | rfl | rfl | rfl | rfl | rfl | rfl | rfl | rfl <;> decide

/-- A run of a letter that has fields is made of them, if it is even or the letter has a field of
one letter. -/
theorem madeOfFields_iff {letter : Char} {count : Nat} : MadeOfFields (letter, count) ↔
    (count = 0 ∨ letter ∈ fieldLetters) ∧ (letter = 'y' ∨ letter = 't' → count % 2 = 0) := by
  constructor
  · rintro ⟨widths, known, rfl⟩
    constructor
    · cases widths with
      | nil => exact .inl rfl
      | cons width widths => exact .inr (mem_fieldLetters_of_width (known width List.mem_cons_self))
    · intro paired
      exact Nat.mod_eq_zero_of_dvd (List.dvd_sum fun width member =>
        Nat.dvd_of_mod_eq_zero (mod_two_of_mem_fieldWidths paired (known width member)))
  · rintro ⟨rfl | fields, even⟩
    · exact ⟨[], by simp, rfl⟩
    · rcases one_or_two_mem_fieldWidths fields with one | ⟨paired, two⟩
      · exact ⟨List.replicate count 1, fun width member => List.eq_of_mem_replicate member ▸ one,
          List.sum_replicate_nat.trans (Nat.mul_one count)⟩
      · refine ⟨List.replicate (count / 2) 2, fun width member => List.eq_of_mem_replicate member ▸ two, ?_⟩
        have whole := even paired
        rw [List.sum_replicate_nat]
        dsimp only
        omega

/-- No letter is left as it stands. -/
def NoLetterLeft (parts : List PatternPart) : Prop :=
  ∀ c, .literal c ∈ parts → isLetter c = false

section Left

variable {parts : List PatternPart}

theorem noLetterLeft_quoted {text : List Char} : NoLetterLeft (.quoted text :: parts) ↔ NoLetterLeft parts := by
  simp [NoLetterLeft]

theorem noLetterLeft_field {letter : Char} {width : Nat} :
    NoLetterLeft (.field letter width :: parts) ↔ NoLetterLeft parts := by
  simp [NoLetterLeft]

theorem noLetterLeft_literal {c : Char} :
    NoLetterLeft (.literal c :: parts) ↔ isLetter c = false ∧ NoLetterLeft parts := by
  simp [NoLetterLeft]

end Left

/-- The letters alike at the front of a text are a run, and another character stands behind them. -/
theorem front_run (c : Char) (rest : List Char) :
    let more := (rest.takeWhile (· == c)).length
    rest = List.replicate more c ++ rest.drop more ∧ (rest.drop more).head? ≠ some c := by
  intro more
  have alike : rest.takeWhile (· == c) = List.replicate more c :=
    List.eq_replicate_iff.2 ⟨rfl, fun d member => beq_iff_eq.1 (@List.mem_takeWhile_imp _ (· == c) _ _ member)⟩
  have behind : rest.drop more = rest.dropWhile (· == c) := by
    conv_lhs => rw [← List.takeWhile_append_dropWhile (p := (· == c)) (l := rest)]
    exact List.drop_left' rfl
  constructor
  · rw [behind, ← alike, List.takeWhile_append_dropWhile]
  · rw [behind]
    intro same
    have other := List.head?_dropWhile_not (· == c) rest
    rw [same] at other
    simp at other

/-- A run is made of fields when it is so without a field in front: the width of the field is even
wherever the run has to be. -/
theorem madeOfFields_sub {letter : Char} {width count : Nat} (known : width ∈ fieldWidths letter)
    (fits : width ≤ count) : MadeOfFields (letter, count - width) ↔ MadeOfFields (letter, count) := by
  have fields := mem_fieldLetters_of_width known
  rw [madeOfFields_iff, madeOfFields_iff, or_iff_right_of_imp fun _ => fields, or_iff_right_of_imp fun _ => fields]
  refine and_congr_right fun _ => forall_congr' fun paired => ?_
  have even := mod_two_of_mem_fieldWidths paired known
  omega

theorem MadeOfFields.exists_width {letter : Char} {count : Nat} (made : MadeOfFields (letter, count))
    (some : 0 < count) : ∃ width ∈ fieldWidths letter, width ≤ count := by
  obtain ⟨_ | ⟨width, widths⟩, known, sum⟩ := made
  · exact absurd sum (Nat.ne_of_lt some)
  · have total : width + widths.sum = count := List.sum_cons.symm.trans sum
    exact ⟨width, known width List.mem_cons_self, by omega⟩

theorem replicate_prefix_run_iff {c : Char} {rest : List Char} (ends : rest.head? ≠ some c) {width count : Nat} :
    List.replicate width c <+: List.replicate count c ++ rest ↔ width ≤ count := by
  rw [replicate_prefix_iff, takeWhile_of_head, List.length_replicate]
  · exact fun d member => beq_iff_eq.2 (List.eq_of_mem_replicate member)
  · intro d first
    rw [beq_eq_false_iff_ne]
    rintro rfl
    exact ends first

/-- A run of a letter is cut into fields and nothing else exactly when it is made of fields. -/
theorem noLetterLeft_run {c : Char} (letter : isLetter c = true) {rest : List Char} (ends : rest.head? ≠ some c)
    (count : Nat) : NoLetterLeft (patternParts (List.replicate count c ++ rest)) ↔
      MadeOfFields (c, count) ∧ NoLetterLeft (patternParts rest) := by
  induction count using Nat.strong_induction_on with
  | _ count ih =>
    cases count with
    | zero => simp [madeOfFields_iff]
    | succ below =>
      have fits (width : Nat) :
          List.replicate width c <+: c :: (List.replicate below c ++ rest) ↔ width ≤ below + 1 := by
        rw [← List.cons_append, ← List.replicate_succ]
        exact replicate_prefix_run_iff ends
      have unquoted := closedQuotation?_of_isLetter letter (List.replicate below c ++ rest)
      rw [List.replicate_succ, List.cons_append]
      cases found : frontField? c (List.replicate below c ++ rest) with
      | none =>
        rw [patternParts_literal unquoted found, noLetterLeft_literal, letter]
        refine iff_of_false (fun plain => by cases plain.1) ?_
        rintro ⟨made, _⟩
        obtain ⟨width, known, short⟩ := made.exists_width (Nat.succ_pos below)
        exact frontField?_eq_none_iff.1 found width known ((fits width).2 short)
      | some width =>
        obtain ⟨known, spelled, _⟩ := frontField?_eq_some_iff.1 found
        have positive := pos_of_mem_fieldWidths known
        have short := (fits width).1 spelled
        have left : (List.replicate below c ++ rest).drop (width - 1) =
            List.replicate (below + 1 - width) c ++ rest := by
          rw [List.drop_append_of_le_length (by rw [List.length_replicate]; omega), List.drop_replicate]
          congr 2
          omega
        rw [patternParts_field unquoted found, noLetterLeft_field, left, ih _ (by omega), madeOfFields_sub known short]

/-- A pattern is read without a letter left exactly when each of its runs is made of fields. -/
theorem noLetterLeft_iff (pattern : List Char) :
    NoLetterLeft (patternParts pattern) ↔ ∀ run ∈ letterRuns pattern, MadeOfFields run := by
  fun_induction letterRuns pattern with
  | case1 => simp [patternParts, NoLetterLeft]
  | case2 c rest inner after found ih => rw [patternParts_quoted found, noLetterLeft_quoted, ih]
  | case3 c rest unquoted letter more ih =>
    obtain ⟨split, ends⟩ := front_run c rest
    have front : c :: rest = List.replicate (more + 1) c ++ rest.drop more := congrArg (c :: ·) split
    rw [front, noLetterLeft_run letter ends, ih, List.forall_mem_cons]
  | case4 c rest unquoted other ih =>
    have bare : frontField? c rest = none := by
      refine frontField?_eq_none_iff.2 fun width known => absurd ?_ other
      exact isLetter_of_mem_fieldLetters (mem_fieldLetters_of_width known)
    rw [patternParts_literal unquoted bare, noLetterLeft_literal, ih, and_iff_right (Bool.eq_false_iff.2 other)]

theorem withoutQuotations_quoted {c : Char} {rest inner after : List Char}
    (found : closedQuotation? (c :: rest) = some (inner, after)) :
    withoutQuotations (c :: rest) = withoutQuotations after := by
  rw [withoutQuotations]
  split
  · rename_i same
    cases same.symm.trans found
    rfl
  · rename_i none
    cases none.symm.trans found

theorem withoutQuotations_unquoted {c : Char} {rest : List Char} (unquoted : closedQuotation? (c :: rest) = none) :
    withoutQuotations (c :: rest) = c :: withoutQuotations rest := by
  rw [withoutQuotations]
  split
  · rename_i some
    cases some.symm.trans unquoted
  · rfl

theorem withoutQuotations_run {c : Char} (letter : isLetter c = true) (rest : List Char) (count : Nat) :
    withoutQuotations (List.replicate count c ++ rest) = List.replicate count c ++ withoutQuotations rest := by
  induction count with
  | zero => rfl
  | succ count ih =>
    rw [List.replicate_succ, List.cons_append, List.cons_append,
      withoutQuotations_unquoted (closedQuotation?_of_isLetter letter _), ih]

/-- The letters outside quotations are those of the runs. -/
theorem filter_withoutQuotations (pattern : List Char) : (withoutQuotations pattern).filter isLetter =
    (letterRuns pattern).flatMap fun run => List.replicate run.2 run.1 := by
  fun_induction letterRuns pattern with
  | case1 => simp [withoutQuotations]
  | case2 c rest inner after found ih => rw [withoutQuotations_quoted found, ih]
  | case3 c rest unquoted letter more ih =>
    have front : c :: rest = List.replicate (more + 1) c ++ rest.drop more := congrArg (c :: ·) (front_run c rest).1
    have letters : (List.replicate (more + 1) c).filter isLetter = List.replicate (more + 1) c :=
      List.filter_eq_self.2 fun d member => List.eq_of_mem_replicate member ▸ letter
    rw [front, withoutQuotations_run letter, List.filter_append, letters, ih, List.flatMap_cons]
  | case4 c rest unquoted other ih =>
    rw [withoutQuotations_unquoted unquoted, List.filter_cons_of_neg other, ih]

theorem pos_of_mem_letterRuns {pattern : List Char} : ∀ run ∈ letterRuns pattern, 0 < run.2 := by
  fun_induction letterRuns pattern with
  | case1 => simp
  | case2 c rest inner after found ih => exact ih
  | case3 c rest unquoted letter more ih => exact List.forall_mem_cons.2 ⟨Nat.succ_pos more, ih⟩
  | case4 c rest unquoted other ih => exact ih

/-- A date pattern has runs of letters, and all of them are of letters with fields. -/
theorem isDatePattern_iff (pattern : List Char) : isDatePattern pattern = true ↔
    letterRuns pattern ≠ [] ∧ ∀ run ∈ letterRuns pattern, run.1 ∈ fieldLetters := by
  have positive := @pos_of_mem_letterRuns pattern
  unfold isDatePattern
  dsimp only
  rw [filter_withoutQuotations, Bool.and_eq_true, Bool.not_eq_true', List.isEmpty_eq_false_iff, List.all_eq_true]
  generalize letterRuns pattern = runs at positive ⊢
  refine and_congr (not_congr ?_) ?_
  · cases runs with
    | nil => simp
    | cons run runs =>
      have some := positive run List.mem_cons_self
      simp [Nat.ne_of_gt some]
  · constructor
    · intro known run member
      have inside : run.1 ∈ runs.flatMap fun run => List.replicate run.2 run.1 :=
        List.mem_flatMap.2 ⟨run, member, List.mem_replicate.2 ⟨Nat.ne_of_gt (positive run member), rfl⟩⟩
      exact List.contains_iff_mem.1 (known run.1 inside)
    · intro known c inside
      obtain ⟨run, member, repeated⟩ := List.mem_flatMap.1 inside
      rw [List.eq_of_mem_replicate repeated]
      exact List.contains_iff_mem.2 (known run member)

end DeckBinding.Calendar
