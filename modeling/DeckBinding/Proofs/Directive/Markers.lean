import DeckBinding.Directive.Reader
import DeckBinding.Proofs.Text.Blanks
import DeckBinding.Proofs.Text.Cut

set_option autoImplicit false

namespace DeckBinding

open DeckBinding.Text

def markers (cs : List Char) : List (List Char × List Char) :=
  (lines cs).flatMap fun line => (cutAtMarkers line).2

/-- The text up to the first marker or the first end of a line. -/
def textToMarker (cs : List Char) : List Char :=
  (cutAtMarkers ((lines cs).headD [])).1

/-- A keyword as it can stand in a marker: a letter, and word characters or hyphens behind it. -/
def isKeyword : List Char → Bool
  | [] => false
  | letter :: rest => letter.isAlpha && rest.all isKeywordChar

/-- What may stand behind a directive: spaces up to the end of its line, and lines without `#`. -/
structure Gap (cs : List Char) : Prop where
  free : '#' ∉ cs
  blank : Blanks (cs.takeWhile fun c => !isLineEnd c)

variable {c : Char} {rest front cs keyword after : List Char}

theorem lines_cons_of_inside (inside : isLineEnd c = false) (rest : List Char) :
    lines (c :: rest) = (c :: (lines rest).headD []) :: (lines rest).tail := by
  conv => lhs; unfold lines
  split
  · rename_i none
    cases none
  · rename_i same
    cases same
    cases inside
  · rename_i same
    cases same
    rw [inside, if_neg Bool.false_ne_true]
    cases lines rest <;> rfl

/-- Behind the end of a line the lines of the rest stand. A line feed that follows a carriage return
ends the same line. -/
theorem lines_cons_of_end (ends : isLineEnd c = true) (rest : List Char) :
    ∃ more, lines (c :: rest) = [] :: more ∧ (more = lines rest ∨ lines rest = [] :: more) := by
  generalize whole : lines (c :: rest) = found
  unfold lines at whole
  split at whole
  · rename_i none
    cases none
  · rename_i same
    cases same
    have feed (more : List Char) : lines ('\n' :: more) = [] :: lines more := by simp [lines, isLineEnd]
    exact ⟨_, whole.symm, .inr (feed _)⟩
  · rename_i same
    cases same
    rw [if_pos ends] at whole
    exact ⟨_, whole.symm, .inl rfl⟩

theorem lines_append (plain : ∀ c ∈ front, isLineEnd c = false) (filled : front ≠ []) (cs : List Char) :
    lines (front ++ cs) = (front ++ (lines cs).headD []) :: (lines cs).tail := by
  induction front with
  | nil => exact absurd rfl filled
  | cons c front ih =>
    rw [List.cons_append, lines_cons_of_inside (plain c List.mem_cons_self)]
    cases front with
    | nil => rfl
    | cons d front =>
      rw [ih (fun e member => plain e (List.mem_cons_of_mem c member)) (List.cons_ne_nil d front)]
      rfl

theorem takeMarker?_of_ne (apart : c ≠ '#') (rest : List Char) : takeMarker? (c :: rest) = none := by
  unfold takeMarker?
  split
  · rename_i same
    cases same
    exact absurd rfl apart
  · rfl

theorem cutAtMarkers_of_none (none : takeMarker? (c :: rest) = none) :
    cutAtMarkers (c :: rest) = (c :: (cutAtMarkers rest).1, (cutAtMarkers rest).2) := by
  rw [cutAtMarkers]
  split
  · rename_i found
    rw [none] at found
    cases found
  · rfl

theorem cutAtMarkers_of_some (found : takeMarker? (c :: rest) = some (keyword, after)) :
    cutAtMarkers (c :: rest) = ([], (keyword, (cutAtMarkers after).1) :: (cutAtMarkers after).2) := by
  rw [cutAtMarkers]
  split
  · rename_i same
    rw [found] at same
    cases same
    rfl
  · rename_i none
    rw [found] at none
    cases none

theorem exists_of_isKeyword (valid : isKeyword keyword = true) : ∃ letter rest, keyword = letter :: rest ∧
    letter.isAlpha = true ∧ ∀ c ∈ rest, isKeywordChar c = true := by
  obtain _ | ⟨letter, rest⟩ := keyword
  · cases valid
  · rw [isKeyword, Bool.and_eq_true, List.all_eq_true] at valid
    exact ⟨letter, rest, rfl, valid⟩

theorem takeMarker?_keyword (valid : isKeyword keyword = true) (after : List Char) :
    takeMarker? ('#' :: (keyword ++ ':' :: after)) = some (keyword, after) := by
  obtain ⟨letter, rest, rfl, alpha, further⟩ := exists_of_isKeyword valid
  have colon : ∀ c ∈ (':' :: after).head?, isKeywordChar c = false := by
    rintro c ⟨⟩
    decide
  rw [List.cons_append, takeMarker?, if_pos alpha, dropWhile_of_head further colon,
    takeWhile_of_head further colon, trimLeft_of_head (by decide)]
  rfl

theorem markers_eq (cs : List Char) : markers cs =
    (cutAtMarkers ((lines cs).headD [])).2 ++ (lines cs).tail.flatMap fun line => (cutAtMarkers line).2 := by
  unfold markers
  cases lines cs with
  | nil => rw [List.headD_nil, cutAtMarkers]; rfl
  | cons line more => rfl

theorem markers_cons (apart : c ≠ '#') (rest : List Char) : markers (c :: rest) = markers rest := by
  cases ends : isLineEnd c with
  | false =>
    rw [markers_eq rest, markers, lines_cons_of_inside ends, List.flatMap_cons,
      cutAtMarkers_of_none (takeMarker?_of_ne apart _)]
  | true =>
    have empty : (cutAtMarkers []).2 = [] := by rw [cutAtMarkers]
    obtain ⟨more, cut, same | merged⟩ := lines_cons_of_end ends rest
    · rw [markers, cut, same, List.flatMap_cons, empty]
      rfl
    · rw [markers, markers, cut, merged]

theorem markers_append (plain : '#' ∉ front) (cs : List Char) : markers (front ++ cs) = markers cs := by
  induction front with
  | nil => rfl
  | cons c front ih =>
    obtain ⟨apart, further⟩ := not_or.1 (List.mem_cons.not.1 plain)
    rw [List.cons_append, markers_cons (Ne.symm apart), ih further]

theorem isLineEnd_of_isWord (word : isWord c = true) : isLineEnd c = false := by
  cases ends : isLineEnd c with
  | false => rfl
  | true =>
    rw [isWord_of_isBlank (isBlank_of_isLineEnd ends)] at word
    cases word

theorem isLineEnd_of_isKeywordChar (char : isKeywordChar c = true) : isLineEnd c = false := by
  simp only [isKeywordChar, Bool.or_eq_true, beq_iff_eq] at char
  rcases char with word | rfl
  · exact isLineEnd_of_isWord word
  · decide

theorem isKeywordChar_of_mem (valid : isKeyword keyword = true) :
    ∀ c ∈ keyword, isKeywordChar c = true := by
  obtain ⟨letter, rest, rfl, alpha, further⟩ := exists_of_isKeyword valid
  have start : isNameStart letter = true := by
    rw [isNameStart, alpha]
    rfl
  refine List.forall_mem_cons.2 ⟨?_, further⟩
  rw [isKeywordChar, isWord_of_isNameStart start]
  rfl

theorem lines_keyword (valid : isKeyword keyword = true) (cs : List Char) :
    lines ('#' :: (keyword ++ ':' :: cs)) =
      ('#' :: (keyword ++ ':' :: (lines cs).headD [])) :: (lines cs).tail := by
  have plain : ∀ c ∈ '#' :: (keyword ++ [':']), isLineEnd c = false := by
    rw [List.forall_mem_cons, List.forall_mem_append]
    exact ⟨by decide, fun c member => isLineEnd_of_isKeywordChar (isKeywordChar_of_mem valid c member),
      List.forall_mem_singleton.2 (by decide)⟩
  have cut := lines_append plain (List.cons_ne_nil _ _) cs
  simpa using cut

/-- A marker takes the text up to the next one or the end of its line. -/
theorem markers_keyword (valid : isKeyword keyword = true) (cs : List Char) :
    markers ('#' :: (keyword ++ ':' :: cs)) = (keyword, textToMarker cs) :: markers cs := by
  rw [markers, lines_keyword valid, List.flatMap_cons, cutAtMarkers_of_some (takeMarker?_keyword valid _),
    markers_eq cs]
  rfl

theorem textToMarker_keyword (valid : isKeyword keyword = true) (cs : List Char) :
    textToMarker ('#' :: (keyword ++ ':' :: cs)) = [] := by
  rw [textToMarker, lines_keyword valid, List.headD_cons,
    cutAtMarkers_of_some (takeMarker?_keyword valid _)]

theorem textToMarker_nil : textToMarker [] = [] := by
  rw [textToMarker, lines, List.headD_nil, cutAtMarkers]

theorem textToMarker_cons (inside : isLineEnd c = false) (apart : c ≠ '#') (rest : List Char) :
    textToMarker (c :: rest) = c :: textToMarker rest := by
  rw [textToMarker, lines_cons_of_inside inside, List.headD_cons,
    cutAtMarkers_of_none (takeMarker?_of_ne apart _), textToMarker]

theorem textToMarker_append (inside : ∀ c ∈ front, isLineEnd c = false) (plain : '#' ∉ front)
    (cs : List Char) : textToMarker (front ++ cs) = front ++ textToMarker cs := by
  induction front with
  | nil => rfl
  | cons c front ih =>
    obtain ⟨apart, further⟩ := not_or.1 (List.mem_cons.not.1 plain)
    have more := ih (fun d member => inside d (List.mem_cons_of_mem c member)) further
    rw [List.cons_append, textToMarker_cons (inside c List.mem_cons_self) (Ne.symm apart), more]
    rfl

theorem textToMarker_of_end (ends : isLineEnd c = true) (rest : List Char) :
    textToMarker (c :: rest) = [] := by
  obtain ⟨more, cut, _⟩ := lines_cons_of_end ends rest
  rw [textToMarker, cut, List.headD_cons, cutAtMarkers]

/-- Between a directive and the next marker only blanks count. -/
theorem Gap.blanks_textToMarker (gap : Gap front) (next : textToMarker cs = []) :
    Blanks (textToMarker (front ++ cs)) := by
  obtain ⟨free, blank⟩ := gap
  induction front with
  | nil =>
    rw [List.nil_append, next]
    exact blanks_nil
  | cons c front ih =>
    obtain ⟨apart, further⟩ := not_or.1 (List.mem_cons.not.1 free)
    cases ends : isLineEnd c with
    | true =>
      rw [List.cons_append, textToMarker_of_end ends]
      exact blanks_nil
    | false =>
      rw [List.takeWhile_cons_of_pos (by rw [ends]; rfl)] at blank
      obtain ⟨here, behind⟩ := List.forall_mem_cons.1 blank
      rw [List.cons_append, textToMarker_cons ends (Ne.symm apart)]
      exact List.forall_mem_cons.2 ⟨here, ih further behind⟩

end DeckBinding
