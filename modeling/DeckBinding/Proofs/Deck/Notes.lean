import DeckBinding.Deck.Edit
import DeckBinding.Proofs.Directive.Marks

set_option autoImplicit false

namespace DeckBinding

open DeckBinding.Number DeckBinding.Text

variable {line : List Char}

theorem markers_of_isLine (plain : IsLine line) : markers line = (cutAtMarkers line).2 := by
  by_cases empty : line = []
  · subst empty
    rw [cutAtMarkers_nil]
    rfl
  · rw [markers, lines_line plain empty, List.flatMap_singleton]

/-- In a line without line ends the parser finds marks exactly when some stand in it. -/
theorem markedTexts_eq_nil_iff (plain : IsLine line) : markedTexts line = [] ↔ (cutAtMarkers line).2 = [] := by
  have same := plainMark_markedTexts line
  rw [markers_of_isLine plain] at same
  rw [← List.map_eq_nil_iff (f := plainMark), same, List.map_eq_nil_iff]

theorem cutAtMarkers_append_plain {front : List Char} (plain : '#' ∉ front) (rest : List Char) :
    (cutAtMarkers (front ++ rest)).2 = (cutAtMarkers rest).2 := by
  induction front with
  | nil => rfl
  | cons c front ih =>
    obtain ⟨apart, further⟩ := not_or.1 (List.mem_cons.not.1 plain)
    rw [List.cons_append, cutAtMarkers_of_none (takeMarker?_of_ne (Ne.symm apart) _), ih further]

/-- A letter of a keyword in any case. -/
theorem exists_of_dropKeyword? {keyword cs behind : List Char} (dropped : dropKeyword? keyword cs = some behind) :
    ∃ front, cs = front ++ behind ∧
      List.Forall₂ (fun letter c => isKeywordLetter letter c = true) keyword front := by
  induction keyword generalizing cs with
  | nil =>
    cases dropped
    exact ⟨[], rfl, .nil⟩
  | cons letter keyword ih =>
    cases cs with
    | nil => cases dropped
    | cons c rest =>
      rw [dropKeyword?] at dropped
      split at dropped
      · rename_i same
        obtain ⟨front, rfl, letters⟩ := ih dropped
        exact ⟨c :: front, rfl, .cons same letters⟩
      · cases dropped

theorem isKeywordChar_of_isKeywordLetter {letter c : Char}
    (among : ∃ keyword ∈ noteKeywords, letter ∈ keyword) (same : isKeywordLetter letter c = true) :
    isKeywordChar c = true := by
  have cases : (noteKeywords.all fun keyword => keyword.all fun letter =>
      isKeywordChar letter && isKeywordChar letter.toUpper) = true := by decide +kernel
  obtain ⟨keyword, member, inside⟩ := among
  obtain ⟨small, capital⟩ := Bool.and_eq_true_iff.1
    (List.all_eq_true.1 (List.all_eq_true.1 cases keyword member) letter inside)
  simp only [isKeywordLetter, Bool.or_eq_true, Bool.and_eq_true, beq_iff_eq] at same
  rcases same with ((rfl | rfl) | ⟨-, rfl | rfl⟩) | ⟨-, rfl⟩
  · exact small
  · exact capital
  · decide +kernel
  · decide +kernel
  · decide +kernel

/-- A keyword with a colon behind it, in any case and after blanks, makes a mark. -/
theorem exists_takeMarker? {keyword rest behind : List Char} (among : keyword ∈ noteKeywords)
    (dropped : dropKeyword? keyword rest = some behind) (colon : (trimLeft behind).head? = some ':') :
    ∃ mark, takeMarker? ('#' :: rest) = some mark := by
  obtain ⟨front, rfl, letters⟩ := exists_of_dropKeyword? dropped
  have starts : ∀ keyword ∈ noteKeywords, ∃ letter more, keyword = letter :: more ∧
      letter.isAlpha = true ∧ letter.toUpper.isAlpha = true ∧ letter ≠ 'i' ∧ letter ≠ 's' := by
    simp [noteKeywords]
  obtain ⟨letter, more, rfl, small, capital, undotted, short⟩ := starts keyword among
  cases letters with
  | @cons _ c _ chars same others =>
    have alpha : c.isAlpha = true := by
      simp only [isKeywordLetter, Bool.or_eq_true, Bool.and_eq_true, beq_iff_eq, undotted, short,
        false_and, or_false] at same
      rcases same with rfl | rfl
      · exact small
      · exact capital
    have inside : ∀ d ∈ chars, isKeywordChar d = true := by
      intro d member
      obtain ⟨other, within, equal⟩ := exists_of_mem_forall₂ others member
      exact isKeywordChar_of_isKeywordLetter ⟨_, among, List.mem_cons_of_mem letter within⟩ equal
    have stops : ∀ d ∈ behind.head?, isKeywordChar d = false := by
      rw [← takeWhile_append_trimLeft behind]
      refine head?_append_of_blanks (blanks_takeWhile behind) (fun d => isKeywordChar_of_isBlank) ?_
      rw [colon]
      rintro d ⟨⟩
      decide
    obtain ⟨after, found⟩ : ∃ after, trimLeft behind = ':' :: after := by
      rcases found : trimLeft behind with _ | ⟨d, after⟩
      · rw [found] at colon
        cases colon
      · rw [found] at colon
        cases colon
        exact ⟨after, rfl⟩
    refine ⟨(c :: (chars ++ behind).takeWhile isKeywordChar, after), ?_⟩
    rw [List.cons_append, takeMarker?_hash, if_pos alpha, dropWhile_of_head inside stops, found]
    rfl

/-- A line that starts with a directive has a mark. -/
theorem markedTexts_ne_nil (plain : IsLine line) (directive : isDirectiveLine line = true) :
    markedTexts line ≠ [] := by
  rw [ne_eq, markedTexts_eq_nil_iff plain, ← takeWhile_append_trimLeft line]
  have blank : '#' ∉ line.takeWhile isBlank := fun member =>
    absurd (blanks_takeWhile line '#' member) (by decide)
  rw [cutAtMarkers_append_plain blank]
  unfold isDirectiveLine at directive
  split at directive
  · rename_i rest starts
    obtain ⟨keyword, among, found⟩ := List.any_eq_true.1 directive
    split at found
    · rename_i behind dropped
      obtain ⟨⟨word, after⟩, taken⟩ := exists_takeMarker? among dropped (eq_of_beq found)
      rw [starts, cutAtMarkers_of_some taken]
      exact List.cons_ne_nil _ _
    · cases found
  · cases directive

namespace Notes

/-- The text of the notes. Without a page there is none. -/
def content : Notes → List Char
  | .text content => content
  | _ => []

/-- The lines of the notes that are copied: those that are no slide number and do not start with a
directive. -/
def copiedLines (notes : Notes) : List (List Char) :=
  (lines notes.content).filter fun line => !isDirectiveLine line && !isSlideNumber line

theorem content_copy (notes : Notes) : notes.copy.content = notes.kept := by
  unfold copy
  split
  · rename_i none
    rw [List.isEmpty_iff.1 none]
    rfl
  · rfl

/-- The copied text is that of the copied lines, trimmed. -/
theorem kept_eq (notes : Notes) : notes.kept = trim (joinWith ['\n'] notes.copiedLines) := by
  cases notes with
  | text content =>
    have plain : ∀ line ∈ (lines content).filter fun line => !isSlideNumber line, IsLine line :=
      fun line member => isLine_of_mem_lines (List.mem_filter.1 member).1
    rw [kept, spoken, copiedLines, Notes.content, ← List.filter_filter]
    rcases lines_joinWith plain with same | longer
    · rw [same]
    · conv => rhs; rw [longer]
      rw [List.filter_append, show ([[]] : List (List Char)).filter (fun line => !isDirectiveLine line) = [[]]
        from rfl, trim_joinWith_concat_nil]
  | _ => rfl

theorem isLine_of_mem_copiedLines {notes : Notes} (member : line ∈ notes.copiedLines) : IsLine line :=
  isLine_of_mem_lines (List.mem_filter.1 member).1

/-- Every line without a mark that is no slide number is copied, in order. -/
theorem unmarked_copiedLines (notes : Notes) :
    notes.copiedLines.filter (fun line => (markedTexts line).isEmpty) =
      (lines notes.content).filter fun line => (markedTexts line).isEmpty && !isSlideNumber line := by
  rw [copiedLines, List.filter_filter]
  refine List.filter_congr fun line member => ?_
  cases directive : isDirectiveLine line with
  | false => rfl
  | true =>
    have marked := markedTexts_ne_nil (isLine_of_mem_lines member) directive
    rw [List.isEmpty_eq_false_iff.2 marked]
    rfl

/-- The parser finds in the copied text the marks of the copied lines. -/
theorem markedTexts_kept (notes : Notes) :
    List.Forall₂ SameMark (notes.copiedLines.flatMap markedTexts) (markedTexts notes.kept) := by
  have lineMarks : (notes.copiedLines.flatMap markedTexts).map plainMark =
      (notes.copiedLines.flatMap fun line => (cutAtMarkers line).2).map plainMark := by
    rw [List.map_flatMap, List.map_flatMap]
    refine List.flatMap_congr fun line member => ?_
    rw [plainMark_markedTexts, markers_of_isLine (isLine_of_mem_copiedLines member)]
  have marks := markers_trim_joinWith fun line => @isLine_of_mem_copiedLines line notes
  have same := forall₂_sameMark_iff.1 (marks.imp fun _ _ => SameTrimmed.sameMark)
  rwa [forall₂_sameMark_iff, lineMarks, plainMark_markedTexts, kept_eq]

end Notes

theorem readDirective_unknown {keyword : List Char} (unknown : lower keyword ∉ noteKeywords) (body : List Char) :
    readDirective keyword body = .ok ⟨none, [.unknownDirective (lower keyword)]⟩ := by
  simp only [noteKeywords, List.mem_cons, List.not_mem_nil, or_false, not_or] at unknown
  obtain ⟨first, second, third, fourth⟩ := unknown
  unfold readDirective
  dsimp only
  rw [if_neg first, if_neg second, if_neg third, if_neg fourth]

/-- Where all keywords are unknown there is no directive. -/
theorem readDirectives_unknown {notes : List Char} (unknown : ∀ mark ∈ markedTexts notes, lower mark.1 ∉ noteKeywords)
    (slide : Option Int) : ∃ diagnostics, readDirectives slide notes = .ok ([], diagnostics) := by
  obtain ⟨found, read, none⟩ := exists_mapM fun mark member =>
    show ∃ reading, readDirective mark.1 mark.2 = .ok reading ∧ reading.directive = none from
      ⟨_, readDirective_unknown (unknown mark member) mark.2, rfl⟩
  have empty : found.filterMap (·.directive) = [] := by
    rw [List.filterMap_eq_nil_iff]
    intro reading member
    obtain ⟨_, -, silent⟩ := exists_of_mem_forall₂ none member
    exact silent
  refine ⟨(found.flatMap (·.problems)).map fun problem => ⟨problem, slide⟩, ?_⟩
  unfold readDirectives
  rw [read, ← empty]
  rfl

/-- The notes of a copied slide are its copied lines, trimmed; every line without a mark that is no
slide number is among them, in order. The parser finds in them just the marks of the copied lines,
in order and with the same texts, and therefore no directive when no line that does not start with
one has one further in. -/
theorem copied_notes (slide : Slide) (id : Int) (source : Option Int) :
    (Deck.copyOf slide id).notes.content = trim (joinWith ['\n'] slide.notes.copiedLines) ∧
      slide.notes.copiedLines.filter (fun line => (markedTexts line).isEmpty) =
        (lines slide.notes.content).filter (fun line => (markedTexts line).isEmpty && !isSlideNumber line) ∧
      List.Forall₂ SameMark (slide.notes.copiedLines.flatMap markedTexts)
        (markedTexts (Deck.copyOf slide id).notes.content) ∧
      ((∀ line ∈ slide.notes.copiedLines, ∀ mark ∈ markedTexts line, lower mark.1 ∉ noteKeywords) →
        ∃ diagnostics, readDirectives source (Deck.copyOf slide id).notes.content = .ok ([], diagnostics)) := by
  have copied : (Deck.copyOf slide id).notes.content = slide.notes.kept := slide.notes.content_copy
  rw [copied]
  have marks := slide.notes.markedTexts_kept
  refine ⟨slide.notes.kept_eq, slide.notes.unmarked_copiedLines, marks, fun unknown => ?_⟩
  refine readDirectives_unknown (fun mark member => ?_) source
  obtain ⟨other, among, keyword, -⟩ := exists_of_mem_forall₂ marks member
  obtain ⟨line, here, inside⟩ := List.mem_flatMap.1 among
  rw [← show other.1 = mark.1 from keyword]
  exact unknown line here other inside

/-- Notes with a slide number, a hint, a mark with an unknown keyword, and directives in lines of
their own. -/
def hintSlide : Slide :=
  ⟨256, [], .text " 12 \n#ForEach : Products, max: 2\nHint\n#note: short\n\n #alias: A as B".toList, false⟩

theorem copied_notes_hint :
    (∀ line ∈ hintSlide.notes.copiedLines, ∀ mark ∈ markedTexts line, lower mark.1 ∉ noteKeywords) ∧
      (Deck.copyOf hintSlide 257).notes.content = "Hint\n#note: short".toList ∧
      ∃ diagnostics, readDirectives (some 257) (Deck.copyOf hintSlide 257).notes.content = .ok ([], diagnostics) := by
  have unknown : ∀ line ∈ hintSlide.notes.copiedLines, ∀ mark ∈ markedTexts line, lower mark.1 ∉ noteKeywords := by
    decide +kernel
  obtain ⟨text, -, -, none⟩ := copied_notes hintSlide 257 (some 257)
  exact ⟨unknown, text.trans (by decide +kernel), none unknown⟩

/-- A directive behind another mark of its line is copied, and read from the copy again. -/
theorem directive_copied_with_its_line :
    let copy := (Deck.copyOf ⟨256, [], .text "Hint\n#note: short #foreach: Products".toList, false⟩ 257).notes
    copy.content = "Hint\n#note: short #foreach: Products".toList ∧
      readDirectives none copy.content =
        .ok ([.foreach "Products" 0 0], [⟨.unknownDirective "note".toList, none⟩]) := by
  intro copy
  have whole : copy.content = "Hint\n#note: short #foreach: Products".toList := by decide +kernel
  rw [whole]
  exact ⟨rfl, by decide +kernel⟩

end DeckBinding
