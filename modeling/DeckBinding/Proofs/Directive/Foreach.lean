import DeckBinding.Proofs.Directive.Markers
import DeckBinding.Proofs.Expression.PathText

set_option autoImplicit false

namespace DeckBinding

open DeckBinding.Number DeckBinding.Text

def foreachNotes (path : Path) (max offset : Nat) : List Char :=
  s!"#foreach: {path.text}, max: {max}, offset: {offset}".toList

def optionText (key : ForeachKey) (number : Nat) : List Char :=
  ' ' :: (key.name.toList ++ ':' :: ' ' :: Nat.toDigits 10 number)

def foreachBody (path : Path) (max offset : Nat) : List Char :=
  path.text.toList ++ ',' :: (optionText .max max ++ ',' :: optionText .offset offset)

theorem foreachNotes_eq (path : Path) (max offset : Nat) :
    foreachNotes path max offset = "#foreach: ".toList ++ foreachBody path max offset := by
  have first : ", max: ".toList = ',' :: ' ' :: (ForeachKey.max.name.toList ++ [':', ' ']) := rfl
  have second : ", offset: ".toList =
      ',' :: ' ' :: (ForeachKey.offset.name.toList ++ [':', ' ']) := rfl
  simp only [foreachNotes, foreachBody, optionText, toString, String.toList_append, Nat.toList_repr,
    first, second, List.append_assoc, List.cons_append, List.nil_append]

/-- A character of the notes behind the marker: of a path, a comma, a colon, a space or a letter. -/
def isNoteChar (c : Char) : Bool :=
  isPathChar c || c == ',' || c == ':' || c == ' '

theorem isNoteChar_of_isPathChar {c : Char} (char : isPathChar c = true) : isNoteChar c = true := by
  rw [isNoteChar, char]
  rfl

theorem isNoteChar_of_isWord {c : Char} (word : isWord c = true) : isNoteChar c = true := by
  apply isNoteChar_of_isPathChar
  apply isPathChar_of_isSegmentChar
  rw [isSegmentChar, word]
  rfl

theorem isNoteChar_of_mem_optionText {key : ForeachKey} {number : Nat} :
    ∀ c ∈ optionText key number, isNoteChar c = true := by
  have name : key.name.toList.all isNoteChar = true := by cases key <;> decide
  intro c member
  simp only [optionText, List.mem_cons, List.mem_append] at member
  rcases member with rfl | (inName | (rfl | (rfl | digit)))
  · decide
  · exact List.all_eq_true.1 name c inName
  · decide
  · decide
  · exact isNoteChar_of_isWord (isWord_of_isDigit (isDigit_of_mem_numeral digit))

theorem isNoteChar_of_mem {path : Path} (wellFormed : path.WellFormed) {max offset : Nat} :
    ∀ c ∈ foreachBody path max offset, isNoteChar c = true := by
  intro c member
  simp only [foreachBody, List.mem_append, List.mem_cons] at member
  rcases member with inPath | (rfl | (inMax | (rfl | inOffset)))
  · exact isNoteChar_of_isPathChar (Path.isPathChar_of_mem wellFormed c inPath)
  · decide
  · exact isNoteChar_of_mem_optionText c inMax
  · decide
  · exact isNoteChar_of_mem_optionText c inOffset

theorem not_mem_foreachBody {path : Path} (wellFormed : path.WellFormed) {max offset : Nat}
    {c : Char} (other : isNoteChar c = false) : c ∉ foreachBody path max offset := by
  intro member
  rw [isNoteChar_of_mem wellFormed c member] at other
  cases other

theorem isLineEnd_of_isNoteChar {c : Char} (char : isNoteChar c = true) : isLineEnd c = false := by
  simp only [isNoteChar, Bool.or_eq_true, beq_iff_eq] at char
  rcases char with ((inPath | rfl) | rfl) | rfl
  · have full := isBlank_of_isPathChar inPath
    cases ends : isLineEnd c with
    | false => rfl
    | true =>
      rw [isBlank_of_isLineEnd ends] at full
      cases full
  · decide
  · decide
  · decide

theorem markedTexts_foreachNotes {path : Path} (wellFormed : path.WellFormed) (max offset : Nat) :
    markedTexts (foreachNotes path max offset) =
      [("foreach".toList, ' ' :: foreachBody path max offset)] := by
  have noDollar : '$' ∉ foreachNotes path max offset := by
    rw [foreachNotes_eq, List.mem_append]
    rintro (label | body)
    · exact absurd label (by decide)
    · exact not_mem_foreachBody wellFormed (by decide) body
  have keyword : isKeyword "foreach".toList = true := by decide
  have noMarker : '#' ∉ ' ' :: foreachBody path max offset := by
    rw [List.mem_cons]
    rintro (same | body)
    · exact absurd same (by decide)
    · exact not_mem_foreachBody wellFormed (by decide) body
  have oneLine : ∀ c ∈ ' ' :: foreachBody path max offset, isLineEnd c = false := by
    rw [List.forall_mem_cons]
    exact ⟨by decide, fun c member => isLineEnd_of_isNoteChar (isNoteChar_of_mem wellFormed c member)⟩
  have body := textToMarker_append oneLine noMarker []
  have behind := markers_append noMarker []
  rw [List.append_nil] at body behind
  unfold markedTexts
  rw [withPlainQuotes_of_not_mem noDollar, foreachNotes_eq]
  refine (markers_keyword keyword (' ' :: foreachBody path max offset)).trans ?_
  rw [body, behind, textToMarker_nil, List.append_nil]
  rfl

theorem not_mem_optionText {key : ForeachKey} {number : Nat} : ',' ∉ optionText key number := by
  have name : ',' ∉ key.name.toList := by cases key <;> decide
  simp only [optionText, List.mem_cons, List.mem_append, not_or]
  refine ⟨by decide, name, by decide, by decide, ?_⟩
  intro digit
  exact absurd (isDigit_of_mem_numeral digit) (by decide)

theorem cutAtColon_name (key : ForeachKey) (rest : List Char) :
    cutAtColon (key.name.toList ++ ':' :: rest) = (key.name.toList, some rest) := by
  cases key <;> rfl

theorem readOption_optionText {key : ForeachKey} {number : Nat} (bound : number < writeBound) :
    readOption (trim (optionText key number)) = .ok (key, number) := by
  have full : ∀ c ∈ Nat.toDigits 10 number, isBlank c = false :=
    fun c member => isBlank_of_isWord (isWord_of_isDigit (isDigit_of_mem_numeral member))
  have digits : trim (' ' :: Nat.toDigits 10 number) = Nat.toDigits 10 number := by
    rw [trim_cons_of_blank (by decide), trim_of_full full]
  have start (rest : List Char) : trimLeft (key.name.toList ++ rest) = key.name.toList ++ rest := by
    cases key <;> exact trimLeft_of_head (by decide)
  have whole : trim (optionText key number) =
      key.name.toList ++ ':' :: ' ' :: Nat.toDigits 10 number := by
    obtain ⟨front, last, same, digit⟩ := exists_numeral_concat number
    have shape : key.name.toList ++ ':' :: ' ' :: (front ++ [last]) =
        (key.name.toList ++ ':' :: ' ' :: front) ++ [last] := by simp
    rw [optionText, trim_cons_of_blank (by decide), same, shape]
    refine trim_of_ends (isBlank_of_isWord (isWord_of_isDigit digit)) ?_
    rw [← shape]
    exact start _
  have name : ForeachKey.ofName? (lower (trim key.name.toList)) = some key := by
    cases key <;> decide +kernel
  unfold readOption
  rw [whole, cutAtColon_name]
  simp only [name, digits, readInteger_numeral bound]
  rw [if_neg (by omega), Int.toNat_natCast]

theorem readForeach_body {path : Path} (wellFormed : path.WellFormed) {max offset : Nat}
    (maxBound : max < writeBound) (offsetBound : offset < writeBound) :
    readForeach (foreachBody path max offset) = .ok ⟨some (.foreach path.text max offset), []⟩ := by
  have cut : cutAt ',' (foreachBody path max offset) =
      (path.text.toList, [optionText .max max, optionText .offset offset]) := by
    rw [foreachBody, cutAt_append (not_mem_text wellFormed (by decide)), splitAt,
      cutAt_append not_mem_optionText, splitAt_of_not_mem not_mem_optionText]
  have full : trim path.text.toList = path.text.toList :=
    trim_of_full fun c member => isBlank_of_isPathChar (Path.isPathChar_of_mem wellFormed c member)
  unfold readForeach readCollection
  rw [cut]
  dsimp only
  rw [full, Path.read_text wellFormed]
  simp only [List.map_cons, List.map_nil, readOption_optionText maxBound,
    readOption_optionText offsetBound]
  rfl

/-- A text between a path and a character that is no blank is trimmed. -/
theorem trim_text_append {path : Path} (wellFormed : path.WellFormed) (middle : List Char) {last : Char}
    (full : isBlank last = false) :
    trim (path.text.toList ++ (middle ++ [last])) = path.text.toList ++ (middle ++ [last]) := by
  obtain ⟨c, rest, start⟩ := List.exists_cons_of_ne_nil (Path.toList_text_ne_nil wellFormed)
  have first : isBlank c = false := by
    apply isBlank_of_isPathChar
    apply Path.isPathChar_of_mem wellFormed
    rw [start]
    exact List.mem_cons_self
  rw [← List.append_assoc]
  apply trim_of_ends full
  rw [start]
  exact trimLeft_of_head first

theorem trim_foreachBody {path : Path} (wellFormed : path.WellFormed) (max offset : Nat) :
    trim (foreachBody path max offset) = foreachBody path max offset := by
  obtain ⟨front, last, same, digit⟩ := exists_numeral_concat offset
  have shape : foreachBody path max offset = path.text.toList ++ (',' :: (optionText .max max ++
      ',' :: ' ' :: (ForeachKey.offset.name.toList ++ ':' :: ' ' :: front)) ++ [last]) := by
    rw [foreachBody, optionText, optionText, same]
    simp
  rw [shape]
  exact trim_text_append wellFormed _ (isBlank_of_isWord (isWord_of_isDigit digit))

theorem readDirectives_nil (slide : Option Int) : readDirectives slide [] = .ok ([], []) := by
  have blank : markedTexts [] = [] := by
    rw [markedTexts, withPlainQuotes_of_not_mem List.not_mem_nil]
    rfl
  unfold readDirectives
  rw [blank]
  rfl

/-- Notes with one `#foreach` are read as it, and nothing in them is refused. -/
theorem readDirectives_foreachNotes {path : Path} (wellFormed : path.WellFormed) {max offset : Nat}
    (maxBound : max < writeBound) (offsetBound : offset < writeBound) (slide : Option Int) :
    readDirectives slide (foreachNotes path max offset) =
      .ok ([.foreach path.text max offset], []) := by
  have keyword : lower "foreach".toList = "foreach".toList := by decide +kernel
  have directive : readDirective "foreach".toList (' ' :: foreachBody path max offset) =
      .ok ⟨some (.foreach path.text max offset), []⟩ := by
    unfold readDirective
    rw [keyword, trim_cons_of_blank (by decide), trim_foreachBody wellFormed]
    dsimp only
    rw [if_pos rfl, readForeach_body wellFormed maxBound offsetBound]
  unfold readDirectives
  rw [markedTexts_foreachNotes wellFormed]
  simp only [List.mapM_cons, List.mapM_nil, directive]
  rfl

end DeckBinding
