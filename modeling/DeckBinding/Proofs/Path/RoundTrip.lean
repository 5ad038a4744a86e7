import DeckBinding.Proofs.Outcome
import DeckBinding.Proofs.Path.Token

set_option autoImplicit false

namespace DeckBinding

open DeckBinding.Number DeckBinding.Text

/-- A segment whose name is one and whose index has a numeral. -/
def Segment.WellFormed (segment : Segment) : Prop :=
  isName segment.name = true ∧ ∀ index, segment.index = some index → index < writeBound

def Path.WellFormed (path : Path) : Prop :=
  path.first.WellFormed ∧ ∀ entry ∈ path.rest, entry.2.WellFormed

theorem Segment.toList_text (segment : Segment) :
    segment.text.toList = segment.name.toList ++
      match segment.index with
      | some index => '[' :: (Nat.toDigits 10 index ++ [']'])
      | none => [] := by
  unfold Segment.text
  cases segment.index with
  | none => simp
  | some index => simp [String.toList_append, Nat.toString_eq_repr, Nat.toList_repr]

def isSegmentChar (c : Char) : Bool :=
  isWord c || c == '[' || c == ']'

theorem isSegmentChar_of_mem {segment : Segment} (valid : isName segment.name = true) :
    ∀ c ∈ segment.text.toList, isSegmentChar c = true := by
  rw [Segment.toList_text]
  intro c member
  unfold isSegmentChar
  rcases List.mem_append.1 member with inName | behind
  · rw [isWord_of_isName valid c inName]
    rfl
  · split at behind
    · rcases List.mem_cons.1 behind with rfl | later
      · decide
      · rcases List.mem_append.1 later with digit | closing
        · rw [isWord_of_isDigit (isDigit_of_mem_numeral digit)]
          rfl
        · rw [List.mem_singleton.1 closing]
          decide
    · cases behind

theorem ne_of_isSegmentChar {c d : Char} (char : isSegmentChar c = true)
    (other : isSegmentChar d = false) : c ≠ d := by
  rintro rfl
  rw [char] at other
  cases other

theorem isBlank_of_isSegmentChar {c : Char} (char : isSegmentChar c = true) : isBlank c = false := by
  simp only [isSegmentChar, Bool.or_eq_true, beq_iff_eq] at char
  rcases char with (word | rfl) | rfl
  · exact isBlank_of_isWord word
  · decide
  · decide

theorem ofChar?_of_isSegmentChar {c : Char} (char : isSegmentChar c = true) :
    Join.ofChar? c = none := by
  have point := ne_of_isSegmentChar char (d := '.') (by decide)
  have arrow := ne_of_isSegmentChar char (d := '>') (by decide)
  rw [Join.ofChar?, if_neg point, if_neg arrow]

theorem splitSegment?_text {segment : Segment} (valid : isName segment.name = true) :
    splitSegment? segment.text.toList =
      some (segment.name.toList, segment.index.map (Nat.toDigits 10)) := by
  obtain ⟨name, index⟩ := segment
  have named : isName (String.ofList name.toList) = true := by rwa [String.ofList_toList]
  refine splitSegment?_eq_some_iff.2 ⟨[], _, blanks_nil, named, ?_, Segment.toList_text _⟩
  cases index with
  | none => exact .none blanks_nil
  | some index =>
    have decimal : ∀ c ∈ Nat.toDigits 10 index, isDecimalDigit c = true :=
      fun c member => isDecimalDigit_of_isDigit (isDigit_of_mem_numeral member)
    exact .some blanks_nil blanks_nil Nat.toDigits_ne_nil decimal blanks_nil blanks_nil

theorem readSegment_text {segment : Segment} (wellFormed : segment.WellFormed) (path : List Char) :
    readSegment path segment.text.toList = .ok segment := by
  obtain ⟨valid, bound⟩ := wellFormed
  unfold readSegment
  rw [splitSegment?_text valid]
  obtain ⟨name, index⟩ := segment
  cases index with
  | none => simp
  | some index =>
    dsimp only [Option.map_some]
    rw [readDigits_numeral (bound index rfl), String.ofList_toList]

theorem cutAtJoins_append {token : List Char} (plain : ∀ c ∈ token, Join.ofChar? c = none)
    (rest : List Char) :
    cutAtJoins (token ++ rest) = (token ++ (cutAtJoins rest).1, (cutAtJoins rest).2) := by
  induction token with
  | nil => rfl
  | cons c token ih =>
    have more := ih fun d member => plain d (List.mem_cons_of_mem c member)
    simp only [List.cons_append, cutAtJoins, more, plain c List.mem_cons_self]

theorem cutAtJoins_symbol (join : Join) (rest : List Char) :
    cutAtJoins (join.symbol :: rest) =
      ([], (join, (cutAtJoins rest).1) :: (cutAtJoins rest).2) := by
  cases join <;> rfl

theorem Path.toList_restText_cons (join : Join) (segment : Segment) (rest : List (Join × Segment)) :
    (restText ((join, segment) :: rest)).toList =
      join.symbol :: (segment.text.toList ++ (restText rest).toList) := by
  simp [restText, String.toList_append]

theorem cutAtJoins_restText {rest : List (Join × Segment)}
    (valid : ∀ entry ∈ rest, isName entry.2.name = true) :
    cutAtJoins (Path.restText rest).toList =
      ([], rest.map fun entry => (entry.1, entry.2.text.toList)) := by
  induction rest with
  | nil => rfl
  | cons entry rest ih =>
    obtain ⟨join, segment⟩ := entry
    have plain : ∀ c ∈ segment.text.toList, Join.ofChar? c = none := fun c member =>
      ofChar?_of_isSegmentChar (isSegmentChar_of_mem (valid _ List.mem_cons_self) c member)
    have more := ih fun entry member => valid entry (List.mem_cons_of_mem _ member)
    rw [Path.toList_restText_cons, cutAtJoins_symbol, cutAtJoins_append plain, more]
    simp

theorem readSegments_texts {rest : List (Join × Segment)}
    (wellFormed : ∀ entry ∈ rest, entry.2.WellFormed) (path : List Char) :
    readSegments path (rest.map fun entry => (entry.1, entry.2.text.toList)) = .ok rest := by
  induction rest with
  | nil => rfl
  | cons entry rest ih =>
    obtain ⟨join, segment⟩ := entry
    have more := ih fun entry member => wellFormed entry (List.mem_cons_of_mem _ member)
    rw [List.map_cons, readSegments, readSegment_text (wellFormed _ List.mem_cons_self), more]
    rfl

def isPathChar (c : Char) : Bool :=
  isSegmentChar c || c == '.' || c == '>'

theorem ne_of_isPathChar {c d : Char} (char : isPathChar c = true) (other : isPathChar d = false) :
    c ≠ d := by
  rintro rfl
  rw [char] at other
  cases other

theorem isPathChar_of_isSegmentChar {c : Char} (char : isSegmentChar c = true) :
    isPathChar c = true := by
  rw [isPathChar, char]
  rfl

theorem isBlank_of_isPathChar {c : Char} (char : isPathChar c = true) : isBlank c = false := by
  simp only [isPathChar, Bool.or_eq_true, beq_iff_eq] at char
  rcases char with (segment | rfl) | rfl
  · exact isBlank_of_isSegmentChar segment
  · decide
  · decide

namespace Path

theorem isPathChar_of_mem_restText {rest : List (Join × Segment)}
    (valid : ∀ entry ∈ rest, isName entry.2.name = true) :
    ∀ c ∈ (restText rest).toList, isPathChar c = true := by
  induction rest with
  | nil => simp [restText]
  | cons entry rest ih =>
    obtain ⟨join, segment⟩ := entry
    intro c member
    rw [toList_restText_cons] at member
    rcases List.mem_cons.1 member with rfl | later
    · cases join <;> decide
    · rcases List.mem_append.1 later with here | behind
      · exact isPathChar_of_isSegmentChar (isSegmentChar_of_mem (valid _ List.mem_cons_self) c here)
      · exact ih (fun entry among => valid entry (List.mem_cons_of_mem _ among)) c behind

theorem isPathChar_of_mem {path : Path} (wellFormed : path.WellFormed) :
    ∀ c ∈ path.text.toList, isPathChar c = true := by
  intro c member
  rw [text, String.toList_append] at member
  rcases List.mem_append.1 member with here | behind
  · exact isPathChar_of_isSegmentChar (isSegmentChar_of_mem wellFormed.1.1 c here)
  · exact isPathChar_of_mem_restText (fun entry among => (wellFormed.2 entry among).1) c behind

theorem toList_text_ne_nil {path : Path} (wellFormed : path.WellFormed) : path.text.toList ≠ [] := by
  obtain ⟨c, tail, same, _⟩ := toList_of_isName wellFormed.1.1
  rw [text, String.toList_append, Segment.toList_text, same]
  simp

/-- The canonical text of a well-formed path is read as the path. -/
theorem read_text {path : Path} (wellFormed : path.WellFormed) :
    Path.read path.text.toList = .ok path := by
  have whole : trim path.text.toList = path.text.toList :=
    trim_of_full fun c member => isBlank_of_isPathChar (isPathChar_of_mem wellFormed c member)
  have filled : path.text.toList.isEmpty = false := by
    rw [List.isEmpty_eq_false_iff]
    exact toList_text_ne_nil wellFormed
  have plain : ∀ c ∈ path.first.text.toList, Join.ofChar? c = none := fun c member =>
    ofChar?_of_isSegmentChar (isSegmentChar_of_mem wellFormed.1.1 c member)
  have cut : cutAtJoins path.text.toList =
      (path.first.text.toList, path.rest.map fun entry => (entry.1, entry.2.text.toList)) := by
    rw [text, String.toList_append, cutAtJoins_append plain,
      cutAtJoins_restText fun entry among => (wellFormed.2 entry among).1, List.append_nil]
  unfold Path.read
  rw [whole, filled, if_neg Bool.false_ne_true, cut]
  dsimp only
  rw [readSegment_text wellFormed.1, readSegments_texts wellFormed.2]
  rfl

end Path

theorem wellFormed_of_readSegment {path token : List Char} {segment : Segment}
    (read : readSegment path token = .ok segment) : segment.WellFormed := by
  have named {name : List Char} {digits : Option (List Char)}
      (split : splitSegment? token = some (name, digits)) : isName (String.ofList name) = true := by
    obtain ⟨_, _, _, named, _⟩ := splitSegment?_eq_some_iff.1 split
    exact named
  unfold readSegment at read
  split at read
  · cases read
  · rename_i split
    cases read
    exact ⟨named split, by simp⟩
  · rename_i split
    split at read
    · rename_i index number
      cases read
      refine ⟨named split, ?_⟩
      intro other same
      cases same
      exact lt_writeBound_of_readDigits number
    · cases read

theorem wellFormed_of_readSegments {path : List Char} {tokens : List (Join × List Char)}
    {segments : List (Join × Segment)} (read : readSegments path tokens = .ok segments) :
    ∀ entry ∈ segments, entry.2.WellFormed := by
  induction tokens generalizing segments with
  | nil =>
    cases read
    exact fun entry member => absurd member List.not_mem_nil
  | cons entry rest ih =>
    obtain ⟨join, token⟩ := entry
    unfold readSegments at read
    obtain ⟨segment, first, further⟩ := exists_of_bind_eq_ok read
    obtain ⟨others, more, last⟩ := exists_of_bind_eq_ok further
    cases last
    intro other member
    rcases List.mem_cons.1 member with rfl | later
    · exact wellFormed_of_readSegment first
    · exact ih more other later

/-- A path that is read is well-formed. -/
theorem Path.wellFormed_of_read {text : List Char} {path : Path} (read : Path.read text = .ok path) :
    path.WellFormed := by
  unfold Path.read at read
  split at read
  · cases read
  · obtain ⟨first, front, further⟩ := exists_of_bind_eq_ok read
    obtain ⟨rest, behind, last⟩ := exists_of_bind_eq_ok further
    cases last
    exact ⟨wellFormed_of_readSegment front, wellFormed_of_readSegments behind⟩

theorem readSegment_of_read {path other token : List Char} {segment : Segment}
    (read : readSegment path token = .ok segment) : readSegment other token = .ok segment := by
  unfold readSegment at read ⊢
  split at read
  · cases read
  · exact read
  · split at read
    · exact read
    · cases read

theorem readSegments_of_read {path other : List Char} {tokens : List (Join × List Char)}
    {segments : List (Join × Segment)} (read : readSegments path tokens = .ok segments) :
    readSegments other tokens = .ok segments := by
  induction tokens generalizing segments with
  | nil => exact read
  | cons entry rest ih =>
    obtain ⟨join, token⟩ := entry
    unfold readSegments at read ⊢
    obtain ⟨segment, first, further⟩ := exists_of_bind_eq_ok read
    obtain ⟨others, more, last⟩ := exists_of_bind_eq_ok further
    cases last
    rw [readSegment_of_read first, ih more]
    rfl

/-- Blanks around a path do not count when it is read. -/
theorem Path.read_trim {text : List Char} {path : Path} (read : Path.read text = .ok path) :
    Path.read (trim text) = .ok path := by
  unfold Path.read at read ⊢
  rw [trim_trim]
  split at read
  · cases read
  · rename_i filled
    obtain ⟨first, front, further⟩ := exists_of_bind_eq_ok read
    obtain ⟨rest, behind, last⟩ := exists_of_bind_eq_ok further
    cases last
    rw [if_neg filled]
    dsimp only
    rw [readSegment_of_read front, readSegments_of_read behind]
    rfl

end DeckBinding
