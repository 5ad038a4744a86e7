import DeckBinding.Path.Walk
import DeckBinding.Proofs.Path.RoundTrip

set_option autoImplicit false

namespace DeckBinding

open DeckBinding.Number DeckBinding.Text

/-- Every index of a text, that is every run of digits behind an opening bracket, can be converted
and is less than a bound. -/
def IndicesBelow (bound : Nat) (text : List Char) : Prop :=
  ∀ blanks digits, '[' :: (blanks ++ digits) <:+: text → (∀ c ∈ blanks, isBlank c = true) →
    (∀ c ∈ digits, isDecimalDigit c = true) → ∃ index < bound, readDigits digits = .ok index

/-- A reader gives a value with a property or says what is malformed; converting a numeral does not
fail. -/
def Readable {ε α : Type} (holds : α → Prop) : Except (ReadFailure ε) α → Prop
  | .ok value => holds value
  | .error (.malformed _) => True
  | .error (.numeral _) => False

def Segment.IndexBelow (bound : Nat) (segment : Segment) : Prop :=
  ∀ index, segment.index = some index → index < bound

def Path.IndicesBelow (bound : Nat) (path : Path) : Prop :=
  ∀ segment ∈ path.segments, segment.IndexBelow bound

theorem Readable.bind {ε α β : Type} {holds : α → Prop} {further : β → Prop}
    {first : Except (ReadFailure ε) α} {next : α → Except (ReadFailure ε) β}
    (reads : Readable holds first) (goesOn : ∀ value, holds value → Readable further (next value)) :
    Readable further (first >>= next) := by
  rcases first with failure | value
  · cases failure with
    | malformed error => exact trivial
    | numeral error => exact reads
  · exact goesOn value reads

variable {bound : Nat} {text part : List Char}

theorem IndicesBelow.of_infix (below : IndicesBelow bound text) (inside : part <:+: text) :
    IndicesBelow bound part :=
  fun blanks digits here => below blanks digits (here.trans inside)

theorem IndicesBelow.mono {other : Nat} (below : IndicesBelow bound text) (weaker : bound ≤ other) :
    IndicesBelow other text := by
  intro blanks digits here separates plain
  obtain ⟨index, less, read⟩ := below blanks digits here separates plain
  exact ⟨index, Nat.lt_of_lt_of_le less weaker, read⟩

/-- A short text has room for small indices only. -/
theorem indicesBelow_of_length (short : text.length < digitLimit) :
    IndicesBelow (writeBound - 1) text := by
  intro blanks digits here _ _
  have fits : digits.length < digitLimit := by
    have length := here.length_le
    simp only [List.length_cons, List.length_append] at length
    omega
  refine ⟨_, ?_, if_pos (Nat.le_of_lt fits)⟩
  have small := @foldl_digits_lt (digits.filterMap digitValue?) (fun value member => by
    obtain ⟨c, _, found⟩ := List.mem_filterMap.1 member
    exact digitValue?_lt found) 0
  have length : (digits.filterMap digitValue?).length ≤ digitLimit - 1 :=
    Nat.le_sub_one_of_lt (Nat.lt_of_le_of_lt (List.length_filterMap_le _ _) fits)
  have power := Nat.pow_le_pow_right (n := 10) (by decide) length
  have room : 10 ^ (digitLimit - 1) ≤ writeBound - 1 := by
    have step : writeBound = 10 ^ (digitLimit - 1) * 10 := by
      rw [writeBound_eq, ← Nat.pow_succ, Nat.succ_eq_add_one, Nat.sub_add_cancel (by decide)]
    have positive : 0 < 10 ^ (digitLimit - 1) := Nat.pow_pos (by decide)
    generalize 10 ^ (digitLimit - 1) = power at step positive
    omega
  rw [Nat.zero_add, Nat.one_mul] at small
  exact Nat.lt_of_lt_of_le small (Nat.le_trans power room)

theorem suffix_trimLeft (cs : List Char) : trimLeft cs <:+ cs :=
  List.dropWhile_suffix _

theorem infix_trim (cs : List Char) : trim cs <:+: cs := by
  have ending : trimRight (trimLeft cs) <+: trimLeft cs := by
    unfold trimRight
    rw [← List.reverse_suffix, List.reverse_reverse]
    exact List.dropWhile_suffix _
  exact ending.isInfix.trans (suffix_trimLeft cs).isInfix

theorem suffix_of_takeName? {cs name rest : List Char} (found : takeName? cs = some (name, rest)) :
    rest <:+ cs := by
  cases cs with
  | nil => cases found
  | cons c tail =>
    rw [takeName?] at found
    split at found
    · cases found
      exact (List.dropWhile_suffix _).trans (List.suffix_cons c tail)
    · cases found

/-- The tokens between joins stand in the text. -/
theorem infix_cutAtJoins (cs : List Char) :
    (cutAtJoins cs).1 <+: cs ∧ ∀ entry ∈ (cutAtJoins cs).2, entry.2 <:+: cs := by
  induction cs with
  | nil => exact ⟨List.prefix_rfl, fun _ member => absurd member List.not_mem_nil⟩
  | cons c rest ih =>
    have behind : ∀ entry ∈ (cutAtJoins rest).2, entry.2 <:+: c :: rest :=
      fun entry member => List.infix_cons (ih.2 entry member)
    rw [cutAtJoins]
    cases Join.ofChar? c with
    | none => exact ⟨List.cons_prefix_cons.2 ⟨rfl, ih.1⟩, behind⟩
    | some join =>
      refine ⟨List.nil_prefix, ?_⟩
      intro entry member
      rcases List.mem_cons.1 member with rfl | later
      · exact List.infix_cons ih.1.isInfix
      · exact behind entry later

theorem exists_index_of_splitSegment? {token name digits : List Char} (below : IndicesBelow bound token)
    (found : splitSegment? token = some (name, some digits)) :
    ∃ index < bound, readDigits digits = .ok index := by
  obtain ⟨blanks, behind, _, _, index, rfl⟩ := splitSegment?_eq_some_iff.1 found
  cases index with
  | @some before inside _ between after _ opened _ decimal =>
    exact below inside digits ⟨blanks ++ name ++ before, between ++ ']' :: after, by simp⟩ opened decimal

theorem readable_readSegment {path token : List Char} (below : IndicesBelow bound token) :
    Readable (Segment.IndexBelow bound) (readSegment path token) := by
  unfold readSegment
  cases found : splitSegment? token with
  | none => exact trivial
  | some segment =>
    obtain ⟨name, digits | digits⟩ := segment
    · exact fun _ none => nomatch none
    · obtain ⟨index, less, read⟩ := exists_index_of_splitSegment? below found
      dsimp only
      rw [read]
      rintro other ⟨⟩
      exact less

theorem readable_readSegments {path : List Char} {tokens : List (Join × List Char)}
    (below : ∀ entry ∈ tokens, IndicesBelow bound entry.2) :
    Readable (fun segments => ∀ entry ∈ segments, entry.2.IndexBelow bound)
      (readSegments path tokens) := by
  induction tokens with
  | nil => exact fun _ member => absurd member List.not_mem_nil
  | cons entry rest ih =>
    obtain ⟨join, token⟩ := entry
    have first := @readable_readSegment _ path _ (below _ List.mem_cons_self)
    have others := ih fun entry member => below entry (List.mem_cons_of_mem _ member)
    unfold readSegments
    exact first.bind fun segment here => others.bind fun segments behind =>
      List.forall_mem_cons.2 ⟨here, behind⟩

/-- A text whose indices have numerals is a path with these indices, or breaks the rules of
paths. -/
theorem readable_path (below : IndicesBelow bound text) :
    Readable (Path.IndicesBelow bound) (Path.read text) := by
  have trimmed := below.of_infix (infix_trim text)
  have tokens := infix_cutAtJoins (trim text)
  unfold Path.read
  split
  · exact trivial
  · have first := @readable_readSegment _ text _ (trimmed.of_infix tokens.1.isInfix)
    have others := @readable_readSegments _ text _
      fun entry member => trimmed.of_infix (tokens.2 entry member)
    exact first.bind fun segment here => others.bind fun rest behind =>
      List.forall_mem_cons.2 ⟨here, List.forall_mem_map.2 behind⟩

def Path.indexed (name : String) (index : Nat) : Path :=
  ⟨⟨name, some index⟩, []⟩

theorem text_indexed (name : String) (index : Nat) :
    (Path.indexed name index).text = (⟨name, some index⟩ : Segment).text :=
  String.append_empty

theorem isPathChar_indexed {name : String} (valid : isName name = true) (index : Nat) :
    ∀ c ∈ (Path.indexed name index).text.toList, isPathChar c = true := by
  intro c member
  rw [text_indexed] at member
  exact isPathChar_of_isSegmentChar (isSegmentChar_of_mem valid c member)

/-- A path with an index that is too long to be read is no malformed path: converting the index
fails. -/
theorem read_long_index {name : String} (valid : isName name = true) {index : Nat}
    (long : writeBound ≤ index) : Path.read (Path.indexed name index).text.toList =
      .error (.numeral (.tooLongToRead (Nat.toDigits 10 index).length)) := by
  rw [text_indexed]
  generalize whole : (⟨name, some index⟩ : Segment) = segment
  have named : isName segment.name = true := whole ▸ valid
  have chars : ∀ c ∈ segment.text.toList, isSegmentChar c = true := isSegmentChar_of_mem named
  have cut : cutAtJoins segment.text.toList = (segment.text.toList, []) := by
    have joined := cutAtJoins_append (fun c member => ofChar?_of_isSegmentChar (chars c member)) []
    rwa [List.append_nil, cutAtJoins, List.append_nil] at joined
  have filled : segment.text.toList.isEmpty = false := by
    obtain ⟨c, tail, start, _⟩ := toList_of_isName named
    rw [Segment.toList_text, start]
    rfl
  have digits : readDigits (Nat.toDigits 10 index) =
      .error (.tooLongToRead (Nat.toDigits 10 index).length) := by
    rw [readDigits, if_neg]
    rw [Nat.length_toDigits_le_iff (by decide) (by decide), ← writeBound_eq]
    exact Nat.not_lt.2 long
  unfold Path.read
  rw [trim_of_full fun c member => isBlank_of_isSegmentChar (chars c member), filled, cut]
  dsimp only [Bool.false_eq_true, if_false]
  unfold readSegment
  rw [splitSegment?_text named, ← whole]
  dsimp only [Option.map_some]
  rw [digits]
  rfl

end DeckBinding
