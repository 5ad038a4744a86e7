import DeckBinding.Proofs.Path.Indices

set_option autoImplicit false

namespace DeckBinding

open DeckBinding.Number DeckBinding.Text

/-- The number that decimal digits of any script write. -/
def numberOf (digits : List Char) : Nat :=
  ofDigitValues (digits.filterMap digitValue?)

/-- A text spells a segment: a name and what gives its index, with blanks in front of the name. -/
inductive Segment.SpelledBy : Segment → List Char → Prop
  | intro {blanks behind : List Char} {name : String} {digits : Option (List Char)}
      (blank : Blanks blanks) (valid : isName name = true) (index : Bracketed digits behind) :
      SpelledBy ⟨name, digits.map numberOf⟩ (blanks ++ (name.toList ++ behind))

/-- A text spells further segments, each behind its join. -/
inductive Path.RestSpelledBy : List (Join × Segment) → List Char → Prop
  | nil : RestSpelledBy [] []
  | cons {join : Join} {segment : Segment} {rest : List (Join × Segment)} {token more : List Char}
      (here : segment.SpelledBy token) (behind : RestSpelledBy rest more) :
      RestSpelledBy ((join, segment) :: rest) (join.symbol :: (token ++ more))

/-- A text spells a path: its first segment, and the further ones behind their joins. -/
inductive Path.SpelledBy : Path → List Char → Prop
  | intro {first : Segment} {rest : List (Join × Segment)} {token more : List Char}
      (here : first.SpelledBy token) (behind : RestSpelledBy rest more) :
      SpelledBy ⟨first, rest⟩ (token ++ more)

/-- Every index of a text, that is every run of digits behind an opening bracket, is short enough to
be converted. -/
def ShortIndices (text : List Char) : Prop :=
  ∀ blanks digits, '[' :: (blanks ++ digits) <:+: text → Blanks blanks →
    (∀ c ∈ digits, isDecimalDigit c = true) → digits.length ≤ digitLimit

variable {text : List Char}

theorem readDigits_of_length {digits : List Char} (short : digits.length ≤ digitLimit) :
    readDigits digits = .ok (numberOf digits) :=
  if_pos short

theorem ShortIndices.below (short : ShortIndices text) : IndicesBelow writeBound text := by
  intro blanks digits inside blank decimal
  have read := readDigits_of_length (short blanks digits inside blank decimal)
  exact ⟨_, lt_writeBound_of_readDigits read, read⟩

theorem ShortIndices.of_infix {part : List Char} (short : ShortIndices text) (inside : part <:+: text) :
    ShortIndices part :=
  fun blanks digits here => short blanks digits (here.trans inside)

theorem numberOf_of_readDigits {digits : List Char} {number : Nat} (read : readDigits digits = .ok number) :
    number = numberOf digits := by
  unfold readDigits at read
  split at read
  · cases read
    rfl
  · cases read

/-- A segment that is read is spelled by its token. -/
theorem spelledBy_of_readSegment {path token : List Char} {segment : Segment}
    (read : readSegment path token = .ok segment) : segment.SpelledBy token := by
  have spelled {name : List Char} {digits : Option (List Char)}
      (found : splitSegment? token = some (name, digits)) :
      Segment.SpelledBy ⟨String.ofList name, digits.map numberOf⟩ token := by
    obtain ⟨blanks, behind, blank, named, index, rfl⟩ := splitSegment?_eq_some_iff.1 found
    have whole := Segment.SpelledBy.intro blank named index
    rwa [String.toList_ofList] at whole
  unfold readSegment at read
  split at read
  · cases read
  · rename_i found
    cases read
    exact spelled found
  · rename_i found
    split at read
    · rename_i number
      cases read
      rw [numberOf_of_readDigits number]
      exact spelled found
    · cases read

def isTokenChar (c : Char) : Bool :=
  isSegmentChar c || isBlank c || isDecimalDigit c

theorem isTokenChar_of_isBlank {c : Char} (blank : isBlank c = true) : isTokenChar c = true := by
  rw [isTokenChar, blank, Bool.or_true]
  rfl

theorem ofChar?_of_isTokenChar {c : Char} (char : isTokenChar c = true) : Join.ofChar? c = none := by
  unfold Join.ofChar?
  rw [if_neg, if_neg]
  · rintro rfl
    exact absurd char (by decide)
  · rintro rfl
    exact absurd char (by decide)

theorem Bracketed.isTokenChar {digits : Option (List Char)} {behind : List Char}
    (index : Bracketed digits behind) : ∀ c ∈ behind, isTokenChar c = true := by
  intro c member
  cases index with
  | none blank => exact isTokenChar_of_isBlank (blank c member)
  | some ahead opened filled decimal closing ends =>
    simp only [List.mem_append, List.mem_cons] at member
    rcases member with before | rfl | inside | digit | between | rfl | after
    · exact isTokenChar_of_isBlank (ahead c before)
    · decide
    · exact isTokenChar_of_isBlank (opened c inside)
    · rw [DeckBinding.isTokenChar, decimal c digit, Bool.or_true]
    · exact isTokenChar_of_isBlank (closing c between)
    · decide
    · exact isTokenChar_of_isBlank (ends c after)

namespace Segment.SpelledBy

variable {segment : Segment} {token : List Char}

theorem readSegment (spelled : segment.SpelledBy token) (short : ShortIndices token) (path : List Char) :
    readSegment path token = .ok segment := by
  obtain ⟨blank, valid, index⟩ := spelled
  rename_i blanks behind name digits
  have found : splitSegment? (blanks ++ (name.toList ++ behind)) = some (name.toList, digits) :=
    splitSegment?_eq_some_iff.2 ⟨_, _, blank, by rwa [String.ofList_toList], index, rfl⟩
  unfold DeckBinding.readSegment
  rw [found]
  cases index with
  | none => simp
  | @some before inside digits between after _ opened _ decimal =>
    have fits := short inside digits ⟨blanks ++ name.toList ++ before, between ++ ']' :: after, by simp⟩
      opened decimal
    dsimp only
    rw [readDigits_of_length fits, String.ofList_toList]
    rfl

theorem chars (spelled : segment.SpelledBy token) : ∀ c ∈ token, isTokenChar c = true := by
  intro c member
  obtain ⟨blank, valid, index⟩ := spelled
  rcases List.mem_append.1 member with ahead | rest
  · exact isTokenChar_of_isBlank (blank c ahead)
  · rcases List.mem_append.1 rest with word | behind
    · rw [isTokenChar, isSegmentChar, isWord_of_isName valid c word]
      rfl
    · exact index.isTokenChar c behind

/-- No join stands in the token of a segment. -/
theorem plain (spelled : segment.SpelledBy token) : ∀ c ∈ token, Join.ofChar? c = none :=
  fun c member => ofChar?_of_isTokenChar (spelled.chars c member)

/-- Blanks behind a token leave it a spelling of its segment. -/
theorem append {right : List Char} (spelled : segment.SpelledBy token) (blank : Blanks right) :
    segment.SpelledBy (token ++ right) := by
  obtain ⟨ahead, valid, index⟩ := spelled
  rw [List.append_assoc, List.append_assoc]
  refine .intro ahead valid ?_
  cases index with
  | none spaces => exact .none (blanks_append.2 ⟨spaces, blank⟩)
  | some before opened filled decimal closing ends =>
    simp only [List.append_assoc, List.cons_append]
    exact .some before opened filled decimal closing (blanks_append.2 ⟨ends, blank⟩)

/-- Trimming a text at its end takes blanks off its last token, which spells its segment without
them. -/
theorem exists_trimRight (spelled : segment.SpelledBy token) (front : List Char) :
    ∃ core, trimRight (front ++ token) = front ++ core ∧ segment.SpelledBy core := by
  obtain ⟨ahead, valid, index⟩ := spelled
  rename_i blanks behind name digits
  cases index with
  | none spaces =>
    refine ⟨_, ?_, .intro ahead valid (.none blanks_nil)⟩
    obtain ⟨start, last, same, full⟩ := exists_concat_of_isName valid
    have cut := trimRight_blanks full spaces (front ++ (blanks ++ start))
    rw [same]
    simpa only [List.append_assoc, List.cons_append, List.nil_append, List.append_nil] using cut
  | @some before inside digits between after leading opened filled decimal closing ends =>
    refine ⟨_, ?_, .intro ahead valid (.some leading opened filled decimal closing blanks_nil)⟩
    have bracket : isBlank ']' = false := by decide
    have cut := trimRight_blanks bracket ends
      (front ++ (blanks ++ (name.toList ++ (before ++ '[' :: (inside ++ (digits ++ between))))))
    simpa only [List.append_assoc, List.cons_append] using cut

end Segment.SpelledBy

theorem symbol_of_ofChar? {c : Char} {join : Join} (found : Join.ofChar? c = some join) :
    join.symbol = c := by
  unfold Join.ofChar? at found
  split at found
  · rename_i point
    cases found
    exact point.symm
  · split at found
    · rename_i context
      cases found
      exact context.symm
    · cases found

/-- A text is made up of the tokens between its joins, and the joins. -/
theorem append_cutAtJoins (cs : List Char) :
    (cutAtJoins cs).1 ++ (cutAtJoins cs).2.flatMap (fun entry => entry.1.symbol :: entry.2) = cs := by
  induction cs with
  | nil => rfl
  | cons c rest ih =>
    unfold cutAtJoins
    dsimp only
    cases found : Join.ofChar? c with
    | none => exact congrArg (c :: ·) ih
    | some join =>
      rw [List.nil_append, List.flatMap_cons, symbol_of_ofChar? found, List.cons_append]
      exact congrArg (c :: ·) ih

namespace Path

variable {segment : Segment} {rest : List (Join × Segment)} {path : Path} {token more : List Char}

theorem restSpelledBy_of_readSegments {tokens : List (Join × List Char)}
    (read : readSegments text tokens = .ok rest) :
    RestSpelledBy rest (tokens.flatMap fun entry => entry.1.symbol :: entry.2) := by
  induction tokens generalizing rest with
  | nil =>
    cases read
    exact .nil
  | cons entry tokens ih =>
    obtain ⟨join, token⟩ := entry
    unfold readSegments at read
    obtain ⟨segment, here, further⟩ := exists_of_bind_eq_ok read
    obtain ⟨others, behind, last⟩ := exists_of_bind_eq_ok further
    cases last
    exact .cons (spelledBy_of_readSegment here) (ih behind)

namespace RestSpelledBy

/-- Further segments are cut apart at their joins and read. -/
theorem exists_tokens (spelled : RestSpelledBy rest more) (short : ShortIndices more) (text : List Char) :
    ∃ tokens, cutAtJoins more = ([], tokens) ∧ readSegments text tokens = .ok rest := by
  induction spelled with
  | nil => exact ⟨[], rfl, rfl⟩
  | @cons join segment rest token more here behind ih =>
    obtain ⟨tokens, cut, read⟩ := ih (short.of_infix ⟨join.symbol :: token, [], by simp⟩)
    have front := here.readSegment (short.of_infix ⟨[join.symbol], more, by simp⟩) text
    refine ⟨(join, token) :: tokens, ?_, ?_⟩
    · rw [cutAtJoins_symbol, cutAtJoins_append here.plain, cut, List.append_nil]
    · rw [readSegments, front, read]
      rfl

theorem append {right : List Char} (spelled : RestSpelledBy rest more) (here : segment.SpelledBy token)
    (blank : Blanks right) : ∃ token' more', segment.SpelledBy token' ∧ RestSpelledBy rest more' ∧
      token ++ more ++ right = token' ++ more' := by
  induction spelled generalizing segment token with
  | nil => exact ⟨token ++ right, [], here.append blank, .nil, by simp⟩
  | @cons join other rest next more behind _ ih =>
    obtain ⟨token', more', last, further, same⟩ := ih behind
    refine ⟨token, _, here, .cons last further, ?_⟩
    rw [← same]
    simp

/-- Trimming a text at its end takes blanks off the last token only. -/
theorem exists_trimRight (spelled : RestSpelledBy rest more) (here : segment.SpelledBy token)
    (front : List Char) : ∃ token' more', segment.SpelledBy token' ∧ RestSpelledBy rest more' ∧
      trimRight (front ++ (token ++ more)) = front ++ (token' ++ more') := by
  induction spelled generalizing segment token front with
  | nil =>
    obtain ⟨core, cut, kept⟩ := here.exists_trimRight front
    exact ⟨core, [], kept, .nil, by simpa using cut⟩
  | @cons join other rest next more behind _ ih =>
    obtain ⟨token', more', last, further, cut⟩ := ih behind (front ++ (token ++ [join.symbol]))
    refine ⟨token, _, here, .cons last further, ?_⟩
    simpa using cut

end RestSpelledBy

namespace SpelledBy

theorem trimLeft (spelled : path.SpelledBy text) : path.SpelledBy (trimLeft text) := by
  obtain ⟨⟨blank, valid, index⟩, behind⟩ := spelled
  rename_i more blanks tail name digits
  obtain ⟨c, others, same, start, _⟩ := toList_of_isName valid
  have cut : Text.trimLeft (blanks ++ (name.toList ++ tail) ++ more) = [] ++ (name.toList ++ tail) ++ more := by
    rw [List.append_assoc, trimLeft_append blank, same]
    exact trimLeft_of_head (isBlank_of_isWord (isWord_of_isNameStart start))
  rw [cut]
  exact .intro (.intro blanks_nil valid index) behind

theorem trimRight (spelled : path.SpelledBy text) : path.SpelledBy (trimRight text) := by
  obtain ⟨here, behind⟩ := spelled
  obtain ⟨token, more, first, rest, cut⟩ := behind.exists_trimRight here []
  rw [List.nil_append, List.nil_append] at cut
  rw [cut]
  exact .intro first rest

/-- Blanks around a text do not count. -/
theorem pad {left right : List Char} (spelled : path.SpelledBy text) (front : Blanks left)
    (back : Blanks right) : path.SpelledBy (left ++ (text ++ right)) := by
  obtain ⟨⟨blank, valid, index⟩, behind⟩ := spelled
  obtain ⟨token, more, here, rest, same⟩ :=
    behind.append (.intro (blanks_append.2 ⟨front, blank⟩) valid index) back
  simp only [List.append_assoc] at same ⊢
  rw [same]
  exact .intro here rest

theorem trim_iff : path.SpelledBy (trim text) ↔ path.SpelledBy text := by
  constructor
  · intro spelled
    obtain ⟨left, right, front, back, same⟩ := exists_append_trim text
    rw [same]
    exact spelled.pad front back
  · exact fun spelled => spelled.trimLeft.trimRight

theorem ne_nil (spelled : path.SpelledBy text) : text ≠ [] := by
  obtain ⟨⟨_, valid, _⟩, _⟩ := spelled
  obtain ⟨c, rest, same, _⟩ := toList_of_isName valid
  simp [same]

end SpelledBy

/-- A text that is read spells the path. -/
theorem spelledBy_of_read (read : Path.read text = .ok path) : path.SpelledBy text := by
  unfold Path.read at read
  split at read
  · cases read
  · obtain ⟨first, front, further⟩ := exists_of_bind_eq_ok read
    obtain ⟨rest, behind, last⟩ := exists_of_bind_eq_ok further
    cases last
    rw [← SpelledBy.trim_iff, ← append_cutAtJoins (trim text)]
    exact .intro (spelledBy_of_readSegment front) (restSpelledBy_of_readSegments behind)

def isSpelledChar (c : Char) : Bool :=
  isTokenChar c || (Join.ofChar? c).isSome

theorem RestSpelledBy.chars (spelled : RestSpelledBy rest more) : ∀ c ∈ more, isSpelledChar c = true := by
  induction spelled with
  | nil => exact fun c member => nomatch member
  | @cons join segment rest token more here behind ih =>
    intro c member
    rcases List.mem_cons.1 member with rfl | later
    · cases join <;> decide
    · rcases List.mem_append.1 later with inside | after
      · rw [isSpelledChar, here.chars c inside, Bool.true_or]
      · exact ih c after

/-- A text that is read holds names, digits, brackets, blanks and joins alone. -/
theorem isSpelledChar_of_read (read : Path.read text = .ok path) : ∀ c ∈ text, isSpelledChar c = true := by
  obtain ⟨here, behind⟩ := spelledBy_of_read read
  intro c member
  rcases List.mem_append.1 member with inside | after
  · rw [isSpelledChar, here.chars c inside, Bool.true_or]
  · exact behind.chars c after

/-- A text without long indices is read as the path it spells. -/
theorem SpelledBy.read (spelled : path.SpelledBy text) (short : ShortIndices text) :
    Path.read text = .ok path := by
  have trimmed := SpelledBy.trim_iff.2 spelled
  have filled := List.isEmpty_eq_false_iff.2 trimmed.ne_nil
  have fits := short.of_infix (infix_trim text)
  generalize whole : trim text = core at trimmed filled fits
  obtain ⟨here, behind⟩ := trimmed
  rename_i token more
  obtain ⟨tokens, cut, read⟩ := behind.exists_tokens (fits.of_infix ⟨token, [], by simp⟩) text
  have front := here.readSegment (fits.of_infix ⟨[], more, by simp⟩) text
  unfold Path.read
  rw [whole, filled, if_neg Bool.false_ne_true, cutAtJoins_append here.plain, cut, List.append_nil]
  dsimp only
  rw [front, read]
  rfl

end Path

/-- A text with the digits behind each of its brackets written as the plain numeral of their
number. -/
def withPlainIndices : List Char → List Char
  | [] => []
  | c :: rest =>
    if c = '[' then
      c :: (Nat.toDigits 10 (numberOf (rest.takeWhile isDecimalDigit)) ++
        withPlainIndices (rest.dropWhile isDecimalDigit))
    else c :: withPlainIndices rest
termination_by cs => cs.length
decreasing_by
  · exact Nat.lt_succ_of_le (List.length_dropWhile_le isDecimalDigit rest)
  · exact Nat.lt_succ_self _

def withoutBlanks (cs : List Char) : List Char :=
  cs.filter fun c => !isBlank c

theorem withPlainIndices_append {front : List Char} (plain : '[' ∉ front) (back : List Char) :
    withPlainIndices (front ++ back) = front ++ withPlainIndices back := by
  induction front with
  | nil => rfl
  | cons c front ih =>
    obtain ⟨apart, further⟩ := not_or.1 (List.mem_cons.not.1 plain)
    rw [List.cons_append, withPlainIndices, if_neg (Ne.symm apart), ih further, List.cons_append]

theorem withPlainIndices_bracket {digits : List Char} (decimal : ∀ c ∈ digits, isDecimalDigit c = true)
    (back : List Char) : withPlainIndices ('[' :: (digits ++ ']' :: back)) =
      '[' :: (Nat.toDigits 10 (numberOf digits) ++ ']' :: withPlainIndices back) := by
  have closed : ∀ c ∈ (']' :: back).head?, isDecimalDigit c = false := by
    rintro c ⟨⟩
    decide
  rw [withPlainIndices, if_pos rfl, takeWhile_of_head decimal closed, dropWhile_of_head decimal closed,
    withPlainIndices, if_neg (by decide)]

theorem withoutBlanks_append (front back : List Char) :
    withoutBlanks (front ++ back) = withoutBlanks front ++ withoutBlanks back :=
  List.filter_append _ _

theorem withoutBlanks_of_blanks {cs : List Char} (blank : Blanks cs) : withoutBlanks cs = [] := by
  simpa [withoutBlanks, Blanks] using blank

theorem withoutBlanks_of_full {cs : List Char} (full : ∀ c ∈ cs, isBlank c = false) :
    withoutBlanks cs = cs := by
  simpa [withoutBlanks] using full

theorem withoutBlanks_cons {c : Char} (full : isBlank c = false) (cs : List Char) :
    withoutBlanks (c :: cs) = c :: withoutBlanks cs := by
  simp [withoutBlanks, full]

/-- Without its blanks, what stands behind a name is nothing or the digits in brackets. -/
theorem withoutBlanks_bracketed {digits : Option (List Char)} {behind : List Char}
    (index : Bracketed digits behind) : withoutBlanks behind =
      match digits with
      | none => []
      | some digits => '[' :: (digits ++ [']']) := by
  cases index with
  | none blank => exact withoutBlanks_of_blanks blank
  | some ahead opened filled decimal closing ends =>
    have number := withoutBlanks_of_full fun c member => isBlank_of_isDecimalDigit (decimal c member)
    simp only [withoutBlanks_append, withoutBlanks_of_blanks, withoutBlanks_cons (c := '[') (by decide),
      withoutBlanks_cons (c := ']') (by decide), number, ahead, opened, closing, ends, List.nil_append]

/-- The plain text of a token is the text of its segment. -/
theorem Segment.SpelledBy.plainText {segment : Segment} {token : List Char}
    (spelled : segment.SpelledBy token) (back : List Char) :
    withPlainIndices (withoutBlanks token ++ back) = segment.text.toList ++ withPlainIndices back := by
  obtain ⟨blank, valid, index⟩ := spelled
  rename_i blanks behind name digits
  have full := withoutBlanks_of_full fun c member => isBlank_of_isWord (isWord_of_isName valid c member)
  have word : '[' ∉ name.toList := fun member => absurd (isWord_of_isName valid _ member) (by decide)
  rw [withoutBlanks_append, withoutBlanks_of_blanks blank, withoutBlanks_append, full, withoutBlanks_bracketed index,
    List.nil_append, List.append_assoc, withPlainIndices_append word, Segment.toList_text, List.append_assoc]
  cases index with
  | none => rfl
  | some _ _ _ decimal =>
    simp only [List.cons_append, List.append_assoc, List.nil_append, withPlainIndices_bracket decimal,
      Option.map_some]

namespace Path

theorem RestSpelledBy.plainText {rest : List (Join × Segment)} {more : List Char}
    (spelled : RestSpelledBy rest more) :
    withPlainIndices (withoutBlanks more) = (restText rest).toList := by
  induction spelled with
  | nil =>
    rw [withoutBlanks_of_blanks blanks_nil, withPlainIndices]
    rfl
  | @cons join segment rest token more here _ ih =>
    have symbol : isBlank join.symbol = false ∧ '[' ∉ [join.symbol] := by cases join <;> decide
    rw [withoutBlanks_cons symbol.1, withoutBlanks_append, ← List.singleton_append,
      withPlainIndices_append symbol.2, here.plainText, ih, toList_restText_cons, List.singleton_append]

/-- The canonical text of a path is a text that spells it without the blanks and with plain
numerals. -/
theorem SpelledBy.plainText {path : Path} (spelled : path.SpelledBy text) :
    path.text.toList = withPlainIndices (withoutBlanks text) := by
  obtain ⟨here, behind⟩ := spelled
  rw [withoutBlanks_append, here.plainText, behind.plainText, text, String.toList_append]

theorem shortIndices_of_length (short : text.length ≤ digitLimit) : ShortIndices text := by
  intro blanks digits inside _ _
  have length := inside.length_le
  simp only [List.length_cons, List.length_append] at length
  omega

/-- A text without long indices is read as a path exactly when it spells the path, and it is
malformed when it spells none. The canonical text of the path is the text without its blanks and
with its indices as plain numerals, and it is read as the same path. -/
theorem read_iff_spelled (text : List Char) (short : ShortIndices text) :
    (∀ path : Path, Path.read text = .ok path ↔ path.SpelledBy text) ∧
      ((∀ path : Path, ¬ path.SpelledBy text) → ∃ error, Path.read text = .error (.malformed error)) ∧
      ∀ path : Path, path.SpelledBy text →
        path.text.toList = withPlainIndices (withoutBlanks text) ∧ Path.read path.text.toList = .ok path := by
  refine ⟨fun path => ⟨spelledBy_of_read, fun spelled => spelled.read short⟩, ?_, ?_⟩
  · intro none
    have readable := readable_path short.below
    cases result : Path.read text with
    | ok path => exact absurd (spelledBy_of_read result) (none path)
    | error failure =>
      rw [result] at readable
      cases failure with
      | malformed error => exact ⟨error, rfl⟩
      | numeral error => exact readable.elim
  · intro path spelled
    exact ⟨spelled.plainText, read_text (wellFormed_of_read (spelled.read short))⟩

/-- An index with a digit of another script, and blanks at every place. -/
theorem read_iff_spelled_blanks :
    ShortIndices " a [ 0٣ ] . b ".toList ∧
      (⟨⟨"a", some 3⟩, [(.member, ⟨"b", none⟩)]⟩ : Path).SpelledBy " a [ 0٣ ] . b ".toList ∧
      withPlainIndices (withoutBlanks " a [ 0٣ ] . b ".toList) = "a[3].b".toList := by
  have short : ShortIndices " a [ 0٣ ] . b ".toList := shortIndices_of_length (by decide)
  obtain ⟨exact, _, canonical⟩ := read_iff_spelled " a [ 0٣ ] . b ".toList short
  have spelled := (exact ⟨⟨"a", some 3⟩, [(.member, ⟨"b", none⟩)]⟩).1 (by decide +kernel)
  exact ⟨short, spelled, (canonical _ spelled).1.symm.trans (by decide)⟩

end Path

end DeckBinding
