import DeckBinding.Proofs.Expression.Readable
import DeckBinding.Proofs.Path.Spelling
import DeckBinding.Text.Lines

set_option autoImplicit false

namespace DeckBinding

open DeckBinding.Number DeckBinding.Text

/-- A text without commas outside quotes whose quotes are all closed. -/
inductive Sealed : List Char → Prop
  | nil : Sealed []
  | plain {c : Char} {rest : List Char} (bare : isQuote c = false) (apart : c ≠ ',')
      (behind : Sealed rest) : Sealed (c :: rest)
  | quoted {quote : Char} {inner rest : List Char} (mark : isQuote quote = true)
      (outside : quote ∉ inner) (behind : Sealed rest) : Sealed (quote :: (inner ++ quote :: rest))

/-- A text is an argument, blanks around it left out: a path, a string between two of its quotes, or
a text that starts with a string and ends with another one of the same quote, which then counts as
one string. -/
inductive Argument.SpelledBy : Argument → List Char → Prop
  | path {path : Path} {text : List Char} (read : Path.read (trim text) = .ok path) :
      SpelledBy (.path path) text
  | literal {quote : Char} {inner text : List Char} (mark : isQuote quote = true)
      (outside : quote ∉ inner) (whole : trim text = quote :: (inner ++ [quote])) :
      SpelledBy (.literal (String.ofList inner)) text
  | merged {quote : Char} {inner text : List Char} (mark : isQuote quote = true)
      (inside : quote ∈ inner) (whole : trim text = quote :: (inner ++ [quote])) :
      SpelledBy (.literal (String.ofList inner)) text

/-- A text is a list of arguments: nothing but blanks, or arguments with commas between them. -/
inductive ArgumentList : List Argument → List Char → Prop
  | none {text : List Char} (blank : Blanks text) : ArgumentList [] text
  | some {arguments : List Argument} {texts : List (List Char)} (filled : texts ≠ [])
      (closed : ∀ text ∈ texts, Sealed text) (spelled : List.Forall₂ Argument.SpelledBy arguments texts) :
      ArgumentList arguments (joinWith [','] texts)

variable {quote : Char} {text inner rest : List Char}

theorem joinWith_append_head (separator front part : List Char) (more : List (List Char)) :
    joinWith separator ((front ++ part) :: more) = front ++ joinWith separator (part :: more) := by
  cases more with
  | nil => rfl
  | cons next more => simp [joinWith]

theorem cutArguments_inside (outside : quote ∉ inner) (rest : List Char) :
    cutArguments (some quote) (inner ++ quote :: rest) =
      (inner ++ quote :: (cutArguments none rest).1, (cutArguments none rest).2) := by
  induction inner with
  | nil => simp [cutArguments, nextQuote]
  | cons c inner ih =>
    obtain ⟨apart, further⟩ := not_or.1 (List.mem_cons.not.1 outside)
    simp [cutArguments, nextQuote, Ne.symm apart, ih further]

theorem cutArguments_quoted (mark : isQuote quote = true) (outside : quote ∉ inner)
    (rest : List Char) :
    cutArguments none (quote :: (inner ++ quote :: rest)) =
      (quote :: (inner ++ quote :: (cutArguments none rest).1), (cutArguments none rest).2) := by
  have other : quote ≠ ',' := by
    rintro rfl
    exact absurd mark (by decide)
  simp [cutArguments, nextQuote, mark, other, cutArguments_inside outside]

theorem cutArguments_plain {c : Char} (bare : isQuote c = false) (apart : c ≠ ',')
    (rest : List Char) :
    cutArguments none (c :: rest) = (c :: (cutArguments none rest).1, (cutArguments none rest).2) := by
  simp [cutArguments, nextQuote, bare, apart]

theorem cutArguments_comma (rest : List Char) :
    cutArguments none (',' :: rest) =
      ([], (cutArguments none rest).1 :: (cutArguments none rest).2.1, (cutArguments none rest).2.2) := by
  simp [cutArguments, nextQuote, isQuote]

theorem cutArguments_sealed (closed : Sealed text) (rest : List Char) :
    cutArguments none (text ++ rest) = (text ++ (cutArguments none rest).1, (cutArguments none rest).2) := by
  induction closed with
  | nil => rfl
  | plain bare apart _ ih => rw [List.cons_append, cutArguments_plain bare apart, ih, List.cons_append]
  | quoted mark outside _ ih =>
    rw [List.cons_append, List.append_assoc, List.cons_append, cutArguments_quoted mark outside, ih]
    simp

/-- Sealed texts with commas between them are cut apart again. -/
theorem cutArguments_joinWith {first : List Char} {more : List (List Char)}
    (closed : ∀ text ∈ first :: more, Sealed text) :
    cutArguments none (joinWith [','] (first :: more)) = (first, more, none) := by
  induction more generalizing first with
  | nil =>
    have cut := cutArguments_sealed (closed first List.mem_cons_self) []
    rwa [List.append_nil, cutArguments, List.append_nil] at cut
  | cons next more ih =>
    obtain ⟨here, behind⟩ := List.forall_mem_cons.1 closed
    have shape : joinWith [','] (first :: next :: more) = first ++ ',' :: joinWith [','] (next :: more) := by
      simp [joinWith]
    rw [shape, cutArguments_sealed here, cutArguments_comma, ih behind, List.append_nil]

/-- A quote that is open at the front is closed further on, when none is open at the end. -/
theorem exists_closing (closes : (cutArguments (some quote) text).2.2 = none) :
    ∃ inner rest, text = inner ++ quote :: rest ∧ quote ∉ inner := by
  induction text with
  | nil => cases closes
  | cons c rest ih =>
    by_cases same : c = quote
    · exact ⟨[], rest, by rw [same]; rfl, List.not_mem_nil⟩
    · simp only [cutArguments, nextQuote, same, if_false, reduceCtorEq, false_and] at closes
      obtain ⟨inner, behind, rfl, outside⟩ := ih closes
      refine ⟨c :: inner, behind, rfl, ?_⟩
      rw [List.mem_cons, not_or]
      exact ⟨Ne.symm same, outside⟩

/-- What a text is cut into, when no quote is left open, are sealed texts, and the commas between
them give the text back. -/
theorem sealed_of_cutArguments (closes : (cutArguments none text).2.2 = none) :
    (∀ part ∈ (cutArguments none text).1 :: (cutArguments none text).2.1, Sealed part) ∧
      joinWith [','] ((cutArguments none text).1 :: (cutArguments none text).2.1) = text := by
  induction size : text.length using Nat.strongRecOn generalizing text with
  | ind size ih =>
    cases text with
    | nil => exact ⟨List.forall_mem_singleton.2 .nil, rfl⟩
    | cons c rest =>
      rw [List.length_cons] at size
      by_cases mark : isQuote c = true
      · have other : c ≠ ',' := by
          rintro rfl
          exact absurd mark (by decide)
        have opened : (cutArguments (some c) rest).2.2 = none := by
          simpa [cutArguments, nextQuote, mark, other] using closes
        obtain ⟨inner, behind, rfl, outside⟩ := exists_closing opened
        rw [cutArguments_quoted mark outside] at closes ⊢
        obtain ⟨all, joined⟩ := ih behind.length (by simp at size; omega) closes rfl
        obtain ⟨first, others⟩ := List.forall_mem_cons.1 all
        have shape := joinWith_append_head [','] (c :: (inner ++ [c])) (cutArguments none behind).1
          (cutArguments none behind).2.1
        rw [joined] at shape
        refine ⟨List.forall_mem_cons.2 ⟨.quoted mark outside first, others⟩, ?_⟩
        simpa using shape
      · have bare : isQuote c = false := by simpa using mark
        by_cases comma : c = ','
        · subst comma
          rw [cutArguments_comma] at closes ⊢
          obtain ⟨all, joined⟩ := ih rest.length (by omega) closes rfl
          refine ⟨List.forall_mem_cons.2 ⟨.nil, all⟩, ?_⟩
          have shape : joinWith [','] ([] :: (cutArguments none rest).1 :: (cutArguments none rest).2.1) =
              ',' :: joinWith [','] ((cutArguments none rest).1 :: (cutArguments none rest).2.1) := by
            simp [joinWith]
          rw [shape, joined]
        · rw [cutArguments_plain bare comma] at closes ⊢
          obtain ⟨all, joined⟩ := ih rest.length (by omega) closes rfl
          obtain ⟨first, others⟩ := List.forall_mem_cons.1 all
          refine ⟨List.forall_mem_cons.2 ⟨.plain bare comma first, others⟩, ?_⟩
          have shape := joinWith_append_head [','] [c] (cutArguments none rest).1 (cutArguments none rest).2.1
          rw [joined] at shape
          exact shape

/-- A text starts and ends with the same quote when there is a text inside quotes. -/
theorem unquoted?_eq_some_iff : unquoted? text = some inner ↔
    ∃ quote, isQuote quote = true ∧ text = quote :: (inner ++ [quote]) := by
  cases text with
  | nil => simp [unquoted?]
  | cons c rest =>
    simp only [unquoted?, Option.ite_none_right_eq_some, Bool.and_eq_true, beq_iff_eq, Option.some.injEq,
      List.cons.injEq]
    constructor
    · rintro ⟨⟨mark, last⟩, rfl⟩
      exact ⟨c, mark, rfl, (List.dropLast_append_getLast? c last).symm⟩
    · rintro ⟨quote, mark, rfl, rfl⟩
      simp [mark]

/-- A quote is no character of a path. -/
theorem not_isSpelledChar_of_quote (mark : isQuote quote = true) :
    Path.isSpelledChar quote = false := by
  simp only [isQuote, Bool.or_eq_true, beq_iff_eq] at mark
  rcases mark with rfl | rfl <;> decide

theorem readArgument_trim_iff {argument : Argument} :
    readArgument (trim text) = .ok argument ↔ argument.SpelledBy text := by
  constructor
  · intro read
    unfold readArgument at read
    split at read
    · cases read
    · split at read
      · rename_i inner found
        obtain ⟨quote, mark, whole⟩ := unquoted?_eq_some_iff.1 found
        cases read
        by_cases inside : quote ∈ inner
        · exact .merged mark inside whole
        · exact .literal mark inside whole
      · split at read
        · rename_i path accepted
          cases read
          exact .path accepted
        · cases read
  · intro spelled
    have quoted {quote : Char} {inner : List Char} (mark : isQuote quote = true)
        (whole : trim text = quote :: (inner ++ [quote])) :
        readArgument (trim text) = .ok (.literal (String.ofList inner)) := by
      have found := unquoted?_eq_some_iff.2 ⟨quote, mark, whole⟩
      unfold readArgument
      rw [found, whole]
      rfl
    cases spelled with
    | literal mark _ whole => exact quoted mark whole
    | merged mark _ whole => exact quoted mark whole
    | path read =>
      have filled : (trim text).isEmpty = false := by
        rw [List.isEmpty_eq_false_iff]
        exact (Path.spelledBy_of_read read).ne_nil
      have bare : unquoted? (trim text) = none := by
        rw [Option.eq_none_iff_forall_ne_some]
        intro inner found
        obtain ⟨quote, mark, whole⟩ := unquoted?_eq_some_iff.1 found
        have char := Path.isSpelledChar_of_read read quote (by rw [whole]; exact List.mem_cons_self)
        rw [not_isSpelledChar_of_quote mark] at char
        cases char
      unfold readArgument
      rw [filled, bare]
      dsimp only
      rw [read]
      rfl

theorem sealed_of_plain (plain : ∀ c ∈ text, isQuote c = false ∧ c ≠ ',') : Sealed text := by
  induction text with
  | nil => exact .nil
  | cons c rest ih =>
    obtain ⟨⟨bare, apart⟩, behind⟩ := List.forall_mem_cons.1 plain
    exact .plain bare apart (ih behind)

theorem isBlank_of_isQuote {c : Char} (mark : isQuote c = true) : isBlank c = false := by
  simp only [isQuote, Bool.or_eq_true, beq_iff_eq] at mark
  rcases mark with rfl | rfl <;> decide

theorem sealed_of_blanks (blank : Blanks text) : Sealed text := by
  refine sealed_of_plain fun c member => ⟨?_, ?_⟩
  · cases mark : isQuote c with
    | false => rfl
    | true =>
      have full := isBlank_of_isQuote mark
      rw [blank c member] at full
      cases full
  · rintro rfl
    exact absurd (blank _ member) (by decide)

/-- No argument is blank. -/
theorem Argument.SpelledBy.not_blanks {argument : Argument} (spelled : argument.SpelledBy text) :
    ¬ Blanks text := by
  intro blank
  have read := readArgument_trim_iff.2 spelled
  rw [trim_eq_nil_iff.2 blank] at read
  cases read

/-- Sealed texts with commas between them are split into these texts, unless there is but one and it
is blank. -/
theorem splitArguments_joinWith {texts : List (List Char)} (filled : texts ≠ [])
    (closed : ∀ text ∈ texts, Sealed text) (some : ∀ text ∈ texts, ¬ Blanks text) :
    splitArguments (joinWith [','] texts) = .ok (texts.map trim) := by
  obtain ⟨first, more, rfl⟩ := List.exists_cons_of_ne_nil filled
  have kept : (trim first).isEmpty = false := by
    rw [List.isEmpty_eq_false_iff, ne_eq, trim_eq_nil_iff]
    exact some first List.mem_cons_self
  unfold splitArguments
  rw [cutArguments_joinWith closed]
  simp [kept]

theorem splitArguments_of_blanks (blank : Blanks text) : splitArguments text = .ok [] := by
  have cut : cutArguments none text = (text, [], none) :=
    cutArguments_joinWith (List.forall_mem_singleton.2 (sealed_of_blanks blank))
  unfold splitArguments
  rw [cut]
  simp [trim_eq_nil_iff.2 blank]

/-- What a text is split into: nothing when it is blank, else the sealed texts between its
commas. -/
theorem exists_of_splitArguments {texts : List (List Char)} (split : splitArguments text = .ok texts) :
    (Blanks text ∧ texts = []) ∨
      ∃ parts, parts ≠ [] ∧ (∀ part ∈ parts, Sealed part) ∧ joinWith [','] parts = text ∧
        texts = parts.map trim := by
  unfold splitArguments at split
  dsimp only at split
  split at split
  · cases split
  · rename_i closes
    obtain ⟨closed, joined⟩ := sealed_of_cutArguments (Option.not_isSome_iff_eq_none.1 closes)
    split at split
    · rename_i alone
      rw [Bool.and_eq_true, List.isEmpty_iff, List.isEmpty_iff, trim_eq_nil_iff] at alone
      rw [alone.1, joinWith] at joined
      rw [joined] at alone
      cases split
      exact .inl ⟨alone.2, rfl⟩
    · cases split
      exact .inr ⟨_, List.cons_ne_nil _ _, closed, joined, rfl⟩

/-- A call is read exactly when what stands between its brackets is a list of arguments. -/
theorem readCall_eq_ok_iff {parts : CallText} {call : Call} :
    readCall parts = .ok call ↔ call.owner = parts.owner.map String.ofList ∧
      call.name = String.ofList parts.name ∧ ArgumentList call.arguments parts.arguments := by
  constructor
  · intro read
    unfold readCall at read
    split at read
    · cases read
    · rename_i texts split
      obtain ⟨arguments, done, same⟩ := exists_of_bind_eq_ok read
      cases same
      refine ⟨rfl, rfl, ?_⟩
      have each := (mapM_eq_ok_iff.1 done).flip
      rcases exists_of_splitArguments split with ⟨blank, rfl⟩ | ⟨pieces, filled, closed, joined, rfl⟩
      · rw [List.forall₂_nil_right_iff] at each
        rw [each]
        exact .none blank
      · rw [List.forall₂_map_right_iff] at each
        rw [← joined]
        exact .some filled closed (each.imp fun _ _ => readArgument_trim_iff.1)
  · obtain ⟨owner, name, arguments⟩ := call
    rintro ⟨rfl, rfl, list⟩
    unfold readCall
    generalize parts.arguments = text at list ⊢
    cases list with
    | none blank =>
      rw [splitArguments_of_blanks blank]
      rfl
    | @some _ texts filled closed spelled =>
      have full : ∀ text ∈ texts, ¬ Blanks text := by
        intro text member
        obtain ⟨argument, _, here⟩ := exists_of_mem_forall₂ spelled member
        exact here.not_blanks
      have each : (texts.map trim).mapM readArgument = .ok arguments := by
        rw [mapM_eq_ok_iff, List.forall₂_map_left_iff]
        exact (spelled.imp fun _ _ => readArgument_trim_iff.2).flip
      rw [splitArguments_joinWith filled closed full]
      dsimp only
      rw [each]
      rfl

/-- Without a list of arguments between its brackets a call is malformed, if the numerals in it are
short enough to be read. -/
theorem readCall_malformed {parts : CallText} {bound : Nat} (below : IndicesBelow bound parts.arguments)
    (none : ∀ arguments, ¬ ArgumentList arguments parts.arguments) :
    ∃ error, readCall parts = .error (.malformed error) := by
  have reads := readable_readCall below
  cases read : readCall parts with
  | ok call => exact absurd (readCall_eq_ok_iff.1 read).2.2 (none call.arguments)
  | error failure =>
    rw [read] at reads
    cases failure with
    | malformed error => exact ⟨error, rfl⟩
    | numeral error => exact absurd reads id

/-- An argument as it is written: the canonical text of a path, or a text between quotes that it
does not hold. -/
inductive Argument.WrittenAs : Argument → List Char → Prop
  | path {path : Path} (wellFormed : path.WellFormed) : WrittenAs (.path path) path.text.toList
  | literal {quote : Char} {inner : List Char} (mark : isQuote quote = true)
      (outside : quote ∉ inner) : WrittenAs (.literal (String.ofList inner)) (quote :: (inner ++ [quote]))

theorem Argument.WrittenAs.closed {argument : Argument} (written : argument.WrittenAs text) : Sealed text := by
  cases written with
  | path wellFormed =>
    refine sealed_of_plain fun c member => ⟨?_, ?_⟩
    · have char := Path.isPathChar_of_mem wellFormed c member
      have single := ne_of_isPathChar char (d := '\'') (by decide)
      have double := ne_of_isPathChar char (d := '"') (by decide)
      simp [isQuote, single, double]
    · exact ne_of_isPathChar (Path.isPathChar_of_mem wellFormed c member) (by decide)
  | literal mark outside => exact .quoted mark outside .nil

theorem Argument.WrittenAs.spelledBy {argument : Argument} (written : argument.WrittenAs text) :
    argument.SpelledBy text := by
  cases written with
  | path wellFormed => exact .path (Path.read_trim (Path.read_text wellFormed))
  | @literal quote inner mark outside =>
    have full := isBlank_of_isQuote mark
    refine .literal mark outside ?_
    rw [← List.cons_append]
    exact trim_of_ends full (trimLeft_of_head full)

theorem Argument.SpelledBy.of_trim {argument : Argument} {other : List Char} (spelled : argument.SpelledBy text)
    (same : trim other = trim text) : argument.SpelledBy other := by
  rw [← readArgument_trim_iff, same]
  exact readArgument_trim_iff.2 spelled

theorem joinWith_cons_separator (mark : Char) (separator first : List Char) (more : List (List Char)) :
    joinWith (mark :: separator) (first :: more) = joinWith [mark] (first :: more.map (separator ++ ·)) := by
  induction more generalizing first with
  | nil => rfl
  | cons next more ih =>
    have behind := joinWith_append_head [mark] separator next (more.map (separator ++ ·))
    simp [joinWith, ih, behind]

/-- Written arguments with a comma and a space between them are a list of arguments. -/
theorem argumentList_of_written {arguments : List Argument} {texts : List (List Char)}
    (written : List.Forall₂ Argument.WrittenAs arguments texts) :
    ArgumentList arguments (joinWith [',', ' '] texts) := by
  cases written with
  | nil => exact .none blanks_nil
  | @cons _ first _ more here behind =>
    have spaced {argument : Argument} {text : List Char} (written : argument.WrittenAs text) :
        argument.SpelledBy ([' '] ++ text) :=
      written.spelledBy.of_trim (trim_cons_of_blank (by decide) text)
    rw [joinWith_cons_separator]
    refine .some (List.cons_ne_nil _ _) (List.forall_mem_cons.2 ⟨here.closed, ?_⟩) (.cons here.spelledBy ?_)
    · intro text member
      obtain ⟨other, among, rfl⟩ := List.mem_map.1 member
      obtain ⟨argument, _, written⟩ := exists_of_mem_forall₂ behind among
      exact .plain (by decide) (by decide) written.closed
    · rw [List.forall₂_map_right_iff]
      exact behind.imp fun _ _ => spaced

end DeckBinding
