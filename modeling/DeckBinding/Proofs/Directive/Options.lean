import DeckBinding.Proofs.Directive.Markers
import DeckBinding.Proofs.Expression.Readable
import DeckBinding.Proofs.Path.Spelling
import DeckBinding.Proofs.Text.Case
import Mathlib.Data.List.Forall2
import Mathlib.Data.List.Induction
import Mathlib.Data.List.Infix

set_option autoImplicit false

namespace DeckBinding

open DeckBinding.Number DeckBinding.Text

/-- An option gives a number to a key: the key in any case, a colon, and a numeral of the number,
with blanks around both. -/
def ForeachKey.GivenBy (key : ForeachKey) (number : Nat) (option : List Char) : Prop :=
  ∃ front value, option = front ++ ':' :: value ∧ ':' ∉ front ∧
    (trim front).map Char.toLower = key.name.toList ∧ readInteger (trim value) = .ok (number : Int)

def WellFormedOption (option : List Char) : Prop :=
  ∃ key number, ForeachKey.GivenBy key number option

/-- What is noted about an option: it has no colon, its key is unknown, its value is no numeral, or
its number is negative. -/
inductive OptionFault : List Char → Problem → Prop
  | noColon {option : List Char} (absent : ':' ∉ option) : OptionFault option (.unknownOption (trim option))
  | unknownKey {front value : List Char} (first : ':' ∉ front)
      (unknown : ∀ key : ForeachKey, (trim front).map Char.toLower ≠ key.name.toList) :
      OptionFault (front ++ ':' :: value) (.unknownOption (trim (front ++ ':' :: value)))
  | notANumber {front value : List Char} {key : ForeachKey} {error : NumeralError} (first : ':' ∉ front)
      (known : (trim front).map Char.toLower = key.name.toList)
      (refused : readInteger (trim value) = .error error) :
      OptionFault (front ++ ':' :: value) (.optionNotANumber key.name (trimRight value))
  | negative {front value : List Char} {key : ForeachKey} {number : Int} (first : ':' ∉ front)
      (known : (trim front).map Char.toLower = key.name.toList)
      (read : readInteger (trim value) = .ok number) (below : number < 0) :
      OptionFault (front ++ ':' :: value) (.negativeOption key.name number)

/-- The number that the last option with one for a key gives it, and zero when there is no such
option. -/
inductive LastGiven (key : ForeachKey) : List (List Char) → Nat → Prop
  | none {options : List (List Char)} (absent : ∀ option ∈ options, ∀ number, ¬ key.GivenBy number option) :
      LastGiven key options 0
  | last {front behind : List (List Char)} {option : List Char} {number : Nat}
      (given : key.GivenBy number option) (later : ∀ other ∈ behind, ∀ number, ¬ key.GivenBy number other) :
      LastGiven key (front ++ option :: behind) number

/-- A text that can stand between the commas of a directive: without commas, marks, line ends and
the opening of an expression. -/
structure OptionText (cs : List Char) : Prop where
  noComma : ',' ∉ cs
  noMark : '#' ∉ cs
  oneLine : ∀ c ∈ cs, isLineEnd c = false
  unopened : ¬ ['$', '\x7b'] <:+: cs

theorem any_isLineEnd_eq_false_iff {cs : List Char} :
    cs.any isLineEnd = false ↔ ∀ c ∈ cs, isLineEnd c = false := by
  simp

instance (cs : List Char) : Decidable (OptionText cs) :=
  decidable_of_iff (',' ∉ cs ∧ '#' ∉ cs ∧ cs.any isLineEnd = false ∧ ¬ ['$', '\x7b'] <:+: cs)
    ⟨fun ⟨comma, mark, inside, opens⟩ => ⟨comma, mark, any_isLineEnd_eq_false_iff.1 inside, opens⟩,
      fun ⟨comma, mark, inside, opens⟩ => ⟨comma, mark, any_isLineEnd_eq_false_iff.2 inside, opens⟩⟩

def optionsText (options : List (List Char)) : List Char :=
  options.flatMap fun option => ',' :: ' ' :: option

def optionNotes (path : List Char) (options : List (List Char)) : List Char :=
  "#foreach: ".toList ++ (path ++ optionsText options)

variable {key : ForeachKey} {front value option : List Char}

theorem cutAtColon_append (absent : ':' ∉ front) (value : List Char) :
    cutAtColon (front ++ ':' :: value) = (front, some value) := by
  induction front with
  | nil => rfl
  | cons c rest ih =>
    obtain ⟨apart, further⟩ := not_or.1 (List.mem_cons.not.1 absent)
    rw [List.cons_append, cutAtColon, if_neg (Ne.symm apart), ih further]

theorem ofName?_lower (cs : List Char) :
    ForeachKey.ofName? (lower cs) = some key ↔ cs.map Char.toLower = key.name.toList := by
  have plain (key : ForeachKey) : ∀ d ∈ key.name.toList, d.toNat < 128 ∧ d ≠ 'k' := by
    cases key <;> simp [ForeachKey.name]
  rw [← lower_eq_iff (plain key)]
  unfold ForeachKey.ofName?
  split
  · rename_i same
    rw [same]
    cases key <;> simp [ForeachKey.name]
  · split
    · rename_i same
      rw [same]
      cases key <;> simp [ForeachKey.name]
    · cases key <;> simp [*]

/-- An option with a colon is read by the trimmed texts in front of the first colon and behind
it. -/
theorem readOption_append (first : ':' ∉ front) (value : List Char) :
    readOption (trim (front ++ ':' :: value)) =
      match ForeachKey.ofName? (lower (trim front)) with
      | some key =>
        match readInteger (trim value) with
        | .error _ => .error (.optionNotANumber key.name (trimRight value))
        | .ok number =>
          if number < 0 then .error (.negativeOption key.name number) else .ok (key, number.toNat)
      | none => .error (.unknownOption (trim (front ++ ':' :: value))) := by
  have inside : ':' ∉ trimLeft front := fun member => first (mem_of_trimLeft _ member)
  unfold readOption
  rw [trim_append_mark (by decide), cutAtColon_append inside]
  dsimp only
  rw [trim_trimLeft]
  cases ForeachKey.ofName? (lower (trim front)) with
  | none => rfl
  | some key =>
    cases read : readInteger (trim value) <;> simp only [trim_trimRight, read]

theorem readOption_of_givenBy {number : Nat} (given : key.GivenBy number option) :
    readOption (trim option) = .ok (key, number) := by
  obtain ⟨front, value, rfl, first, known, read⟩ := given
  rw [readOption_append first, (ofName?_lower _).2 known]
  simp only [read]
  rw [if_neg (by omega), Int.toNat_natCast]

theorem ofName?_lower_eq_none {cs : List Char} :
    ForeachKey.ofName? (lower cs) = none ↔ ∀ key : ForeachKey, cs.map Char.toLower ≠ key.name.toList := by
  rw [Option.eq_none_iff_forall_ne_some]
  exact forall_congr' fun key => not_congr (ofName?_lower cs)

theorem readOption_of_fault {problem : Problem} (fault : OptionFault option problem) :
    readOption (trim option) = .error problem := by
  cases fault with
  | noColon absent =>
    have inside : ':' ∉ trim option := fun member => absent ((infix_trim option).mem member)
    unfold readOption
    rw [cutAtColon_of_not_mem inside]
    dsimp only
    split <;> simp_all
  | unknownKey first unknown =>
    rw [readOption_append first, ofName?_lower_eq_none.2 unknown]
  | notANumber first known refused =>
    rw [readOption_append first, (ofName?_lower _).2 known]
    simp only [refused]
  | negative first known read below =>
    rw [readOption_append first, (ofName?_lower _).2 known]
    simp only [read, if_pos below]

/-- Every option gives a number to a key or has a fault. -/
theorem givenBy_or_fault (option : List Char) :
    (∃ key number, ForeachKey.GivenBy key number option) ∨ ∃ problem, OptionFault option problem := by
  by_cases colon : ':' ∈ option
  · obtain ⟨front, value, rfl, first⟩ := List.eq_append_cons_of_mem colon
    cases named : ForeachKey.ofName? (lower (trim front)) with
    | none => exact .inr ⟨_, .unknownKey first (ofName?_lower_eq_none.1 named)⟩
    | some key =>
      have known := (ofName?_lower _).1 named
      cases read : readInteger (trim value) with
      | error error => exact .inr ⟨_, .notANumber first known read⟩
      | ok number =>
        by_cases below : number < 0
        · exact .inr ⟨_, .negative first known read below⟩
        · obtain ⟨size, rfl⟩ := Int.eq_ofNat_of_zero_le (Int.not_lt.1 below)
          exact .inl ⟨key, size, front, value, rfl, first, known, read⟩
  · exact .inr ⟨_, .noColon colon⟩

theorem wellFormedOption_iff : WellFormedOption option ↔ (readOption (trim option)).isOk = true := by
  constructor
  · rintro ⟨key, number, given⟩
    rw [readOption_of_givenBy given]
    rfl
  · intro read
    rcases givenBy_or_fault option with given | ⟨problem, fault⟩
    · exact given
    · rw [readOption_of_fault fault] at read
      cases read

instance (option : List Char) : Decidable (WellFormedOption option) :=
  decidable_of_iff _ wellFormedOption_iff.symm

/-- What a list of options is read as, each one without the blanks around it. -/
def readOptions (options : List (List Char)) : List (Except Problem (ForeachKey × Nat)) :=
  options.map fun option => readOption (trim option)

/-- The last option decides when it gives the key a number, and else those in front of it. -/
theorem optionNumber_concat (key : ForeachKey) (results : List (Except Problem (ForeachKey × Nat)))
    (result : Except Problem (ForeachKey × Nat)) :
    optionNumber key (results ++ [result]) =
      match result with
      | .ok (found, number) => if found = key then number else optionNumber key results
      | .error _ => optionNumber key results := by
  unfold optionNumber
  rw [List.filterMap_append]
  cases result with
  | error problem => simp
  | ok entry =>
    by_cases same : entry.1 = key <;> simp [same]

theorem LastGiven.append_other {options : List (List Char)} {number : Nat}
    (decided : LastGiven key options number) (other : ∀ number, ¬ key.GivenBy number option) :
    LastGiven key (options ++ [option]) number := by
  cases decided with
  | none absent => exact .none (List.forall_mem_append.2 ⟨absent, List.forall_mem_singleton.2 other⟩)
  | @last front behind decisive _ given later =>
    rw [List.append_assoc, List.cons_append]
    exact .last given (List.forall_mem_append.2 ⟨later, List.forall_mem_singleton.2 other⟩)

/-- The number kept for a key is that of the last option that gives it one. -/
theorem lastGiven_optionNumber (key : ForeachKey) (options : List (List Char)) :
    LastGiven key options (optionNumber key (readOptions options)) := by
  induction options using List.reverseRecOn with
  | nil => exact .none fun option member => nomatch member
  | append_singleton front option ih =>
    have split : readOptions (front ++ [option]) = readOptions front ++ [readOption (trim option)] :=
      List.map_append
    rw [split, optionNumber_concat]
    rcases givenBy_or_fault option with ⟨found, number, given⟩ | ⟨problem, fault⟩
    · rw [readOption_of_givenBy given]
      dsimp only
      by_cases same : found = key
      · rw [if_pos same]
        subst same
        exact .last given fun other member => nomatch member
      · rw [if_neg same]
        apply ih.append_other
        intro number given'
        have both := (readOption_of_givenBy given).symm.trans (readOption_of_givenBy given')
        cases both
        exact same rfl
    · rw [readOption_of_fault fault]
      apply ih.append_other
      intro number given
      have both := (readOption_of_fault fault).symm.trans (readOption_of_givenBy given)
      cases both

theorem LastGiven.eq_optionNumber {options : List (List Char)} {number : Nat}
    (decided : LastGiven key options number) : number = optionNumber key (readOptions options) := by
  have passed {front behind : List (List Char)}
      (others : ∀ other ∈ behind, ∀ number, ¬ key.GivenBy number other) :
      optionNumber key (readOptions (front ++ behind)) = optionNumber key (readOptions front) := by
    induction behind using List.reverseRecOn with
    | nil => rw [List.append_nil]
    | append_singleton behind other ih =>
      obtain ⟨before, last⟩ := List.forall_mem_append.1 others
      have split : readOptions (front ++ (behind ++ [other])) =
          readOptions (front ++ behind) ++ [readOption (trim other)] := by
        simp [readOptions]
      rw [split, optionNumber_concat, ← ih before]
      rcases givenBy_or_fault other with ⟨found, number, given⟩ | ⟨problem, fault⟩
      · have apart : found ≠ key := by
          rintro rfl
          exact last other List.mem_cons_self number given
        rw [readOption_of_givenBy given]
        exact if_neg apart
      · rw [readOption_of_fault fault]
  cases decided with
  | none absent => exact (@passed [] options absent).symm
  | @last front behind option number given later =>
    have split : readOptions (front ++ [option]) = readOptions front ++ [readOption (trim option)] :=
      List.map_append
    rw [← List.singleton_append, ← List.append_assoc, passed later, split, optionNumber_concat,
      readOption_of_givenBy given]
    exact (if_pos rfl).symm

/-- The options that are not well-formed are noted one by one, in their order. -/
theorem forall₂_optionProblems (options : List (List Char)) :
    List.Forall₂ OptionFault (options.filter fun option => ¬ WellFormedOption option)
      (optionProblems (readOptions options)) := by
  induction options with
  | nil => exact .nil
  | cons option rest ih =>
    have split : optionProblems (readOptions (option :: rest)) =
        optionProblems [readOption (trim option)] ++ optionProblems (readOptions rest) := by
      unfold optionProblems
      rw [← List.filterMap_append]
      rfl
    rw [split]
    rcases givenBy_or_fault option with ⟨key, number, given⟩ | ⟨problem, fault⟩
    · rw [List.filter_cons_of_neg (by simpa using ⟨key, number, given⟩), readOption_of_givenBy given]
      exact ih
    · have read := readOption_of_fault fault
      have bad : ¬ WellFormedOption option := by
        rw [wellFormedOption_iff, read]
        exact Bool.false_ne_true
      rw [List.filter_cons_of_pos (by simpa using bad), read]
      exact .cons fault ih

theorem OptionFault.kind {problem : Problem} (fault : OptionFault option problem) : problem.kind = .parse := by
  cases fault <;> rfl

theorem splitAt_parts {separator : Char} {front : List Char} (absent : separator ∉ front)
    {parts : List (List Char)} (clean : ∀ part ∈ parts, separator ∉ part) :
    splitAt separator (front ++ parts.flatMap fun part => separator :: part) = front :: parts := by
  induction parts generalizing front with
  | nil => rw [List.flatMap_nil, List.append_nil, splitAt_of_not_mem absent]
  | cons part parts ih =>
    obtain ⟨here, behind⟩ := List.forall_mem_cons.1 clean
    rw [List.flatMap_cons, List.cons_append, splitAt, cutAt_append absent, ih here behind]

/-- Blanks around a text are blanks around its first and last part. -/
theorem map_trim_splitAt_trim {separator : Char} (full : isBlank separator = false) (cs : List Char) :
    (splitAt separator (trim cs)).map trim = (splitAt separator cs).map trim := by
  obtain ⟨left, right, blankLeft, blankRight, whole⟩ := exists_append_trim cs
  have absent {blanks : List Char} (blank : Blanks blanks) : separator ∉ blanks := by
    intro member
    rw [blank separator member] at full
    cases full
  obtain ⟨front, last, alone, longer⟩ := splitAt_append_back (absent blankRight) (trim cs)
  have behind : (splitAt separator (trim cs ++ right)).map trim = (splitAt separator (trim cs)).map trim := by
    have same := trim_append blanks_nil blankRight last
    rw [List.nil_append] at same
    rw [alone, longer, List.map_append, List.map_append, List.map_singleton, List.map_singleton, same]
  have ahead (text : List Char) :
      (splitAt separator (left ++ text)).map trim = (splitAt separator text).map trim := by
    have same := trim_append blankLeft blanks_nil (cutAt separator text).1
    rw [List.append_nil] at same
    rw [splitAt_append_front (absent blankLeft), List.map_cons, same]
    rfl
  conv => rhs; rw [whole]
  rw [ahead, behind]

/-- What follows `#foreach:` is read part by part, each one without the blanks around it. -/
theorem readForeach_of_parts {body text : List Char} {options : List (List Char)} {path : Path}
    (parts : (splitAt ',' body).map trim = trim text :: options.map trim)
    (accepted : Path.read text = .ok path) :
    readForeach body = .ok ⟨some (.foreach path.text (optionNumber .max (readOptions options))
      (optionNumber .offset (readOptions options))), optionProblems (readOptions options)⟩ := by
  rw [splitAt, List.map_cons, List.cons.injEq] at parts
  obtain ⟨first, others⟩ := parts
  have read : (cutAt ',' body).2.map (fun option => readOption (trim option)) = readOptions options := by
    have mapped := congrArg (List.map readOption) others
    rwa [List.map_map, List.map_map] at mapped
  unfold readForeach readCollection
  dsimp only
  rw [first, Path.read_trim accepted, read]
  rfl

/-- A line with one marker at its front is read as it. -/
theorem markedTexts_line {keyword text : List Char} (valid : isKeyword keyword = true) (plain : '#' ∉ text)
    (inside : ∀ c ∈ text, isLineEnd c = false) (unopened : ¬ ['$', '\x7b'] <:+: text) :
    markedTexts ('#' :: (keyword ++ ':' :: text)) = [(keyword, text)] := by
  have noDollar : '$' ∉ '#' :: (keyword ++ [':']) := by
    simp only [List.mem_cons, List.mem_append, List.not_mem_nil, or_false, not_or]
    refine ⟨by decide, fun word => ?_, by decide⟩
    exact absurd (isKeywordChar_of_mem valid _ word) (by decide)
  have shape : '#' :: (keyword ++ ':' :: text) = '#' :: (keyword ++ [':']) ++ text := by simp
  have quotes : withPlainQuotes ('#' :: (keyword ++ ':' :: text)) = '#' :: (keyword ++ ':' :: text) := by
    apply withPlainQuotes_of_unopened
    rw [shape]
    exact fun opens => unopened (infix_pair_of_not_mem noDollar opens)
  have body := textToMarker_append inside plain []
  have behind := markers_append plain []
  rw [List.append_nil, textToMarker_nil, List.append_nil] at body
  rw [List.append_nil] at behind
  unfold markedTexts
  rw [quotes]
  refine (markers_keyword valid text).trans ?_
  rw [body, behind]
  rfl

theorem optionsText_cons (option : List Char) (rest : List (List Char)) :
    optionsText (option :: rest) = ',' :: ' ' :: (option ++ optionsText rest) := rfl

theorem unopened_optionsText {options : List (List Char)} (plain : ∀ option ∈ options, OptionText option) :
    ¬ ['$', '\x7b'] <:+: optionsText options := by
  have spaced {cs : List Char} (opens : ['$', '\x7b'] <:+: ',' :: ' ' :: cs) : ['$', '\x7b'] <:+: cs :=
    @infix_pair_of_not_mem _ _ [',', ' '] cs (by decide) opens
  induction options with
  | nil => simp [optionsText]
  | cons option rest ih =>
    obtain ⟨here, behind⟩ := List.forall_mem_cons.1 plain
    intro opens
    rw [optionsText_cons] at opens
    have inside := spaced opens
    cases rest with
    | nil =>
      rw [optionsText, List.flatMap_nil, List.append_nil] at inside
      exact here.unopened inside
    | cons next rest =>
      rw [optionsText_cons] at inside
      rcases infix_pair_append (by decide) (by decide) inside with first | later
      · exact here.unopened first
      · exact ih behind (List.infix_cons later)

variable {text : List Char} {path : Path} {options : List (List Char)}

/-- A character that is none of a path does not stand in a text that is read as one. -/
theorem not_mem_of_read (accepted : Path.read text = .ok path) {c : Char}
    (other : Path.isSpelledChar c = false) : c ∉ text := by
  intro member
  rw [Path.isSpelledChar_of_read accepted c member] at other
  cases other

theorem mem_optionsText {c : Char} (member : c ∈ optionsText options) :
    c = ',' ∨ c = ' ' ∨ ∃ option ∈ options, c ∈ option := by
  obtain ⟨option, among, inside⟩ := List.mem_flatMap.1 member
  rcases List.mem_cons.1 inside with comma | behind
  · exact .inl comma
  · rcases List.mem_cons.1 behind with space | here
    · exact .inr (.inl space)
    · exact .inr (.inr ⟨option, among, here⟩)

theorem markedTexts_optionNotes (accepted : Path.read text = .ok path)
    (oneLine : ∀ c ∈ text, isLineEnd c = false) (plain : ∀ option ∈ options, OptionText option) :
    markedTexts (optionNotes text options) =
      [("foreach".toList, ' ' :: (text ++ optionsText options))] := by
  have keyword : isKeyword "foreach".toList = true := by decide
  show markedTexts ('#' :: ("foreach".toList ++ ':' :: (' ' :: (text ++ optionsText options)))) = _
  apply markedTexts_line keyword
  · intro member
    rcases List.mem_cons.1 member with same | further
    · exact absurd same (by decide)
    · rcases List.mem_append.1 further with inPath | inOptions
      · exact not_mem_of_read accepted (by decide) inPath
      · rcases mem_optionsText inOptions with same | same | ⟨option, among, here⟩
        · exact absurd same (by decide)
        · exact absurd same (by decide)
        · exact (plain option among).noMark here
  · intro c member
    rcases List.mem_cons.1 member with rfl | further
    · decide
    · rcases List.mem_append.1 further with inPath | inOptions
      · exact oneLine c inPath
      · rcases mem_optionsText inOptions with rfl | rfl | ⟨option, among, here⟩
        · decide
        · decide
        · exact (plain option among).oneLine c here
  · have noDollar : '$' ∉ ' ' :: text := by
      rw [List.mem_cons, not_or]
      exact ⟨by decide, not_mem_of_read accepted (by decide)⟩
    exact fun opens => unopened_optionsText plain (infix_pair_of_not_mem noDollar opens)

theorem readDirective_options (accepted : Path.read text = .ok path)
    (plain : ∀ option ∈ options, OptionText option) :
    readDirective "foreach".toList (' ' :: (text ++ optionsText options)) =
      .ok ⟨some (.foreach path.text (optionNumber .max (readOptions options))
        (optionNumber .offset (readOptions options))), optionProblems (readOptions options)⟩ := by
  have keyword : lower "foreach".toList = "foreach".toList := by decide +kernel
  have noComma : ',' ∉ ' ' :: text := by
    rw [List.mem_cons, not_or]
    exact ⟨by decide, not_mem_of_read accepted (by decide)⟩
  have clean : ∀ part ∈ options.map (' ' :: ·), ',' ∉ part := by
    rw [List.forall_mem_map]
    intro option member
    rw [List.mem_cons, not_or]
    exact ⟨by decide, (plain option member).noComma⟩
  have cut : splitAt ',' (' ' :: (text ++ optionsText options)) = (' ' :: text) :: options.map (' ' :: ·) := by
    have parts := splitAt_parts noComma clean
    rwa [List.flatMap_map, List.cons_append] at parts
  have space (cs : List Char) : trim (' ' :: cs) = trim cs := trim_cons_of_blank (by decide) cs
  have parts : (splitAt ',' (trim (' ' :: (text ++ optionsText options)))).map trim =
      trim text :: options.map trim := by
    rw [map_trim_splitAt_trim (by decide), cut, List.map_cons, List.map_map, space]
    exact congrArg _ (List.map_congr_left fun option _ => space option)
  unfold readDirective
  rw [keyword]
  dsimp only
  rw [if_pos rfl, readForeach_of_parts parts accepted]

/-- Notes that repeat a slide over a path hold one directive, whatever options stand behind it. Its
numbers are those of the last options that give one, and the options that give none are noted one by
one. -/
theorem readDirectives_options (accepted : Path.read text = .ok path)
    (oneLine : ∀ c ∈ text, isLineEnd c = false) (plain : ∀ option ∈ options, OptionText option)
    (slide : Option Int) :
    ∃ max offset problems, readDirectives slide (optionNotes text options) =
        .ok ([.foreach path.text max offset], problems.map fun problem => ⟨problem, slide⟩) ∧
      LastGiven .max options max ∧ LastGiven .offset options offset ∧
      List.Forall₂ OptionFault (options.filter fun option => ¬ WellFormedOption option) problems ∧
      ∀ problem ∈ problems, problem.kind = .parse := by
  refine ⟨_, _, optionProblems (readOptions options), ?_, lastGiven_optionNumber .max options,
    lastGiven_optionNumber .offset options, forall₂_optionProblems options, ?_⟩
  · unfold readDirectives
    rw [markedTexts_optionNotes accepted oneLine plain]
    simp only [List.mapM_cons, List.mapM_nil, readDirective_options accepted plain]
    simp [bind, Except.bind, pure, Except.pure]
  · intro problem member
    obtain ⟨option, _, fault⟩ := exists_of_mem_forall₂ (forall₂_optionProblems options) member
    exact fault.kind

/-- Good options between bad ones of the same key, with blanks and capitals. -/
theorem readDirectives_options_mixed :
    Path.read " A. B ".toList = .ok ⟨⟨"A", none⟩, [(.member, ⟨"B", none⟩)]⟩ ∧
      (∀ option ∈ ["MAX : 2".toList, "max: x".toList, "offset".toList, "max: -1".toList], OptionText option) ∧
      ∃ problems, readDirectives (some 1) "#foreach:  A. B , MAX : 2, max: x, offset, max: -1".toList =
        .ok ([.foreach "A.B" 2 0], problems) ∧ problems.length = 3 := by
  generalize listed : ["MAX : 2".toList, "max: x".toList, "offset".toList, "max: -1".toList] = options
  have accepted : Path.read " A. B ".toList = .ok ⟨⟨"A", none⟩, [(.member, ⟨"B", none⟩)]⟩ := by
    decide +kernel
  have plain : ∀ option ∈ options, OptionText option := by
    subst listed
    decide +kernel
  have faulty : (options.filter fun option => ¬ WellFormedOption option).length = 3 := by
    subst listed
    decide +kernel
  have numbers : optionNumber .max (readOptions options) = 2 ∧ optionNumber .offset (readOptions options) = 0 := by
    subst listed
    decide +kernel
  have oneLine : ∀ c ∈ " A. B ".toList, isLineEnd c = false := any_isLineEnd_eq_false_iff.1 (by decide)
  obtain ⟨max, offset, problems, read, first, second, noted, _⟩ :=
    readDirectives_options accepted oneLine plain (some 1)
  rw [first.eq_optionNumber, second.eq_optionNumber, numbers.1, numbers.2] at read
  refine ⟨accepted, plain, problems.map fun problem => ⟨problem, some 1⟩, ?_, ?_⟩
  · subst listed
    exact read
  · rw [List.length_map, ← noted.length_eq, faulty]

/-- The line ends inside the text of the path, and with it the directive. -/
theorem line_ends_inside_path :
    Path.read "A\n".toList = .ok ⟨⟨"A", none⟩, []⟩ ∧ OptionText "max: 2".toList ∧
      LastGiven .max ["max: 2".toList] 2 ∧
      readDirectives none (optionNotes "A\n".toList ["max: 2".toList]) = .ok ([.foreach "A" 0 0], []) := by
  have given : ForeachKey.max.GivenBy 2 "max: 2".toList :=
    ⟨"max".toList, " 2".toList, rfl, by decide, by decide, by decide +kernel⟩
  refine ⟨by decide +kernel, by decide +kernel, ?_, by decide +kernel⟩
  exact @LastGiven.last _ [] [] _ 2 given fun other member => nomatch member

end DeckBinding
