import DeckBinding.Directive.Reader
import DeckBinding.Proofs.Expression.Readable

set_option autoImplicit false

namespace DeckBinding

open DeckBinding.Number DeckBinding.Text

/-- A directive with the canonical text of a path whose indices are less than a bound. Its page size
has a numeral. -/
structure Directive.IndicesBelow (bound : Nat) (directive : Directive) : Prop where
  path : ∃ path : Path, path.WellFormed ∧ path.IndicesBelow bound ∧ directive.path = path.text
  pageSize : ∀ path max offset, directive = .foreach path max offset → max < writeBound

/-- What becomes of a marker: a directive that is accepted, or problems with what was written. -/
structure DirectiveReading.Settled (bound : Nat) (reading : DirectiveReading) : Prop where
  accepted : ∀ directive ∈ reading.directive, directive.IndicesBelow bound
  skipped : reading.directive = none → reading.problems ≠ []
  parse : ∀ problem ∈ reading.problems, problem.kind = .parse

variable {bound : Nat} {text body : List Char}

/-- The first line starts the text, and the others stand in it. -/
theorem lines_spec (cs : List Char) {first : List Char} {more : List (List Char)}
    (cut : lines cs = first :: more) : first <+: cs ∧ ∀ line ∈ more, line <:+: cs := by
  have all {rest : List Char} (spec : ∀ {first more}, lines rest = first :: more →
      first <+: rest ∧ ∀ line ∈ more, line <:+: rest) : ∀ line ∈ lines rest, line <:+: rest := by
    intro line member
    cases behind : lines rest with
    | nil => exact absurd (behind ▸ member) List.not_mem_nil
    | cons front others =>
      rw [behind] at member
      rcases List.mem_cons.1 member with rfl | later
      · exact (spec behind).1.isInfix
      · exact (spec behind).2 line later
  fun_induction lines cs generalizing first more with
  | case1 => cases cut
  | case2 rest ih =>
    cases cut
    exact ⟨List.nil_prefix, fun line member => List.infix_cons (List.infix_cons (all ih line member))⟩
  | case3 c rest _ ends ih =>
    cases cut
    exact ⟨List.nil_prefix, fun line member => List.infix_cons (all ih line member)⟩
  | case4 c rest _ inside none ih =>
    cases cut
    exact ⟨List.cons_prefix_cons.2 ⟨rfl, List.nil_prefix⟩, fun _ member => absurd member List.not_mem_nil⟩
  | case5 c rest _ inside line others behind ih =>
    cases cut
    obtain ⟨here, later⟩ := ih behind
    exact ⟨List.cons_prefix_cons.2 ⟨rfl, here⟩, fun line member => List.infix_cons (later line member)⟩

theorem infix_of_mem_lines {cs line : List Char} (member : line ∈ lines cs) : line <:+: cs := by
  cases cut : lines cs with
  | nil => exact absurd (cut ▸ member) List.not_mem_nil
  | cons first more =>
    rw [cut] at member
    rcases List.mem_cons.1 member with rfl | later
    · exact (lines_spec cs cut).1.isInfix
    · exact (lines_spec cs cut).2 line later

theorem suffix_of_takeMarker? {cs keyword after : List Char}
    (found : takeMarker? cs = some (keyword, after)) : after <:+ cs := by
  unfold takeMarker? at found
  split at found
  · rename_i letter rest
    split at found
    · split at found
      · rename_i closing matched
        cases found
        have behind : ':' :: after <:+ rest := by
          rw [← matched]
          exact (suffix_trimLeft _).trans (List.dropWhile_suffix _)
        exact (List.suffix_cons ':' after).trans
          (behind.trans ((List.suffix_cons letter rest).trans (List.suffix_cons '#' _)))
      · cases found
    · cases found
  · cases found

/-- The texts behind markers stand in the line. -/
theorem infix_cutAtMarkers (cs : List Char) :
    (cutAtMarkers cs).1 <+: cs ∧ ∀ entry ∈ (cutAtMarkers cs).2, entry.2 <:+: cs := by
  fun_induction cutAtMarkers cs with
  | case1 => exact ⟨List.prefix_rfl, fun _ member => absurd member List.not_mem_nil⟩
  | case2 c rest keyword after found body more cut ih =>
    rw [cut] at ih
    have inside := (suffix_of_takeMarker? found).isInfix
    refine ⟨List.nil_prefix, ?_⟩
    intro entry member
    rcases List.mem_cons.1 member with rfl | later
    · exact ih.1.isInfix.trans inside
    · exact (ih.2 entry later).trans inside
  | case3 c rest found front more cut ih =>
    rw [cut] at ih
    exact ⟨List.cons_prefix_cons.2 ⟨rfl, ih.1⟩, fun entry member => List.infix_cons (ih.2 entry member)⟩

theorem prefix_cutAt (separator : Char) (cs : List Char) : (cutAt separator cs).1 <+: cs := by
  induction cs with
  | nil => exact List.prefix_rfl
  | cons c rest ih =>
    rw [cutAt]
    dsimp only
    split
    · exact List.nil_prefix
    · exact List.cons_prefix_cons.2 ⟨rfl, ih⟩

theorem prefix_of_splitAlias? {cs path name : List Char} (found : splitAlias? cs = some (path, name)) :
    path <+: cs := by
  induction cs generalizing path name with
  | nil => cases found
  | cons c rest ih =>
    rw [splitAlias?] at found
    split at found
    · cases found
      exact List.cons_prefix_cons.2 ⟨rfl, List.nil_prefix⟩
    · obtain ⟨⟨front, last⟩, behind, same⟩ := Option.map_eq_some_iff.1 found
      cases same
      exact List.cons_prefix_cons.2 ⟨rfl, ih behind⟩

theorem IndicesBelow.of_mem_markedTexts (below : IndicesBelow bound text)
    {marked : List Char × List Char} (member : marked ∈ markedTexts text) :
    IndicesBelow bound marked.2 := by
  obtain ⟨line, among, inside⟩ := List.mem_flatMap.1 member
  exact below.withPlainQuotes.of_infix
    (((infix_cutAtMarkers line).2 marked inside).trans (infix_of_mem_lines among))

theorem lt_writeBound_of_readInteger {number : Int} (read : readInteger text = .ok number) :
    number.natAbs < writeBound := by
  unfold readInteger at read
  generalize takeSign (text.dropWhile isNumeralBlank) = signed at read
  obtain ⟨negative, rest⟩ := signed
  dsimp only at read
  split at read
  · cases read
  · split at read
    · cases read
    · rename_i short
      split at read
      · cases read
      · cases read
        have digits := lt_writeBound_of_readDigits (if_pos (Nat.le_of_not_lt short))
        split
        · rw [Int.natAbs_neg, Int.natAbs_natCast]
          exact digits
        · rw [Int.natAbs_natCast]
          exact digits

theorem readOption_ok {option : List Char} {key : ForeachKey} {number : Nat}
    (read : readOption option = .ok (key, number)) : number < writeBound := by
  unfold readOption at read
  dsimp only at read
  split at read
  · split at read
    · cases read
    · rename_i integer found
      split at read
      · cases read
      · cases read
        exact Nat.lt_of_le_of_lt (by omega) (lt_writeBound_of_readInteger found)
  · cases read

theorem kind_of_readOption {option : List Char} {problem : Problem}
    (refused : readOption option = .error problem) : problem.kind = .parse := by
  unfold readOption at refused
  dsimp only at refused
  split at refused
  · split at refused
    · cases refused
      rfl
    · split at refused
      · cases refused
        rfl
      · cases refused
  · cases refused
    rfl

theorem optionNumber_lt (key : ForeachKey) (options : List (List Char)) :
    optionNumber key (options.map fun option => readOption (trim option)) < writeBound := by
  unfold optionNumber
  dsimp only
  cases last : List.getLast? _ with
  | none => exact writeBound_pos
  | some number =>
    obtain ⟨outcome, member, chosen⟩ := List.mem_filterMap.1 (List.mem_of_getLast? last)
    obtain ⟨option, _, read⟩ := List.mem_map.1 member
    subst read
    split at chosen
    · rename_i found other read
      split at chosen
      · cases chosen
        exact readOption_ok read
      · cases chosen
    · cases chosen

theorem exists_readCollection (below : IndicesBelow bound text) (keyword : String) :
    (∃ path : Path, path.WellFormed ∧ path.IndicesBelow bound ∧
        readCollection keyword text = .ok (.ok path.text)) ∨
      ∃ problem : Problem, problem.kind = .parse ∧ readCollection keyword text = .ok (.error problem) := by
  have reads := readable_path below
  unfold readCollection
  cases read : Path.read text with
  | ok path =>
    rw [read] at reads
    exact .inl ⟨path, Path.wellFormed_of_read read, reads, rfl⟩
  | error failure =>
    rw [read] at reads
    cases failure with
    | malformed error => exact .inr ⟨_, rfl, rfl⟩
    | numeral error => exact absurd reads id

theorem settled_of_problem {problem : Problem} (parse : problem.kind = .parse) :
    DirectiveReading.Settled bound ⟨none, [problem]⟩ where
  accepted _ none := nomatch none
  skipped _ := List.cons_ne_nil _ _
  parse := List.forall_mem_singleton.2 parse

theorem settled_of_directive {directive : Directive} {problems : List Problem}
    (holds : directive.IndicesBelow bound) (parse : ∀ problem ∈ problems, problem.kind = .parse) :
    DirectiveReading.Settled bound ⟨some directive, problems⟩ where
  accepted _ same := Option.mem_some.1 same ▸ holds
  skipped none := nomatch none
  parse := parse

theorem exists_readForeach (below : IndicesBelow bound body) :
    ∃ reading, readForeach body = .ok reading ∧ reading.Settled bound := by
  have front := below.of_infix ((infix_trim _).trans (prefix_cutAt ',' body).isInfix)
  unfold readForeach
  dsimp only
  rcases exists_readCollection front "foreach" with ⟨path, wellFormed, indices, read⟩ |
    ⟨problem, parse, read⟩
  · rw [read]
    refine ⟨_, rfl, settled_of_directive ⟨⟨path, wellFormed, indices, rfl⟩, ?_⟩ ?_⟩
    · rintro _ max offset ⟨⟩
      exact optionNumber_lt .max _
    · intro problem member
      obtain ⟨outcome, among, refused⟩ := List.mem_filterMap.1 member
      obtain ⟨option, _, rfl⟩ := List.mem_map.1 among
      split at refused
      · cases refused
      · rename_i noted outcome
        cases refused
        exact kind_of_readOption outcome
  · rw [read]
    exact ⟨_, rfl, settled_of_problem parse⟩

theorem exists_readRange (below : IndicesBelow bound body) (keyword : String)
    (boundary : RangeBoundary) :
    ∃ reading, readRange keyword boundary body = .ok reading ∧ reading.Settled bound := by
  unfold readRange
  rcases exists_readCollection below keyword with ⟨path, wellFormed, indices, read⟩ |
    ⟨problem, parse, read⟩
  · rw [read]
    refine ⟨_, rfl, settled_of_directive ⟨⟨path, wellFormed, indices, rfl⟩, ?_⟩ ?_⟩
    · rintro _ max offset ⟨⟩
    · exact fun _ member => absurd member List.not_mem_nil
  · rw [read]
    exact ⟨_, rfl, settled_of_problem parse⟩

theorem exists_readAlias (below : IndicesBelow bound body) :
    ∃ reading, readAlias body = .ok reading ∧ reading.Settled bound := by
  unfold readAlias
  cases split : splitAlias? body with
  | none => exact ⟨_, rfl, settled_of_problem rfl⟩
  | some parts =>
    obtain ⟨front, name⟩ := parts
    dsimp only
    rcases exists_readCollection (below.of_infix (prefix_of_splitAlias? split).isInfix) "alias" with
      ⟨path, wellFormed, indices, read⟩ | ⟨problem, parse, read⟩
    · rw [read]
      refine ⟨_, rfl, settled_of_directive ⟨⟨path, wellFormed, indices, rfl⟩, ?_⟩ ?_⟩
      · rintro _ max offset ⟨⟩
      · exact fun _ member => absurd member List.not_mem_nil
    · rw [read]
      exact ⟨_, rfl, settled_of_problem parse⟩

/-- A marker whose indices have numerals gives a directive, or is skipped with a note. -/
theorem exists_readDirective (below : IndicesBelow bound body) (keyword : List Char) :
    ∃ reading, readDirective keyword body = .ok reading ∧ reading.Settled bound := by
  have trimmed := below.of_infix (infix_trim body)
  unfold readDirective
  dsimp only
  split
  · exact exists_readForeach trimmed
  · split
    · exact exists_readRange trimmed _ _
    · split
      · exact exists_readRange trimmed _ _
      · split
        · exact exists_readAlias trimmed
        · exact ⟨_, rfl, settled_of_problem rfl⟩

/-- Reading notes whose indices have numerals ends. Each marker gives a directive, or is skipped
with a note. -/
theorem readDirectives_of_indicesBelow (below : IndicesBelow bound text) (slide : Option Int) :
    ∃ found, List.Forall₂ (fun marked reading => readDirective marked.1 marked.2 = .ok reading ∧
        reading.Settled bound) (markedTexts text) found ∧
      readDirectives slide text = .ok (found.filterMap (·.directive),
        (found.flatMap (·.problems)).map fun problem => ⟨problem, slide⟩) := by
  obtain ⟨found, read, settled⟩ := exists_mapM fun marked member =>
    (exists_readDirective (below.of_mem_markedTexts member) marked.1).imp fun _ spec =>
      And.intro spec.1 spec
  refine ⟨found, settled, ?_⟩
  unfold readDirectives
  rw [read]
  rfl

end DeckBinding
