import DeckBinding.Proofs.Paragraph.Ranges

set_option autoImplicit false

namespace DeckBinding

def RunGroup.runs : RunGroup → List (List Char)
  | .kept run => [run]
  | .alone run => [run]
  | .joined runs => runs

/-- The groups of the runs from a position on. -/
inductive Grouping (runs : List (List Char)) : Nat → List RunGroup → Prop where
  | done : Grouping runs runs.length []
  | kept {position : Nat} {run : List Char} {rest : List RunGroup}
      (here : runs[position]? = some run)
      (uncrossed : Uncrossed runs.flatten (runStart runs position))
      (bare : expressionSpans run = []) (more : Grouping runs (position + 1) rest) :
      Grouping runs position (.kept run :: rest)
  | alone {position : Nat} {run : List Char} {rest : List RunGroup}
      (here : runs[position]? = some run)
      (uncrossed : Uncrossed runs.flatten (runStart runs position))
      (more : Grouping runs (position + 1) rest) :
      Grouping runs position (.alone run :: rest)
  | joined {first last : Nat} {rest : List RunGroup} (ordered : first ≤ last)
      (inside : last < runs.length)
      (uncrossed : Uncrossed runs.flatten (runStart runs first))
      (joins : ∀ position, first ≤ position → position ≤ last → Joined runs position)
      (more : Grouping runs (last + 1) rest) :
      Grouping runs first (.joined ((runs.drop first).take (last + 1 - first)) :: rest)

namespace Grouping

variable {runs : List (List Char)} {position : Nat} {groups : List RunGroup}

/-- The groups hold the runs, in order. -/
theorem flatMap_runs (grouping : Grouping runs position groups) :
    groups.flatMap RunGroup.runs = runs.drop position := by
  induction grouping with
  | done => simp
  | kept here _ _ _ ih =>
    obtain ⟨inside, rfl⟩ := List.getElem?_eq_some_iff.1 here
    rw [List.flatMap_cons, ih, List.drop_eq_getElem_cons inside]
    rfl
  | alone here _ _ ih =>
    obtain ⟨inside, rfl⟩ := List.getElem?_eq_some_iff.1 here
    rw [List.flatMap_cons, ih, List.drop_eq_getElem_cons inside]
    rfl
  | @joined first last rest ordered inside _ _ _ ih =>
    rw [List.flatMap_cons, ih, RunGroup.runs]
    have split := List.take_append_drop (last + 1 - first) (runs.drop first)
    rw [List.drop_drop, Nat.add_sub_cancel' (by omega)] at split
    exact split

theorem uncrossed (grouping : Grouping runs position groups) :
    Uncrossed runs.flatten (runStart runs position) := by
  cases grouping with
  | done =>
    intro span member
    rw [runStart_length]
    exact .inl (mem_expressionSpans member).2
  | kept _ uncrossed => exact uncrossed
  | alone _ uncrossed => exact uncrossed
  | joined _ _ uncrossed => exact uncrossed

end Grouping

/-- The pieces of runs between two positions that no expression goes over. -/
theorem pieces_drop {runs : List (List Char)} {start stop : Nat} (ordered : start ≤ stop)
    (first : Uncrossed runs.flatten (runStart runs start))
    (second : Uncrossed runs.flatten (runStart runs stop)) :
    pieces (runs.drop start).flatten =
      pieces ((runs.drop start).take (stop - start)).flatten ++ pieces (runs.drop stop).flatten := by
  have whole : (runs.take start).flatten ++ (runs.drop start).flatten = runs.flatten := by
    rw [← List.flatten_append, List.take_append_drop]
  have split : ((runs.drop start).take (stop - start)).flatten ++ (runs.drop stop).flatten =
      (runs.drop start).flatten := by
    have rejoined := List.take_append_drop (stop - start) (runs.drop start)
    rw [List.drop_drop, Nat.add_sub_cancel' ordered] at rejoined
    rw [← List.flatten_append, rejoined]
  have distance : runStart runs stop =
      (runs.take start).flatten.length + ((runs.drop start).take (stop - start)).flatten.length := by
    have taken : runs.take stop = runs.take start ++ (runs.drop start).take (stop - start) := by
      rw [← List.take_add, Nat.add_sub_cancel' ordered]
    rw [runStart, taken, List.flatten_append, List.length_append]
  rw [← whole, runStart] at first
  rw [← whole, distance] at second
  have inner := first.of_append second
  rw [← split] at inner ⊢
  exact pieces_append inner

namespace Grouping

/-- The pieces of the runs are those of their groups. -/
theorem pieces_eq {runs : List (List Char)} {position : Nat} {groups : List RunGroup}
    (grouping : Grouping runs position groups) :
    pieces (runs.drop position).flatten = groups.flatMap fun group => pieces group.runs.flatten := by
  have single {run : List Char} {position : Nat} (here : runs[position]? = some run) :
      (runs.drop position).take (position + 1 - position) = [run] := by
    obtain ⟨inside, rfl⟩ := List.getElem?_eq_some_iff.1 here
    rw [List.drop_eq_getElem_cons inside, Nat.add_sub_cancel_left]
    rfl
  induction grouping with
  | done => simp
  | kept here uncrossed bare more ih =>
    rw [pieces_drop (Nat.le_succ _) uncrossed more.uncrossed, single here, ih]
    rfl
  | alone here uncrossed more ih =>
    rw [pieces_drop (Nat.le_succ _) uncrossed more.uncrossed, single here, ih]
    rfl
  | @joined first last rest ordered inside uncrossed joins more ih =>
    rw [pieces_drop (Nat.le_succ_of_le ordered) uncrossed more.uncrossed, ih]
    rfl

end Grouping

theorem expressionSpans_of_opensExpression {cs : List Char} (closed : opensExpression cs = false) :
    expressionSpans cs = [] := by
  have bare (start : Nat) : spansFrom start (pieces cs) = [] := by
    induction cs generalizing start with
    | nil => simp [spansFrom]
    | cons c rest ih =>
      have absent : takeExpression? (c :: rest) = none := by
        by_contra present
        obtain ⟨⟨body, after⟩, found⟩ := Option.ne_none_iff_exists'.1 present
        rw [text_of_takeExpression? found, braced] at closed
        simp [opensExpression] at closed
      have closedRest : opensExpression rest = false := by
        unfold opensExpression at closed
        split at closed
        · cases closed
        · rename_i same
          cases same
          exact closed
        · rename_i same
          cases same
      rw [pieces_cons_of_none absent, spansFrom, ih closedRest]
  exact bare 0

def groupsAt (runs : List (List Char)) (ranges : List (Nat × Nat)) :
    List Char × Nat → List RunGroup
  | (run, position) =>
    match ranges.find? fun (first, last) => first ≤ position && position ≤ last with
    | some (first, last) =>
      if first = position then [.joined ((runs.drop first).take (last + 1 - first))] else []
    | none => if opensExpression run then [.alone run] else [.kept run]

theorem runGroups_eq (runs : List (List Char)) :
    runGroups runs =
      if (expressionSpans runs.flatten).isEmpty then runs.map .kept
      else runs.zipIdx.flatMap (groupsAt runs (joinedRanges runs)) := rfl

section Ranges

variable {runs : List (List Char)} {ranges : List (Nat × Nat)}

theorem find?_range (fit : RangesFit runs ranges) {range : Nat × Nat} (member : range ∈ ranges)
    {position : Nat} (inside : InRange range position) :
    (ranges.find? fun (first, last) => first ≤ position && position ≤ last) = some range := by
  obtain ⟨start, stop⟩ := inside
  rw [List.find?_eq_some_iff_append]
  obtain ⟨front, back, rfl⟩ := List.append_of_mem member
  refine ⟨by simp [start, stop], front, back, rfl, ?_⟩
  intro other earlier
  have apart := (List.pairwise_append.1 fit.apart).2.2 other earlier range List.mem_cons_self
  simp only [Bool.not_eq_true', Bool.and_eq_false_iff, decide_eq_false_iff_not]
  omega

theorem groupsAt_first (fit : RangesFit runs ranges) {range : Nat × Nat} (member : range ∈ ranges)
    (run : List Char) :
    groupsAt runs ranges (run, range.1) =
      [.joined ((runs.drop range.1).take (range.2 + 1 - range.1))] := by
  have proper := fit.proper range member
  have found := find?_range fit member ⟨Nat.le_refl _, Nat.le_of_lt proper.1⟩
  rw [groupsAt, found]
  simp

theorem groupsAt_later (fit : RangesFit runs ranges) {range : Nat × Nat} (member : range ∈ ranges)
    {position : Nat} (behind : range.1 < position) (inside : position ≤ range.2) (run : List Char) :
    groupsAt runs ranges (run, position) = [] := by
  have found := find?_range fit member ⟨Nat.le_of_lt behind, inside⟩
  rw [groupsAt, found]
  simp only [Nat.ne_of_lt behind, if_false]

theorem groupsAt_free {position : Nat} (free : ∀ range ∈ ranges, ¬ InRange range position)
    (run : List Char) :
    groupsAt runs ranges (run, position) =
      if opensExpression run then [.alone run] else [.kept run] := by
  have absent : (ranges.find? fun (first, last) => first ≤ position && position ≤ last) = none := by
    rw [List.find?_eq_none]
    intro range member
    have outside := free range member
    simpa [InRange] using outside
  rw [groupsAt, absent]

/-- The runs of a range make one group, which the first of them starts. -/
theorem flatMap_groupsAt_range (fit : RangesFit runs ranges) {range : Nat × Nat}
    (member : range ∈ ranges) :
    ((runs.drop range.1).zipIdx range.1).flatMap (groupsAt runs ranges) =
      .joined ((runs.drop range.1).take (range.2 + 1 - range.1)) ::
        ((runs.drop (range.2 + 1)).zipIdx (range.2 + 1)).flatMap (groupsAt runs ranges) := by
  obtain ⟨ordered, inside⟩ := fit.proper range member
  have split : runs.drop range.1 =
      runs[range.1] :: ((runs.drop (range.1 + 1)).take (range.2 - range.1) ++
        runs.drop (range.2 + 1)) := by
    rw [List.drop_eq_getElem_cons (by omega)]
    have rejoined := List.take_append_drop (range.2 - range.1) (runs.drop (range.1 + 1))
    rw [List.drop_drop, show range.1 + 1 + (range.2 - range.1) = range.2 + 1 by omega] at rejoined
    rw [rejoined]
  have size : ((runs.drop (range.1 + 1)).take (range.2 - range.1)).length =
      range.2 - range.1 := by
    rw [List.length_take, List.length_drop]
    omega
  have silent : (((runs.drop (range.1 + 1)).take (range.2 - range.1)).zipIdx
      (range.1 + 1)).flatMap (groupsAt runs ranges) = [] := by
    rw [List.flatMap_eq_nil_iff]
    rintro ⟨run, position⟩ among
    obtain ⟨above, below, _⟩ := List.mem_zipIdx among
    rw [size] at below
    exact groupsAt_later fit member (by omega) (by omega) run
  have first := groupsAt_first fit member runs[range.1]
  conv =>
    lhs
    rw [split, List.zipIdx_cons, List.flatMap_cons, List.zipIdx_append, List.flatMap_append,
      silent, size, List.nil_append, first, List.singleton_append,
      show range.1 + 1 + (range.2 - range.1) = range.2 + 1 by omega]

/-- From a position that no range goes over, the groups follow one another. -/
theorem grouping_zipIdx (fit : RangesFit runs ranges) {position : Nat}
    (bound : position ≤ runs.length)
    (free : ∀ range ∈ ranges, ¬ (range.1 < position ∧ position ≤ range.2)) :
    Grouping runs position
      (((runs.drop position).zipIdx position).flatMap (groupsAt runs ranges)) := by
  obtain ⟨left, same⟩ : ∃ left, left = runs.length - position := ⟨_, rfl⟩
  induction left using Nat.strongRecOn generalizing position with
  | ind left ih =>
    by_cases atEnd : position = runs.length
    · subst atEnd
      rw [List.drop_length]
      exact .done
    · have inside : position < runs.length := by omega
      have here : runs[position]? = some runs[position] := List.getElem?_eq_getElem inside
      have uncrossed := fit.uncrossed position inside free
      by_cases among : ∃ range ∈ ranges, InRange range position
      · obtain ⟨range, member, within⟩ := among
        have start : range.1 = position := by
          have notOver := free range member
          obtain ⟨low, high⟩ := within
          omega
        subst start
        obtain ⟨ordered, last⟩ := fit.proper range member
        rw [flatMap_groupsAt_range fit member]
        refine .joined (Nat.le_of_lt ordered) last uncrossed ?_ (ih _ ?_ last ?_ rfl)
        · exact fun position low high => fit.joined range member position ⟨low, high⟩
        · omega
        · rintro other memberOther ⟨low, high⟩
          have same := find?_range fit memberOther ⟨Nat.le_of_lt_succ low, Nat.le_of_lt high⟩
          rw [find?_range fit member ⟨Nat.le_of_lt ordered, Nat.le_refl _⟩] at same
          cases same
          omega
      · have outside : ∀ range ∈ ranges, ¬ InRange range position :=
          fun range member within => among ⟨range, member, within⟩
        have more := ih (runs.length - (position + 1)) (by omega) inside
          (fun range member long => outside range member ⟨by omega, by omega⟩) rfl
        rw [List.drop_eq_getElem_cons inside, List.zipIdx_cons, List.flatMap_cons,
          groupsAt_free outside]
        cases opens : opensExpression runs[position] with
        | true => exact .alone here uncrossed more
        | false => exact .kept here uncrossed (expressionSpans_of_opensExpression opens) more

end Ranges

theorem expressionSpans_of_getElem {runs : List (List Char)}
    (bare : expressionSpans runs.flatten = []) {position : Nat} (inside : position < runs.length) :
    expressionSpans runs[position] = [] := by
  have uncrossed (place : Nat) : Uncrossed runs.flatten (runStart runs place) := by
    intro span member
    rw [bare] at member
    cases member
  have here : (runs.drop position).take (position + 1 - position) = [runs[position]] := by
    rw [List.drop_eq_getElem_cons inside, Nat.add_sub_cancel_left]
    rfl
  have front := pieces_drop (Nat.zero_le position) (uncrossed 0) (uncrossed position)
  have back := pieces_drop (Nat.le_succ position) (uncrossed position) (uncrossed (position + 1))
  rw [here, List.flatten_singleton] at back
  rw [expressionSpans_eq_nil_iff] at bare ⊢
  intro body member
  refine bare body ?_
  rw [List.drop_zero] at front
  rw [front, back]
  exact List.mem_append_right _ (List.mem_append_left _ member)

/-- In a paragraph without expressions every run is a group of its own. -/
theorem grouping_kept {runs : List (List Char)} (bare : expressionSpans runs.flatten = [])
    {position : Nat} (bound : position ≤ runs.length) :
    Grouping runs position ((runs.drop position).map .kept) := by
  have uncrossed (place : Nat) : Uncrossed runs.flatten (runStart runs place) := by
    intro span member
    rw [bare] at member
    cases member
  obtain ⟨left, same⟩ : ∃ left, left = runs.length - position := ⟨_, rfl⟩
  induction left generalizing position with
  | zero =>
    obtain rfl : position = runs.length := by omega
    rw [List.drop_length]
    exact .done
  | succ left ih =>
    have inside : position < runs.length := by omega
    have empty := expressionSpans_of_getElem bare inside
    rw [List.drop_eq_getElem_cons inside, List.map_cons]
    exact .kept (List.getElem?_eq_getElem inside) (uncrossed position) empty (ih inside (by omega))

theorem grouping_runGroups (runs : List (List Char)) : Grouping runs 0 (runGroups runs) := by
  rw [runGroups_eq]
  split
  · rename_i bare
    exact grouping_kept (List.isEmpty_iff.1 bare) (Nat.zero_le _)
  · refine grouping_zipIdx (joinedRanges_fit runs) (Nat.zero_le _) ?_
    rintro range _ ⟨below, _⟩
    cases below

end DeckBinding
