import DeckBinding.Paragraph.Reconciliation
import DeckBinding.Proofs.Expression.Pieces
import Mathlib.Data.List.Pairwise

set_option autoImplicit false

namespace DeckBinding

def runStart (runs : List (List Char)) (position : Nat) : Nat :=
  (runs.take position).flatten.length

theorem runStart_mono (runs : List (List Char)) {left right : Nat} (ordered : left ≤ right) :
    runStart runs left ≤ runStart runs right := by
  unfold runStart
  rw [← List.take_append_drop left (runs.take right), List.take_take, Nat.min_eq_left ordered,
    List.flatten_append, List.length_append]
  omega

theorem runStart_length (runs : List (List Char)) :
    runStart runs runs.length = runs.flatten.length := by
  rw [runStart, List.take_length]

/-- The span of an expression reaches into a run. -/
def Reaches (runs : List (List Char)) (span : Nat × Nat) (position : Nat) : Prop :=
  position < runs.length ∧ span.1 < runStart runs (position + 1) ∧ runStart runs position < span.2

/-- A run stands among the runs that an expression joins: the expression reaches into a run in front
of it and one behind it, one of which it may be. -/
def Joined (runs : List (List Char)) (position : Nat) : Prop :=
  ∃ span ∈ expressionSpans runs.flatten, ∃ first last, first < last ∧
    Reaches runs span first ∧ Reaches runs span last ∧ first ≤ position ∧ position ≤ last

theorem getElem?_runBounds (start : Nat) (runs : List (List Char)) {position : Nat}
    (inside : position < runs.length) :
    (runBounds start runs)[position]? =
      some (start + runStart runs position, start + runStart runs (position + 1)) := by
  induction runs generalizing start position with
  | nil => cases inside
  | cons run rest ih =>
    cases position with
    | zero => simp [runBounds, runStart]
    | succ position =>
      rw [runBounds, List.getElem?_cons_succ, ih _ (Nat.lt_of_succ_lt_succ inside)]
      simp [runStart, Nat.add_assoc]

theorem length_runBounds (start : Nat) (runs : List (List Char)) :
    (runBounds start runs).length = runs.length := by
  induction runs generalizing start with
  | nil => rfl
  | cons run rest ih => simp [runBounds, ih]

theorem mem_coveredRuns {runs : List (List Char)} {span : Nat × Nat} {position : Nat} :
    position ∈ coveredRuns (runBounds 0 runs) span ↔ Reaches runs span position := by
  simp only [coveredRuns, List.mem_map, List.mem_filter, Bool.and_eq_true, decide_eq_true_eq,
    Prod.exists, exists_eq_right, List.mem_zipIdx_iff_getElem?]
  constructor
  · rintro ⟨first, last, here, left, right⟩
    have inside := (List.getElem?_eq_some_iff.1 here).1
    rw [length_runBounds] at inside
    rw [getElem?_runBounds 0 runs inside, Nat.zero_add, Nat.zero_add] at here
    cases here
    exact ⟨inside, left, right⟩
  · rintro ⟨inside, left, right⟩
    have here := getElem?_runBounds 0 runs inside
    rw [Nat.zero_add, Nat.zero_add] at here
    exact ⟨_, _, here, left, right⟩

theorem pairwise_coveredRuns (bounds : List (Nat × Nat)) (span : Nat × Nat) :
    (coveredRuns bounds span).Pairwise (· < ·) := by
  have increasing : (bounds.zipIdx.map (·.2)).Pairwise (· < ·) := by
    rw [List.zipIdx_map_snd]
    exact List.pairwise_lt_range'
  exact increasing.sublist (List.filter_sublist.map _)

/-- The joined runs of a span are the first and the last of those that it reaches. -/
theorem joinedRuns?_eq_some {runs : List (List Char)} {span range : Nat × Nat}
    (found : joinedRuns? (runBounds 0 runs) span = some range) :
    Reaches runs span range.1 ∧ Reaches runs span range.2 ∧ range.1 < range.2 ∧
      ∀ position, Reaches runs span position → range.1 ≤ position ∧ position ≤ range.2 := by
  have increasing := pairwise_coveredRuns (runBounds 0 runs) span
  have member (position : Nat) := @mem_coveredRuns runs span position
  unfold joinedRuns? at found
  split at found
  · rename_i first second more covered
    cases found
    rw [covered] at increasing
    simp only [covered] at member
    obtain ⟨below, rest⟩ := List.pairwise_cons.1 increasing
    have last : (second :: more).getLastD second = (second :: more).getLast (List.cons_ne_nil _ _) := by
      rw [List.getLastD_eq_getLast?, List.getLast?_eq_some_getLast (List.cons_ne_nil _ _)]
      rfl
    have among : (second :: more).getLastD second ∈ second :: more := by
      rw [last]
      exact List.getLast_mem _
    refine ⟨(member _).1 List.mem_cons_self, (member _).1 (List.mem_cons_of_mem _ among),
      below _ among, ?_⟩
    intro position reaches
    rcases List.mem_cons.1 ((member position).2 reaches) with rfl | later
    · exact ⟨Nat.le_refl _, Nat.le_of_lt (below _ among)⟩
    · refine ⟨Nat.le_of_lt (below _ later), ?_⟩
      dsimp only
      rw [last]
      have ascending : (second :: more).Pairwise (· ≤ ·) := rest.imp Nat.le_of_lt
      exact ascending.rel_getLast later
  · cases found

theorem exists_joinedRuns? {runs : List (List Char)} {span : Nat × Nat} {left right : Nat}
    (apart : left < right) (first : Reaches runs span left) (second : Reaches runs span right) :
    ∃ range, joinedRuns? (runBounds 0 runs) span = some range := by
  have memberLeft := mem_coveredRuns.2 first
  have memberRight := mem_coveredRuns.2 second
  unfold joinedRuns?
  split
  · exact ⟨_, rfl⟩
  · rename_i short
    rcases covered : coveredRuns (runBounds 0 runs) span with _ | ⟨one, _ | ⟨two, more⟩⟩
    · rw [covered] at memberLeft
      cases memberLeft
    · rw [covered, List.mem_singleton] at memberLeft memberRight
      omega
    · exact (short _ _ _ covered).elim

/-- Spans in order have their first runs in order. -/
theorem joinedRuns?_ordered {runs : List (List Char)} {left right range next : Nat × Nat}
    (bounds : left.1 < left.2) (apart : left.2 ≤ right.1)
    (found : joinedRuns? (runBounds 0 runs) left = some range)
    (foundNext : joinedRuns? (runBounds 0 runs) right = some next) : range.1 ≤ next.1 := by
  obtain ⟨reaches, _, _, extreme⟩ := joinedRuns?_eq_some found
  obtain ⟨reachesNext, _, _, _⟩ := joinedRuns?_eq_some foundNext
  by_contra behind
  have order := runStart_mono runs (show next.1 + 1 ≤ range.1 by omega)
  have order' := runStart_mono runs (Nat.le_add_right next.1 1)
  have covered : Reaches runs left next.1 := by
    obtain ⟨inside, _, _⟩ := reachesNext
    obtain ⟨_, _, _⟩ := reaches
    exact ⟨inside, by omega, by omega⟩
  have first := (extreme _ covered).1
  omega

/-- A position where an expression goes on is one that the expression reaches on both sides. -/
theorem reaches_of_crossed {runs : List (List Char)} {span : Nat × Nat} {position : Nat}
    (inside : position < runs.length) (before : span.1 < runStart runs position)
    (after : runStart runs position < span.2) :
    ∃ previous, position = previous + 1 ∧ Reaches runs span previous ∧ Reaches runs span position := by
  cases position with
  | zero => cases before
  | succ previous =>
    have order := runStart_mono runs (Nat.le_add_right previous 1)
    have order' := runStart_mono runs (Nat.le_add_right (previous + 1) 1)
    refine ⟨previous, rfl, ⟨by omega, before, by omega⟩, ⟨inside, by omega, after⟩⟩

/-- A position lies in a range, its ends included. -/
def InRange (range : Nat × Nat) (position : Nat) : Prop :=
  range.1 ≤ position ∧ position ≤ range.2

theorem absorb_start {range : Nat × Nat} {rest : List (Nat × Nat)}
    (ascend : StartsAscend (range :: rest)) :
    ∀ merged ∈ mergeRanges.absorb range rest, range.1 ≤ merged.1 := by
  induction rest generalizing range with
  | nil =>
    intro merged member
    rw [mergeRanges.absorb, List.mem_singleton] at member
    rw [member]
  | cons next rest ih =>
    obtain ⟨first, ascendRest⟩ := List.pairwise_cons.1 ascend
    intro merged member
    rw [mergeRanges.absorb] at member
    split at member
    · exact ih (ascend.join (max next.2 range.2)) merged member
    · rcases List.mem_cons.1 member with rfl | later
      · exact Nat.le_refl _
      · exact Nat.le_trans (first next List.mem_cons_self) (ih ascendRest merged later)

/-- Joined ranges share no position. -/
theorem absorb_apart {range : Nat × Nat} {rest : List (Nat × Nat)}
    (ascend : StartsAscend (range :: rest)) :
    (mergeRanges.absorb range rest).Pairwise fun left right => left.2 < right.1 := by
  induction rest generalizing range with
  | nil => exact List.pairwise_singleton _ _
  | cons next rest ih =>
    obtain ⟨_, ascendRest⟩ := List.pairwise_cons.1 ascend
    rw [mergeRanges.absorb]
    split
    · exact ih (ascend.join _)
    · rename_i apart
      refine List.pairwise_cons.2 ⟨?_, ih ascendRest⟩
      intro merged member
      have start := absorb_start ascendRest merged member
      omega

/-- Every range goes into a joined one. -/
theorem absorb_cover {range : Nat × Nat} {rest : List (Nat × Nat)}
    (ascend : StartsAscend (range :: rest)) :
    ∀ other ∈ range :: rest, ∃ merged ∈ mergeRanges.absorb range rest,
      merged.1 ≤ other.1 ∧ other.2 ≤ merged.2 := by
  induction rest generalizing range with
  | nil =>
    intro other member
    exact ⟨other, member, Nat.le_refl _, Nat.le_refl _⟩
  | cons next rest ih =>
    obtain ⟨first, ascendRest⟩ := List.pairwise_cons.1 ascend
    intro other member
    rw [mergeRanges.absorb]
    split
    · have joined := ascend.join (max next.2 range.2)
      obtain ⟨union, among, start, stop⟩ := ih joined _ List.mem_cons_self
      dsimp only at start stop
      rcases List.mem_cons.1 member with rfl | later
      · exact ⟨union, among, start, by omega⟩
      · rcases List.mem_cons.1 later with rfl | later
        · have behind := first other List.mem_cons_self
          exact ⟨union, among, by omega, by omega⟩
        · exact ih joined other (List.mem_cons_of_mem _ later)
    · rcases List.mem_cons.1 member with rfl | later
      · exact ⟨other, List.mem_cons_self, Nat.le_refl _, Nat.le_refl _⟩
      · obtain ⟨merged, among, bounds⟩ := ih ascendRest other later
        exact ⟨merged, List.mem_cons_of_mem _ among, bounds⟩

/-- A joined range holds no position that no range held. -/
theorem absorb_exact {range : Nat × Nat} {rest : List (Nat × Nat)} :
    ∀ merged ∈ mergeRanges.absorb range rest, ∀ position, InRange merged position →
      ∃ other ∈ range :: rest, InRange other position := by
  induction rest generalizing range with
  | nil =>
    intro merged member position inside
    exact ⟨merged, member, inside⟩
  | cons next rest ih =>
    intro merged member position inside
    rw [mergeRanges.absorb] at member
    split at member
    · rename_i touching
      obtain ⟨other, among, within⟩ := ih merged member position inside
      rcases List.mem_cons.1 among with rfl | later
      · obtain ⟨start, stop⟩ := within
        dsimp only at start stop
        by_cases early : position ≤ range.2
        · exact ⟨range, List.mem_cons_self, start, early⟩
        · exact ⟨next, List.mem_cons_of_mem _ List.mem_cons_self, by omega, by omega⟩
      · exact ⟨other, List.mem_cons_of_mem _ (List.mem_cons_of_mem _ later), within⟩
    · rcases List.mem_cons.1 member with rfl | later
      · exact ⟨merged, List.mem_cons_self, inside⟩
      · obtain ⟨other, among, within⟩ := ih merged later position inside
        exact ⟨other, List.mem_cons_of_mem _ among, within⟩

/-- A joined range starts where a range starts, and ends where a range ends that is no shorter. -/
theorem absorb_ends {range : Nat × Nat} {rest : List (Nat × Nat)} {size : Nat}
    (proper : ∀ other ∈ range :: rest, other.1 < other.2 ∧ other.2 < size) :
    ∀ merged ∈ mergeRanges.absorb range rest, merged.1 < merged.2 ∧ merged.2 < size := by
  induction rest generalizing range with
  | nil =>
    intro merged member
    exact proper merged member
  | cons next rest ih =>
    have first := proper range List.mem_cons_self
    have second := proper next (List.mem_cons_of_mem _ List.mem_cons_self)
    intro merged member
    rw [mergeRanges.absorb] at member
    split at member
    · refine ih ?_ merged member
      intro other among
      rcases List.mem_cons.1 among with rfl | later
      · dsimp only
        omega
      · exact proper other (List.mem_cons_of_mem _ (List.mem_cons_of_mem _ later))
    · rcases List.mem_cons.1 member with rfl | later
      · exact first
      · exact ih (fun other among => proper other (List.mem_cons_of_mem _ among)) merged later

def joinedRanges (runs : List (List Char)) : List (Nat × Nat) :=
  mergeRanges ((expressionSpans runs.flatten).filterMap (joinedRuns? (runBounds 0 runs)))

theorem startsAscend_joinedRuns? (runs : List (List Char)) :
    StartsAscend ((expressionSpans runs.flatten).filterMap (joinedRuns? (runBounds 0 runs))) := by
  obtain ⟨inside, apart⟩ := pairwise_spansFrom 0 (pieces runs.flatten)
  have both : (expressionSpans runs.flatten).Pairwise fun left right =>
      left.1 < left.2 ∧ left.2 ≤ right.1 := by
    refine List.Pairwise.imp_of_mem ?_ apart
    exact fun member _ behind => ⟨(inside _ member).2.1, behind⟩
  rw [StartsAscend, List.pairwise_filterMap]
  refine both.imp ?_
  rintro left right ⟨bounds, behind⟩ range found next foundNext
  exact joinedRuns?_ordered bounds behind found foundNext

/-- What is known of the ranges of joined runs: each holds several runs and no other shares one with
it, they hold exactly joined runs, and an expression stays within one of them. -/
structure RangesFit (runs : List (List Char)) (ranges : List (Nat × Nat)) : Prop where
  proper : ∀ range ∈ ranges, range.1 < range.2 ∧ range.2 < runs.length
  apart : ranges.Pairwise fun left right => left.2 < right.1
  joined : ∀ range ∈ ranges, ∀ position, InRange range position → Joined runs position
  uncrossed : ∀ position < runs.length,
    (∀ range ∈ ranges, ¬ (range.1 < position ∧ position ≤ range.2)) →
    Uncrossed runs.flatten (runStart runs position)

theorem proper_of_joinedRuns? {runs : List (List Char)} {range : Nat × Nat}
    (member : range ∈ (expressionSpans runs.flatten).filterMap (joinedRuns? (runBounds 0 runs))) :
    range.1 < range.2 ∧ range.2 < runs.length := by
  obtain ⟨span, _, found⟩ := List.mem_filterMap.1 member
  obtain ⟨_, last, ordered, _⟩ := joinedRuns?_eq_some found
  exact ⟨ordered, last.1⟩

theorem joined_of_joinedRuns? {runs : List (List Char)} {range : Nat × Nat} {position : Nat}
    (member : range ∈ (expressionSpans runs.flatten).filterMap (joinedRuns? (runBounds 0 runs)))
    (inside : InRange range position) : Joined runs position := by
  obtain ⟨span, among, found⟩ := List.mem_filterMap.1 member
  obtain ⟨first, last, ordered, _⟩ := joinedRuns?_eq_some found
  exact ⟨span, among, range.1, range.2, ordered, first, last, inside.1, inside.2⟩

/-- An expression that goes on over the start of a run joins it with the run in front of it. -/
theorem joinedRuns?_of_crossed {runs : List (List Char)} {span : Nat × Nat} {position : Nat}
    (member : span ∈ expressionSpans runs.flatten) (inside : position < runs.length)
    (before : span.1 < runStart runs position) (after : runStart runs position < span.2) :
    ∃ range ∈ (expressionSpans runs.flatten).filterMap (joinedRuns? (runBounds 0 runs)),
      range.1 < position ∧ position ≤ range.2 := by
  obtain ⟨previous, rfl, first, second⟩ := reaches_of_crossed inside before after
  obtain ⟨range, found⟩ := exists_joinedRuns? (Nat.lt_succ_self previous) first second
  obtain ⟨_, _, _, extreme⟩ := joinedRuns?_eq_some found
  have low := extreme _ first
  have high := extreme _ second
  exact ⟨range, List.mem_filterMap.2 ⟨span, member, found⟩, by omega, high.2⟩

theorem joinedRanges_fit (runs : List (List Char)) : RangesFit runs (joinedRanges runs) := by
  have ascend := startsAscend_joinedRuns? runs
  have proper := @proper_of_joinedRuns? runs
  have joined := @joined_of_joinedRuns? runs
  have crossed := @joinedRuns?_of_crossed runs
  unfold joinedRanges
  cases listed : (expressionSpans runs.flatten).filterMap (joinedRuns? (runBounds 0 runs)) with
  | nil =>
    rw [listed] at crossed
    refine ⟨by simp [mergeRanges], by simp [mergeRanges], by simp [mergeRanges], ?_⟩
    intro position inside _ span member
    by_contra long
    obtain ⟨range, among, _⟩ := crossed member inside (by omega) (by omega)
    cases among
  | cons range rest =>
    rw [listed] at ascend proper joined crossed
    refine ⟨absorb_ends fun other among => proper among, absorb_apart ascend, ?_, ?_⟩
    · intro merged member position inside
      obtain ⟨other, among, within⟩ := absorb_exact merged member position inside
      exact joined among within
    · intro position inside free span member
      by_contra long
      obtain ⟨other, among, start, stop⟩ := crossed member inside (by omega) (by omega)
      obtain ⟨merged, union, low, high⟩ := absorb_cover ascend other among
      exact free merged union ⟨by omega, by omega⟩

end DeckBinding
