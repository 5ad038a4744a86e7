import DeckBinding.Paragraph.Redistribution
import Mathlib.Data.List.Basic

set_option autoImplicit false

namespace DeckBinding

open DeckBinding.Number

/-- No span has a position strictly inside. -/
def Clear (spans : List (Int × Int)) (position : Int) : Prop :=
  ∀ span ∈ spans, position ≤ span.1 ∨ span.2 ≤ position

/-- Spans in order between two positions, each behind the one in front of it. -/
inductive Ordered (size : Int) : Int → List (Int × Int) → Prop where
  | nil {start : Int} (inside : start ≤ size) : Ordered size start []
  | cons {start first stop : Int} {rest : List (Int × Int)} (behind : start ≤ first)
      (forward : first ≤ stop) (more : Ordered size stop rest) :
      Ordered size start ((first, stop) :: rest)

theorem Ordered.start_le {size start : Int} {spans : List (Int × Int)}
    (ordered : Ordered size start spans) : start ≤ size := by
  induction ordered with
  | nil inside => exact inside
  | cons behind forward more ih => omega

theorem Ordered.mem {size start : Int} {spans : List (Int × Int)}
    (ordered : Ordered size start spans) :
    ∀ span ∈ spans, start ≤ span.1 ∧ span.1 ≤ span.2 ∧ span.2 ≤ size := by
  induction ordered with
  | nil inside => simp
  | cons behind forward more ih =>
    rintro span member
    rcases List.mem_cons.1 member with rfl | later
    · exact ⟨behind, forward, more.start_le⟩
    · have bounds := ih span later
      omega

theorem Ordered.weaken {size start before : Int} {spans : List (Int × Int)}
    (ordered : Ordered size start spans) (earlier : before ≤ start) : Ordered size before spans := by
  cases ordered with
  | nil inside => exact .nil (Int.le_trans earlier inside)
  | cons behind forward more => exact .cons (Int.le_trans earlier behind) forward more

/-- Both ends of a span are clear of all spans. -/
theorem Ordered.clear_ends {size start : Int} {spans : List (Int × Int)}
    (ordered : Ordered size start spans) :
    ∀ span ∈ spans, Clear spans span.1 ∧ Clear spans span.2 := by
  induction ordered with
  | nil inside => simp
  | @cons start first stop rest behind forward more ih =>
    have later : ∀ span ∈ rest, stop ≤ span.1 ∧ span.1 ≤ span.2 := fun span member =>
      ⟨(more.mem span member).1, (more.mem span member).2.1⟩
    intro span member
    rcases List.mem_cons.1 member with rfl | inside
    · constructor
      · intro other among
        rcases List.mem_cons.1 among with rfl | among
        · exact .inl (Int.le_refl _)
        · exact .inl (Int.le_trans forward (later other among).1)
      · intro other among
        rcases List.mem_cons.1 among with rfl | among
        · exact .inr (Int.le_refl _)
        · exact .inl (later other among).1
    · have bounds := later span inside
      constructor
      · intro other among
        rcases List.mem_cons.1 among with rfl | among
        · exact .inr bounds.1
        · exact (ih span inside).1 other among
      · intro other among
        rcases List.mem_cons.1 among with rfl | among
        · exact .inr (Int.le_trans bounds.1 bounds.2)
        · exact (ih span inside).2 other among

theorem clear_pushOut {size start : Int} {spans : List (Int × Int)}
    (ordered : Ordered size start spans) (position : Int) :
    Clear spans (pushOut spans position) := by
  unfold pushOut
  split
  · rename_i first stop found
    exact (ordered.clear_ends _ (List.mem_of_find?_eq_some found)).2
  · rename_i none
    intro span member
    have apart := List.find?_eq_none.1 none span member
    simp only [Bool.and_eq_true, decide_eq_true_eq, not_and, Int.not_lt] at apart
    by_cases before : span.1 < position
    · exact .inr (apart before)
    · exact .inl (Int.not_lt.1 before)

/-- Spans in order of their starts between two positions: one that holds some character lies behind
all in front of it, and an empty one may also stand inside of them. -/
inductive Sorted (size : Int) : Int → List (Int × Int) → Prop where
  | nil {start : Int} (inside : start ≤ size) : Sorted size start []
  | value {start first stop : Int} {rest : List (Int × Int)} (behind : start ≤ first)
      (forward : first < stop) (more : Sorted size stop rest) :
      Sorted size start ((first, stop) :: rest)
  | empty {start place : Int} {rest : List (Int × Int)} (more : Sorted size (max start place) rest) :
      Sorted size start ((place, place) :: rest)

/-- The spans that hold some character. -/
def properSpans (spans : List (Int × Int)) : List (Int × Int) :=
  spans.filter fun (start, stop) => start < stop

theorem Ordered.sorted {size start : Int} {spans : List (Int × Int)}
    (ordered : Ordered size start spans) : Sorted size start spans := by
  induction ordered with
  | nil inside => exact .nil inside
  | @cons start first stop rest behind forward more ih =>
    rcases Int.lt_or_eq_of_le forward with proper | rfl
    · exact .value behind proper ih
    · refine .empty ?_
      rwa [Int.max_eq_right behind]

namespace Sorted

variable {size start : Int} {spans : List (Int × Int)}

theorem start_le (sorted : Sorted size start spans) : start ≤ size := by
  induction sorted with
  | nil inside => exact inside
  | value behind forward more ih => omega
  | empty more ih => omega

theorem mem (sorted : Sorted size start spans) :
    ∀ span ∈ spans, span.1 ≤ span.2 ∧ span.2 ≤ size ∧ (start ≤ span.1 ∨ span.1 = span.2) := by
  induction sorted with
  | nil inside => simp
  | value behind forward more ih =>
    have bound := more.start_le
    rintro span member
    rcases List.mem_cons.1 member with rfl | later
    · dsimp only
      omega
    · have bounds := ih span later
      omega
  | empty more ih =>
    have bound := more.start_le
    rintro span member
    rcases List.mem_cons.1 member with rfl | later
    · dsimp only
      omega
    · have bounds := ih span later
      omega

theorem ordered (sorted : Sorted size start spans) : Ordered size start (properSpans spans) := by
  induction sorted with
  | nil inside => exact .nil inside
  | value behind forward more ih =>
    rw [properSpans, List.filter_cons_of_pos (by simpa using forward)]
    exact .cons behind (Int.le_of_lt forward) ih
  | empty more ih =>
    rw [properSpans, List.filter_cons_of_neg (by simp)]
    exact ih.weaken (Int.le_max_left _ _)

/-- No position lies strictly inside an empty span. -/
theorem clear_properSpans_iff (sorted : Sorted size start spans) {position : Int} :
    Clear (properSpans spans) position ↔ Clear spans position := by
  constructor
  · intro clear span member
    by_cases proper : span.1 < span.2
    · exact clear span (List.mem_filter.2 ⟨member, by simpa using proper⟩)
    · have bounds := sorted.mem span member
      omega
  · exact fun clear span member => clear span (List.mem_of_mem_filter member)

theorem clear_size (sorted : Sorted size start spans) : Clear spans size :=
  fun span member => .inr (sorted.mem span member).2.1

theorem clear_pushOut (sorted : Sorted size start spans) (position : Int) :
    Clear spans (pushOut spans position) := by
  -- The span that the position is pushed out of holds some character
  have pushed : pushOut (properSpans spans) position = pushOut spans position := by
    unfold pushOut properSpans
    rw [List.find?_filter]
    congr 2
    funext ⟨first, stop⟩
    rw [Bool.eq_iff_iff]
    simp only [decide_eq_true_eq, Bool.and_eq_true]
    omega
  rw [← sorted.clear_properSpans_iff, ← pushed]
  exact DeckBinding.clear_pushOut sorted.ordered position

/-- The position from which spans are left is clear of these and of all that end there or in front
of it. -/
theorem clear_of_done {all : List (Int × Int)} (sorted : Sorted size start spans)
    (done : ∀ span ∈ all, span.2 ≤ start ∨ span ∈ spans) : Clear all start := by
  intro span member
  rcases done span member with before | left
  · exact .inr before
  · have bounds := sorted.mem span left
    omega

end Sorted

/-- Consecutive pieces from a position on, none of which ends strictly inside a span. -/
def UncutFrom (spans : List (Int × Int)) (start : Nat) : List (List Char) → Prop
  | [] => True
  | piece :: rest =>
    Clear spans ((start + piece.length : Nat) : Int) ∧ UncutFrom spans (start + piece.length) rest

theorem UncutFrom.append_nils {spans : List (Int × Int)} {start : Nat} {pieces : List (List Char)}
    (uncut : UncutFrom spans start pieces)
    (clear : Clear spans ((start + pieces.flatten.length : Nat) : Int)) (count : Nat) :
    UncutFrom spans start (pieces ++ List.replicate count []) := by
  induction pieces generalizing start with
  | nil =>
    induction count with
    | zero => trivial
    | succ count ih => exact ⟨by simpa using clear, ih⟩
  | cons piece rest ih =>
    refine ⟨uncut.1, ih uncut.2 ?_⟩
    simpa [Nat.add_assoc] using clear

/-- Pieces of a text from a position on that lose nothing and cut no span. -/
structure Divides (spans : List (Int × Int)) (text : List Char) (start : Nat)
    (pieces : List (List Char)) : Prop where
  whole : pieces.flatten = text.drop start
  uncut : UncutFrom spans start pieces

theorem Divides.done (spans : List (Int × Int)) (text : List Char) :
    Divides spans text text.length [] :=
  ⟨by simp, trivial⟩

theorem Divides.cons {spans : List (Int × Int)} {text : List Char} {start stop : Nat}
    {pieces : List (List Char)} (forward : start ≤ stop) (inside : stop ≤ text.length)
    (clear : Clear spans (stop : Int)) (more : Divides spans text stop pieces) :
    Divides spans text start ((text.take stop).drop start :: pieces) := by
  have size : start + ((text.take stop).drop start).length = stop := by
    rw [List.length_drop, List.length_take]
    omega
  constructor
  · rw [List.flatten_cons, more.whole]
    have split := congrArg (List.drop start) (List.take_append_drop stop text)
    rw [List.drop_append_of_le_length (by rw [List.length_take]; omega)] at split
    exact split
  · refine ⟨?_, ?_⟩
    · rw [size]
      exact clear
    · rw [size]
      exact more.uncut

theorem Divides.append_nils {spans : List (Int × Int)} {text : List Char}
    {pieces : List (List Char)} (clear : Clear spans (text.length : Int))
    (divides : Divides spans text 0 pieces) (count : Nat) :
    Divides spans text 0 (pieces ++ List.replicate count []) := by
  constructor
  · simp [divides.whole]
  · apply divides.uncut.append_nils
    rw [divides.whole, Nat.zero_add, List.drop_zero]
    exact clear

theorem Divides.single {spans : List (Int × Int)} {text : List Char}
    (clear : Clear spans (text.length : Int)) : Divides spans text 0 [text] := by
  constructor
  · simp
  · exact ⟨by simpa using clear, trivial⟩

/-- Positions in order inside of a text, clear of the spans. -/
def CutsFrom (spans : List (Int × Int)) (size : Nat) (start : Nat) : List Nat → Prop
  | [] => True
  | cut :: rest =>
    start ≤ cut ∧ cut ≤ size ∧ Clear spans (cut : Int) ∧ CutsFrom spans size cut rest

theorem cutFrom_divides {spans : List (Int × Int)} {text : List Char} {start : Nat}
    {cuts : List Nat} (inside : start ≤ text.length) (clear : Clear spans (text.length : Int))
    (ordered : CutsFrom spans text.length start cuts) :
    Divides spans text start (cutFrom text start cuts) := by
  induction cuts generalizing start with
  | nil =>
    have last := (Divides.done spans text).cons inside (Nat.le_refl _) clear
    rwa [List.take_length] at last
  | cons cut rest ih =>
    obtain ⟨forward, bound, clearCut, more⟩ := ordered
    exact (ih bound more).cons forward bound clearCut

theorem length_cutFrom (text : List Char) (start : Nat) (cuts : List Nat) :
    (cutFrom text start cuts).length = cuts.length + 1 := by
  induction cuts generalizing start with
  | nil => rfl
  | cons cut rest ih => simp only [cutFrom, List.length_cons, ih]

theorem cutsFrom_cutPositions {size : Nat} {spans : List (Int × Int)}
    (sorted : Sorted size 0 spans) (ratio : Binary64) (running : Int) {previous : Nat}
    (inside : previous ≤ size) (clear : Clear spans (previous : Int)) (lengths : List Int) :
    CutsFrom spans size previous (cutPositions size ratio spans running previous lengths) := by
  induction lengths generalizing running previous with
  | nil => trivial
  | cons length rest ih =>
    cases rest with
    | nil => trivial
    | cons next rest =>
      simp only [cutPositions]
      generalize pushed : pushOut spans (((Binary64.ofQuotient (decide (running + length < 0))
        (running + length).natAbs 1).mul ratio).round?.getD 0) = position
      have clearPosition : Clear spans position := pushed ▸ sorted.clear_pushOut _
      have clearCut : Clear spans ((min (max position previous) size).toNat : Int) := by
        -- The cut is one of three positions that are all clear
        have choice : ((min (max position previous) size).toNat : Int) = position ∨
            ((min (max position previous) size).toNat : Int) = previous ∨
            ((min (max position previous) size).toNat : Int) = size := by omega
        rcases choice with same | same | same
        · rw [same]
          exact clearPosition
        · rw [same]
          exact clear
        · rw [same]
          exact sorted.clear_size
      exact ⟨by omega, by omega, clearCut, ih _ (by omega) clearCut⟩

theorem length_cutPositions (size : Nat) (ratio : Binary64) (spans : List (Int × Int))
    (running : Int) (previous : Nat) (lengths : List Int) :
    (cutPositions size ratio spans running previous lengths).length = lengths.length - 1 := by
  induction lengths generalizing running previous with
  | nil => rfl
  | cons length rest ih =>
    cases rest with
    | nil => rfl
    | cons next rest =>
      simp only [cutPositions, List.length_cons, ih]
      omega

theorem splitProportionally?_divides {text : List Char} {lengths : List Int}
    {spans : List (Int × Int)} {pieces : List (List Char)} (nonempty : lengths ≠ [])
    (sorted : Sorted text.length 0 spans)
    (found : splitProportionally? text lengths spans = some pieces) :
    Divides spans text 0 pieces ∧ pieces.length = lengths.length := by
  obtain ⟨ratio, -, rfl⟩ := Option.map_eq_some_iff.1 found
  constructor
  · exact cutFrom_divides (Nat.zero_le _) sorted.clear_size
      (cutsFrom_cutPositions sorted ratio 0 (Nat.zero_le _)
        (sorted.clear_of_done fun _ member => .inr member) lengths)
  · have positive := List.length_pos_iff.2 nonempty
    rw [length_cutFrom, length_cutPositions]
    omega

theorem between_eq {text : List Char} {start stop : Int} (nonneg : 0 ≤ start) (forward : start ≤ stop)
    (inside : stop ≤ text.length) :
    between text start stop = (text.take stop.toNat).drop start.toNat := by
  have first : placeIn text.length start = start.toNat := by
    unfold placeIn
    split
    · omega
    · omega
  have last : placeIn text.length stop = stop.toNat := by
    unfold placeIn
    split
    · omega
    · omega
  rw [between, first, last]

theorem behind_eq_between {text : List Char} (start : Int) :
    behind text start = between text start text.length := by
  have last : placeIn text.length (text.length : Int) = text.length := by
    unfold placeIn
    split
    · omega
    · omega
  rw [behind, between, last, List.take_length]

theorem Divides.cons_between {spans : List (Int × Int)} {text : List Char} {start stop : Int}
    {pieces : List (List Char)} (nonneg : 0 ≤ start) (forward : start ≤ stop)
    (inside : stop ≤ text.length) (clear : Clear spans stop)
    (more : Divides spans text stop.toNat pieces) :
    Divides spans text start.toNat (between text start stop :: pieces) := by
  rw [between_eq nonneg forward inside]
  apply more.cons (by omega) (by omega)
  rw [Int.toNat_of_nonneg (by omega)]
  exact clear

/-- A piece that would be empty may be left out. -/
theorem Divides.append_between {spans : List (Int × Int)} {text : List Char} {start stop : Int}
    {pieces : List (List Char)} (nonneg : 0 ≤ start) (forward : start ≤ stop)
    (inside : stop ≤ text.length) (clear : Clear spans stop)
    (more : Divides spans text stop.toNat pieces) :
    Divides spans text start.toNat
      ((if start < stop then [between text start stop] else []) ++ pieces) := by
  split
  · exact more.cons_between nonneg forward inside clear
  · have same : start = stop := by omega
    rw [same]
    exact more

/-- An empty span gives no piece, but the text in front of it may end where it stands. -/
theorem piecesByValue_divides {text : List Char} {all spans : List (Int × Int)} {start : Int}
    (nonneg : 0 ≤ start) (sorted : Sorted text.length start spans)
    (done : ∀ span ∈ all, span.2 ≤ start ∨ span ∈ spans) :
    Divides all text start.toNat (piecesByValue text start spans) := by
  induction sorted with
  | @nil start inside =>
    have last : Divides all text (text.length : Int).toNat [] := Divides.done all text
    have clear : Clear all (text.length : Int) := fun span member => by
      have before := (done span member).resolve_right List.not_mem_nil
      omega
    have whole := last.append_between nonneg inside (Int.le_refl _) clear
    rw [piecesByValue, behind_eq_between]
    rwa [List.append_nil] at whole
  | @value start first stop rest behind forward more ih =>
    have bound := more.start_le
    have doneStop : ∀ span ∈ all, span.2 ≤ stop ∨ span ∈ rest := fun span member => by
      rcases done span member with before | left
      · omega
      · rcases List.mem_cons.1 left with rfl | later
        · exact .inl (Int.le_refl _)
        · exact .inr later
    have clearFirst : Clear all first := by
      refine (Sorted.value (Int.le_refl first) forward more).clear_of_done fun span member => ?_
      exact (done span member).imp_left fun before => Int.le_trans before behind
    have later : max start stop = stop := by omega
    rw [piecesByValue, later, List.append_assoc]
    apply Divides.append_between nonneg behind (by omega) clearFirst
    apply Divides.append_between (by omega) (by omega) bound (more.clear_of_done doneStop)
    exact ih (by omega) doneStop
  | @empty start place rest more ih =>
    have bound := more.start_le
    have donePlace : ∀ span ∈ all, span.2 ≤ max start place ∨ span ∈ rest := fun span member => by
      rcases done span member with before | left
      · omega
      · rcases List.mem_cons.1 left with rfl | later
        · exact .inl (Int.le_max_right _ _)
        · exact .inr later
    have pieces := ih (by omega) donePlace
    have clear := more.clear_of_done donePlace
    rw [piecesByValue, if_neg (Int.lt_irrefl place), List.append_nil]
    by_cases inside : start < place
    · have later : max start place = place := by omega
      rw [later] at pieces clear ⊢
      exact pieces.append_between nonneg (by omega) (by omega) clear
    · have same : max start place = start := by omega
      rw [same] at pieces ⊢
      rwa [if_neg inside]

theorem foldedByValue_divides {text : List Char} {all spans : List (Int × Int)} {start : Int}
    (nonneg : 0 ≤ start) (clear : Clear all (text.length : Int)) (nonempty : spans ≠ [])
    (ends : ∀ span ∈ spans, Clear all span.1 ∧ Clear all span.2)
    (ordered : Ordered text.length start spans) :
    Divides all text start.toNat (foldedByValue text start spans) ∧
      (foldedByValue text start spans).length = spans.length := by
  induction spans generalizing start with
  | nil => exact absurd rfl nonempty
  | cons span rest ih =>
    obtain ⟨first, stop⟩ := span
    cases rest with
    | nil =>
      refine ⟨?_, rfl⟩
      have last : Divides all text (text.length : Int).toNat [] := Divides.done all text
      rw [foldedByValue, behind_eq_between]
      exact last.cons_between nonneg ordered.start_le (Int.le_refl _) clear
    | cons next rest =>
      cases ordered with
      | cons behind forward more =>
        have bound := more.start_le
        obtain ⟨divides, size⟩ := ih (by omega) (List.cons_ne_nil _ _)
          (fun span member => ends span (List.mem_cons_of_mem _ member)) more
        simp only [foldedByValue, List.length_cons, size]
        refine ⟨?_, trivial⟩
        exact divides.cons_between nonneg (by omega) bound (ends (first, stop) List.mem_cons_self).2

theorem splitByValue?_divides {text : List Char} {count : Nat} {spans : List (Int × Int)}
    {pieces : List (List Char)} (sorted : Sorted text.length 0 spans)
    (found : splitByValue? text count spans = some pieces) :
    Divides spans text 0 pieces ∧ pieces.length ≤ count := by
  unfold splitByValue? at found
  dsimp only at found
  split at found
  · rename_i few
    cases found
    exact ⟨piecesByValue_divides (Int.le_refl 0) sorted fun _ member => .inr member, few⟩
  · split at found
    · cases found
    · rename_i enough
      cases found
      simp only [Bool.or_eq_true, List.isEmpty_iff, decide_eq_true_eq, not_or, Nat.not_lt] at enough
      obtain ⟨divides, size⟩ := foldedByValue_divides (Int.le_refl 0) sorted.clear_size enough.1
        (fun span member => (sorted.ordered.clear_ends span member).imp sorted.clear_properSpans_iff.1
          sorted.clear_properSpans_iff.1) sorted.ordered
      exact ⟨divides, size ▸ enough.2⟩

/-- Spreading a text over runs gives a piece for each run, loses nothing, and cuts no span. -/
theorem redistribute_divides {text : List Char} {lengths : List Int} {spans : List (Int × Int)}
    (nonempty : lengths ≠ []) (sorted : Sorted text.length 0 spans) :
    Divides spans text 0 (redistribute text lengths spans) ∧
      (redistribute text lengths spans).length = lengths.length := by
  have positive := List.length_pos_iff.2 nonempty
  unfold redistribute
  split
  · rename_i one
    exact ⟨.single sorted.clear_size, by rw [one]; rfl⟩
  · split
    · rename_i pieces found
      exact splitProportionally?_divides nonempty sorted found
    · dsimp only
      obtain ⟨divides, few⟩ :
          Divides spans text 0 ((splitByValue? text lengths.length spans).getD [text]) ∧
            ((splitByValue? text lengths.length spans).getD [text]).length ≤ lengths.length := by
        cases found : splitByValue? text lengths.length spans with
        | none => exact ⟨.single sorted.clear_size, positive⟩
        | some pieces => exact splitByValue?_divides sorted found
      refine ⟨divides.append_nils sorted.clear_size _, ?_⟩
      rw [List.length_append, List.length_replicate]
      omega

end DeckBinding
