import Mathlib.Order.Bounds.Basic
import DeckBinding.Proofs.Expression.PathText
import DeckBinding.Proofs.Plan.Openers
import DeckBinding.Template.Analysis

set_option autoImplicit false

namespace DeckBinding

open DeckBinding.Text

/-- The positions from a slide on where the notes end a range over a path. -/
def rangeEnds (templates : List SlideTemplate) (path : String) (start : Nat) : Set Nat :=
  {position | start ≤ position ∧
    ∃ template, templates[position]? = some template ∧ .range .ends path ∈ template.directives}

/-- The notes end ranges, but none over a path. -/
def SlideTemplate.EndsOthers (template : SlideTemplate) (path : String) : Prop :=
  (∃ other, .range .ends other ∈ template.directives) ∧ .range .ends path ∉ template.directives

/-- The last slide of a range that a template slide begins, and what is noted when nothing ends
it. -/
structure RangeStops (templates : List SlideTemplate) (template : SlideTemplate) (window : Window)
    (noted : List Diagnostic) : Prop where
  alone : template.EndsOthers window.collection → window.stop = window.start
  marked : ¬ template.EndsOthers window.collection →
    IsLeast (rangeEnds templates window.collection window.start) window.stop ∨
      rangeEnds templates window.collection window.start = ∅ ∧
        window.stop + 1 = templates.length ∧
        ⟨.openRange window.collection, some template.slide⟩ ∈ noted

variable {templates rest : List SlideTemplate} {template : SlideTemplate} {window : Window}
  {path : String} {position : Nat} {noted more : List Diagnostic}

theorem RangeStops.mono (stops : RangeStops templates template window noted) (further : noted ⊆ more) :
    RangeStops templates template window more := by
  refine ⟨stops.alone, fun straight => ?_⟩
  rcases stops.marked straight with least | ⟨unended, last, told⟩
  · exact .inl least
  · exact .inr ⟨unended, last, further told⟩

theorem rangeEnd?_eq_some_iff {directive : Directive} :
    directive.rangeEnd? = some path ↔ directive = .range .ends path := by
  constructor
  · intro ends
    unfold Directive.rangeEnd? at ends
    split at ends
    · cases ends
      rfl
    · cases ends
  · rintro rfl
    rfl

theorem any_rangeEnd?_iff {directives : List Directive} :
    (directives.any fun directive => directive.rangeEnd? == some path) = true ↔
      .range .ends path ∈ directives := by
  simp only [List.any_eq_true, beq_iff_eq, rangeEnd?_eq_some_iff, exists_eq_right]

theorem isSome_rangeEnd?_iff :
    template.rangeEnd?.isSome = true ↔ ∃ path, .range .ends path ∈ template.directives := by
  unfold SlideTemplate.rangeEnd?
  rw [List.findSome?_isSome_iff]
  simp only [Option.isSome_iff_exists, rangeEnd?_eq_some_iff]
  constructor
  · rintro ⟨directive, member, path, rfl⟩
    exact ⟨path, member⟩
  · rintro ⟨path, member⟩
    exact ⟨_, member, path, rfl⟩

theorem getElem?_of_drop (behind : templates.drop position = template :: rest) :
    templates[position]? = some template ∧ templates.drop (position + 1) = rest := by
  constructor
  · rw [← List.head?_drop, behind, List.head?_cons]
  · rw [← List.tail_drop, behind, List.tail_cons]

theorem isLeast_rangeEnds (there : templates[position]? = some template)
    (ends : .range .ends path ∈ template.directives) :
    IsLeast (rangeEnds templates path position) position :=
  ⟨⟨Nat.le_refl _, template, there, ends⟩, fun _ later => later.1⟩

theorem rangeEnds_of_not_mem (there : templates[position]? = some template)
    (silent : .range .ends path ∉ template.directives) :
    rangeEnds templates path position = rangeEnds templates path (position + 1) := by
  ext place
  constructor
  · rintro ⟨later, other, here, ends⟩
    refine ⟨Nat.lt_of_le_of_ne later ?_, other, here, ends⟩
    rintro rfl
    rw [there] at here
    obtain rfl := Option.some.inj here
    exact silent ends
  · rintro ⟨later, ends⟩
    exact ⟨Nat.le_of_succ_le later, ends⟩

/-- The search finds the first slide from a position on whose notes end a range over the path. -/
theorem rangeEndFrom?_spec (behind : templates.drop position = rest) :
    match rangeEndFrom? path position rest with
    | some stop => IsLeast (rangeEnds templates path position) stop
    | none => rangeEnds templates path position = ∅ := by
  induction rest generalizing position with
  | nil =>
    have short := List.drop_eq_nil_iff.1 behind
    rw [rangeEndFrom?, Set.eq_empty_iff_forall_notMem]
    rintro place ⟨later, template, there, _⟩
    have inside := (List.getElem?_eq_some_iff.1 there).1
    omega
  | cons template rest ih =>
    obtain ⟨there, further⟩ := getElem?_of_drop behind
    unfold rangeEndFrom?
    by_cases ends : .range .ends path ∈ template.directives
    · rw [if_pos (any_rangeEnd?_iff.2 ends)]
      exact isLeast_rangeEnds there ends
    · rw [if_neg (mt any_rangeEnd?_iff.1 ends), rangeEnds_of_not_mem there ends]
      exact ih further

theorem rangeWindow_collection (template : SlideTemplate) (path : String) (position : Nat)
    (behind : List SlideTemplate) :
    (rangeWindow template path position behind).1.collection = path := by
  unfold rangeWindow
  split
  · rfl
  · split <;> rfl

theorem rangeWindow_stops (behind : templates.drop position = template :: rest) :
    RangeStops templates template (rangeWindow template path position rest).1
      (rangeWindow template path position rest).2 := by
  obtain ⟨there, further⟩ := getElem?_of_drop behind
  unfold rangeWindow
  by_cases ends : template.rangeEnd?.isSome = true
  · rw [if_pos ends]
    refine ⟨fun _ => rfl, fun straight => .inl ?_⟩
    apply isLeast_rangeEnds there
    by_contra silent
    exact straight ⟨isSome_rangeEnd?_iff.1 ends, silent⟩
  · rw [if_neg ends]
    have silent : .range .ends path ∉ template.directives := fun member =>
      ends (isSome_rangeEnd?_iff.2 ⟨path, member⟩)
    have found := @rangeEndFrom?_spec templates rest path (position + 1) further
    rw [← rangeEnds_of_not_mem there silent] at found
    have others (other : String) : ¬ template.EndsOthers other := fun others =>
      ends (isSome_rangeEnd?_iff.2 others.1)
    split
    · rename_i stop search
      rw [search] at found
      exact ⟨fun beside => absurd beside (others path), fun _ => .inl found⟩
    · rename_i search
      rw [search] at found
      refine ⟨fun beside => absurd beside (others path),
        fun _ => .inr ⟨found, ?_, List.mem_singleton_self _⟩⟩
      have length := congrArg List.length further
      rw [List.length_drop] at length
      have inside := (List.getElem?_eq_some_iff.1 there).1
      show position + rest.length + 1 = templates.length
      omega

/-- Every window of a range starts at the slide that begins it. -/
theorem rangeWindows_stop (free : Nat) (behind : templates.drop position = rest) :
    ∀ window ∈ (rangeWindows free position rest).1, ∃ template,
      templates[window.start]? = some template ∧ template.rangeBegin? = some window.collection ∧
      RangeStops templates template window (rangeWindows free position rest).2 := by
  induction rest generalizing free position with
  | nil => exact fun window member => absurd member List.not_mem_nil
  | cons template rest ih =>
    obtain ⟨there, further⟩ := getElem?_of_drop behind
    unfold rangeWindows
    split
    · exact ih free further
    · rename_i path begins
      split
      · exact ih free further
      · intro window member
        rcases List.mem_cons.1 member with rfl | later
        · have stops := @rangeWindow_stops _ _ _ path _ behind
          refine ⟨template, ?_, ?_, stops.mono (List.subset_append_left _ _)⟩
          · rw [(rangeWindow_bounds template path position rest).1]
            exact there
          · rw [rangeWindow_collection]
            exact begins
        · obtain ⟨opener, here, opens, stops⟩ := ih _ further window later
          exact ⟨opener, here, opens, stops.mono (List.subset_append_right _ _)⟩

/-- The window of a range ends at the first slide, from its own on, that ends a range over its path,
and at the last slide when there is none, which is noted; unless its slide ends ranges over other
paths only: then the window ends there. -/
theorem explicit_windows_stop (templates : List SlideTemplate) :
    ∀ window ∈ (findWindows templates).1, window.explicit = true → ∃ template,
      templates[window.start]? = some template ∧ template.rangeBegin? = some window.collection ∧
      RangeStops templates template window (findWindows templates).2 := by
  intro window member explicit
  have ranges := (findWindows_placed templates).marked window member explicit
  exact rangeWindows_stop 0 rfl window ranges

/-- A range over `a` from the first slide to the last one. -/
def straightDeck : List SlideTemplate :=
  [⟨1, 0, .source, [.range .begins "a"], [], some "a", none, 0, 0⟩,
    ⟨2, 1, .static, [], [], none, none, 0, 0⟩,
    ⟨3, 2, .cloned, [.range .ends "a"], [], none, none, 0, 0⟩]

theorem explicit_windows_stop_straight :
    ∃ window ∈ (findWindows straightDeck).1, window.explicit = true ∧
      ∃ template, straightDeck[window.start]? = some template ∧
        template.rangeBegin? = some window.collection ∧
        RangeStops straightDeck template window (findWindows straightDeck).2 := by
  have windows : (findWindows straightDeck).1 = [.forEach 0 2 "a" true (by decide)] := by
    rw [findWindows_of_ascending (by decide +kernel)]
    rfl
  have member : Window.forEach 0 2 "a" true (by decide) ∈ (findWindows straightDeck).1 := by
    rw [windows]
    exact List.mem_singleton_self _
  exact ⟨_, member, rfl, explicit_windows_stop straightDeck _ member rfl⟩

/-- The slide that begins a range over `a` ends one over `b`, and the last slide ends the one over
`a`. -/
def crossedDeck : List SlideTemplate :=
  [⟨1, 0, .source, [.range .begins "a", .range .ends "b"],
      [.ofPath "$\x7ba>n\x7d" ⟨⟨"a", none⟩, [(.context, ⟨"n", none⟩)]⟩], some "a", none, 0, 0⟩,
    ⟨2, 1, .static, [], [], none, none, 0, 0⟩,
    ⟨3, 2, .cloned, [.range .ends "a"], [], none, none, 0, 0⟩]

/-- A range over `a` ends at its first slide, because that slide ends a range over `b`, and not at
the slide that ends it. -/
theorem range_stops_at_other_mark :
    ∃ templates window template,
      (analyzeSlides [
        .ofTexts 1 ["$\x7ba>n\x7d".toList] "#range-begin: a\n#range-end: b".toList,
        .ofTexts 2 ["x".toList] [],
        .ofTexts 3 ["y".toList] "#range-end: a".toList]).toOption.map
          (fun analyses => analyses.map (·.template)) = some templates ∧
      window ∈ (findWindows templates).1 ∧ window.explicit = true ∧ window.start = 0 ∧
      templates[0]? = some template ∧ template.rangeBegin? = some window.collection ∧
      2 ∈ rangeEnds templates window.collection window.start ∧
      ¬ IsLeast (rangeEnds templates window.collection window.start) window.stop := by
  have windows : (findWindows crossedDeck).1 = [.forEach 0 0 "a" true (by decide)] := by
    rw [findWindows_of_ascending (by decide +kernel)]
    rfl
  refine ⟨crossedDeck, .forEach 0 0 "a" true (by decide), _, by decide +kernel, ?_, rfl, rfl, rfl, by decide,
    ⟨by decide, _, rfl, List.mem_singleton_self _⟩, ?_⟩
  · rw [windows]
    exact List.mem_singleton_self _
  · rintro ⟨⟨_, template, there, ends⟩, _⟩
    cases there
    revert ends
    decide

end DeckBinding
