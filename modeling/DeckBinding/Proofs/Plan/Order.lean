import DeckBinding.Proofs.Plan.Deck

set_option autoImplicit false

namespace DeckBinding

/-- The indices of the elements that a slide of the result stands below, and its offset. -/
def Instance.indices (shown : Instance) : List Int :=
  shown.context.map (·.index) ++ [shown.offset]

/-- Where the template slide of a slide of the result stands. -/
def Instance.origin (deck : List SlideTemplate) (shown : Instance) : Nat :=
  (deck.map (·.slide)).idxOf shown.slide

/-- What orders the slides of a plan: the block, which is the start of the window or the template
slide itself, then the element of the window, the template slide, the elements further down, and the
offset. -/
def Instance.place (deck : List SlideTemplate) (windows : List Window) (shown : Instance) : List Int :=
  let position := shown.origin deck
  let block := ((windowAt? windows position).map (·.start)).getD position
  let element := (shown.context.head?.map (·.index)).getD 0
  (block : Int) :: element :: (position : Int) ::
    (shown.context.tail.map (·.index) ++ [shown.offset])

/-- A template slide, a context and an offset have one place. -/
theorem Instance.place_congr {deck : List SlideTemplate} {windows : List Window} {left right : Instance}
    (slide : left.slide = right.slide) (context : left.context = right.context)
    (offset : left.offset = right.offset) : left.place deck windows = right.place deck windows := by
  unfold place origin
  rw [slide, context, offset]

section Lists

variable {α : Type}

theorem pairwise_zipIdx (items : List α) (start : Nat) :
    (items.zipIdx start).Pairwise fun left right => left.2 < right.2 := by
  have counted : ((items.zipIdx start).map Prod.snd).Pairwise (· < ·) := by
    rw [List.zipIdx_map_snd]
    exact List.pairwise_lt_range' 1
  exact List.pairwise_map.1 counted

theorem cons_lt_cons_right {head : Int} {left right : List Int} (before : left < right) :
    head :: left < head :: right :=
  List.cons_lt_cons_iff.2 (.inr ⟨rfl, before⟩)

theorem lt_of_cons_lt_cons {head : Int} {left right : List Int} (before : head :: left < head :: right) :
    left < right := by
  rcases List.cons_lt_cons_iff.1 before with less | ⟨_, rest⟩
  · exact absurd less (Int.lt_irrefl head)
  · exact rest

end Lists

variable {template : SlideTemplate} {data element : Value} {context : ContextPath}

theorem pairwise_shownPages (template : SlideTemplate) (context : ContextPath)
    (parentIndex : Option Int) (items : Nat) :
    (template.shownPages context parentIndex items).Pairwise
      fun left right => left.indices < right.indices := by
  unfold SlideTemplate.shownPages
  rw [List.pairwise_map]
  apply List.pairwise_lt_range.imp
  intro left right before
  have further : left * template.itemsPerSlide < right * template.itemsPerSlide :=
    Nat.mul_lt_mul_of_pos_right before template.itemsPerSlide_pos
  apply List.append_left_lt
  rw [List.cons_lt_cons_iff]
  refine .inl ?_
  show ((template.offset + left * template.itemsPerSlide : Nat) : Int) <
    ((template.offset + right * template.itemsPerSlide : Nat) : Int)
  omega

theorem pairwise_leafEntries (template : SlideTemplate) (context : ContextPath) (items : List Value) :
    (instancesOf (leafEntries template context items)).Pairwise
      fun left right => left.indices < right.indices := by
  rw [instancesOf_leafEntries]
  split
  · exact List.pairwise_singleton _ _
  · exact pairwise_shownPages template context _ _

theorem of_mem_nestedEntries {chunks : List String} {shown : Instance}
    (member : shown ∈ instancesOf (nestedEntries template context element chunks)) :
    shown.slide = template.slide ∧ ∃ more, shown.context = context ++ more := by
  obtain ⟨more, chunk, inner, _, _, leaf⟩ := mem_nestedEntries member
  rcases mem_leafEntries leaf with ⟨_, rfl⟩ | ⟨offset, rfl⟩
  · exact ⟨rfl, more, rfl⟩
  · exact ⟨rfl, more, rfl⟩

theorem pairwise_nestedEntries (template : SlideTemplate) (context : ContextPath) (element : Value)
    (chunks : List String) :
    (instancesOf (nestedEntries template context element chunks)).Pairwise
      fun left right => left.indices < right.indices := by
  induction chunks generalizing context element with
  | nil => exact .nil
  | cons chunk rest ih =>
    cases rest with
    | nil =>
      rw [instancesOf_nestedEntries_single]
      exact pairwise_leafEntries template context _
    | cons next rest =>
      rw [instancesOf_nestedEntries_cons, List.pairwise_flatMap]
      refine ⟨fun entry _ => ih _ _, ?_⟩
      apply (pairwise_zipIdx _ 0).imp
      intro left right before first firstMember second secondMember
      obtain ⟨_, moreFirst, firstContext⟩ := of_mem_nestedEntries firstMember
      obtain ⟨_, moreSecond, secondContext⟩ := of_mem_nestedEntries secondMember
      -- the contexts part at this collection, where the earlier item has the smaller index
      unfold Instance.indices
      rw [firstContext, secondContext]
      simp only [List.append_assoc, List.map_append, List.map_cons, List.singleton_append]
      apply List.append_left_lt
      rw [List.cons_append, List.cons_append, List.cons_lt_cons_iff]
      exact .inl (Int.ofNat_lt.2 before)

variable {window : Window} {index : Nat}

theorem of_mem_memberEntries {shown : Instance}
    (member : shown ∈ instancesOf (memberEntries window data index element template)) :
    shown.slide = template.slide ∧
      ∃ more, shown.context = ⟨window.collection, (index : Int)⟩ :: more := by
  rcases instancesOf_memberEntries window data index element template with
    once | ⟨chunk, rest, _, nested⟩ | beside
  · rw [once] at member
    rw [List.mem_singleton.1 member]
    exact ⟨rfl, [], rfl⟩
  · rw [nested] at member
    exact of_mem_nestedEntries member
  · rw [beside, instancesOf_flatEntries] at member
    obtain ⟨page, _, rfl⟩ := List.mem_map.1 member
    exact ⟨rfl, [], rfl⟩

theorem pairwise_memberEntries (window : Window) (data : Value) (index : Nat) (element : Value)
    (template : SlideTemplate) :
    (instancesOf (memberEntries window data index element template)).Pairwise
      fun left right => left.indices < right.indices := by
  rcases instancesOf_memberEntries window data index element template with
    once | ⟨chunk, rest, _, nested⟩ | beside
  · rw [once]
    exact List.pairwise_singleton _ _
  · rw [nested]
    exact pairwise_nestedEntries template _ element _
  · rw [beside, instancesOf_flatEntries]
    exact pairwise_shownPages template _ none _

section Deck

variable {deck : List SlideTemplate} {windows : List Window} {position : Nat}

theorem idxOf_slide (distinct : (deck.map (·.slide)).Nodup) (there : deck[position]? = some template) :
    (deck.map (·.slide)).idxOf template.slide = position := by
  obtain ⟨inside, rfl⟩ := List.getElem?_eq_some_iff.1 there
  have found := distinct.idxOf_getElem position (by rwa [List.length_map])
  rwa [List.getElem_map] at found

/-- Template slides that come later stand at later positions. -/
theorem pairwise_origin (distinct : (deck.map (·.slide)).Nodup) :
    deck.Pairwise fun left right =>
      (deck.map (·.slide)).idxOf left.slide < (deck.map (·.slide)).idxOf right.slide := by
  rw [List.pairwise_iff_getElem]
  intro first second firstInside secondInside before
  rw [idxOf_slide distinct (List.getElem?_eq_getElem firstInside),
    idxOf_slide distinct (List.getElem?_eq_getElem secondInside)]
  exact before

/-- In a window the place of a slide tells the element, the template slide and the indices further
down. -/
theorem place_of_mem_memberEntries (distinct : (deck.map (·.slide)).Nodup)
    (ordered : windows.Pairwise fun left right => left.stop < right.start) (known : window ∈ windows)
    (among : template ∈ window.members deck) {shown : Instance}
    (member : shown ∈ instancesOf (memberEntries window data index element template)) :
    ∃ further, shown.indices = (index : Int) :: further ∧
      shown.place deck windows = (window.start : Int) :: (index : Int) ::
        ((deck.map (·.slide)).idxOf template.slide : Int) :: further := by
  obtain ⟨slide, more, context⟩ := of_mem_memberEntries member
  obtain ⟨_, position, holds, there⟩ := position_of_mem_members among
  have inside := windowAt?_of_covers ordered known holds
  refine ⟨more.map (·.index) ++ [shown.offset], ?_, ?_⟩
  · unfold Instance.indices
    rw [context]
    rfl
  · unfold Instance.place Instance.origin
    dsimp only
    rw [context, slide, idxOf_slide distinct there, inside]
    rfl

theorem pairwise_windowEntries (distinct : (deck.map (·.slide)).Nodup)
    (ordered : windows.Pairwise fun left right => left.stop < right.start) (known : window ∈ windows)
    (data : Value) :
    (instancesOf (windowEntries deck window data)).Pairwise
      fun left right => left.place deck windows < right.place deck windows := by
  rw [instancesOf_windowEntries, List.pairwise_flatMap]
  refine ⟨?_, ?_⟩
  · rintro ⟨element, index⟩ _
    rw [List.pairwise_flatMap]
    refine ⟨?_, ?_⟩
    · intro template among
      apply (pairwise_memberEntries window data index element template).imp_of_mem
      intro left right leftMember rightMember before
      obtain ⟨furtherLeft, leftIndices, leftPlace⟩ :=
        place_of_mem_memberEntries distinct ordered known among leftMember
      obtain ⟨furtherRight, rightIndices, rightPlace⟩ :=
        place_of_mem_memberEntries distinct ordered known among rightMember
      rw [leftIndices, rightIndices] at before
      rw [leftPlace, rightPlace]
      exact cons_lt_cons_right (cons_lt_cons_right (cons_lt_cons_right (lt_of_cons_lt_cons before)))
    · have positions : (window.members deck).Pairwise fun left right =>
          (deck.map (·.slide)).idxOf left.slide < (deck.map (·.slide)).idxOf right.slide :=
        (pairwise_origin distinct).sublist
          (List.filter_sublist.trans ((List.take_sublist _ _).trans (List.drop_sublist _ _)))
      apply positions.imp_of_mem
      intro first second firstAmong secondAmong before left leftMember right rightMember
      obtain ⟨_, _, leftPlace⟩ :=
        place_of_mem_memberEntries distinct ordered known firstAmong leftMember
      obtain ⟨_, _, rightPlace⟩ :=
        place_of_mem_memberEntries distinct ordered known secondAmong rightMember
      rw [leftPlace, rightPlace]
      refine cons_lt_cons_right (cons_lt_cons_right ?_)
      exact List.cons_lt_cons_iff.2 (.inl (Int.ofNat_lt.2 before))
  · apply ((pairwise_zipIdx _ 0).sublist List.filter_sublist).imp
    intro first second before left leftMember right rightMember
    obtain ⟨_, firstAmong, leftShows⟩ := List.mem_flatMap.1 leftMember
    obtain ⟨_, secondAmong, rightShows⟩ := List.mem_flatMap.1 rightMember
    obtain ⟨_, _, leftPlace⟩ := place_of_mem_memberEntries distinct ordered known firstAmong leftShows
    obtain ⟨_, _, rightPlace⟩ :=
      place_of_mem_memberEntries distinct ordered known secondAmong rightShows
    rw [leftPlace, rightPlace]
    refine cons_lt_cons_right ?_
    exact List.cons_lt_cons_iff.2 (.inl (Int.ofNat_lt.2 before))

theorem place_of_free (distinct : (deck.map (·.slide)).Nodup) (there : deck[position]? = some template)
    (free : windowAt? windows position = none) {shown : Instance} (slide : shown.slide = template.slide)
    (context : shown.context = []) :
    shown.place deck windows = (position : Int) :: 0 :: (position : Int) :: shown.indices := by
  unfold Instance.place Instance.origin Instance.indices
  dsimp only
  rw [context, slide, idxOf_slide distinct there, free]
  rfl

/-- The block of a slide is the one of the template slide where it is made. -/
theorem place_of_mem_entriesAt (distinct : (deck.map (·.slide)).Nodup)
    (ordered : windows.Pairwise fun left right => left.stop < right.start)
    (there : deck[position]? = some template) {shown : Instance}
    (member : shown ∈ instancesOf (entriesAt deck windows data template position)) :
    ∃ further, shown.place deck windows = (position : Int) :: further := by
  rcases mem_entriesAt member with ⟨window, inside, first, below⟩ | ⟨free, own⟩
  · obtain ⟨index, element, _, _, other, among, shows⟩ := mem_windowEntries below
    obtain ⟨further, _, place⟩ :=
      place_of_mem_memberEntries distinct ordered (mem_of_windowAt? inside).1 among shows
    rw [first] at place
    exact ⟨_, place⟩
  · rcases own with ⟨_, rfl⟩ | ⟨_, offset, rfl⟩
    · exact ⟨_, place_of_free distinct there free rfl rfl⟩
    · exact ⟨_, place_of_free distinct there free rfl rfl⟩

theorem pairwise_entriesAt (distinct : (deck.map (·.slide)).Nodup)
    (ordered : windows.Pairwise fun left right => left.stop < right.start)
    (there : deck[position]? = some template) (data : Value) :
    (instancesOf (entriesAt deck windows data template position)).Pairwise
      fun left right => left.place deck windows < right.place deck windows := by
  unfold entriesAt
  split
  · rename_i window inside
    split
    · exact pairwise_windowEntries distinct ordered (mem_of_windowAt? inside).1 data
    · exact .nil
  · rename_i free
    split
    · exact List.pairwise_singleton _ _
    · rw [instancesOf_flatEntries]
      apply (pairwise_shownPages template [] none _).imp_of_mem
      intro left right leftMember rightMember before
      obtain ⟨_, _, rfl⟩ := List.mem_map.1 leftMember
      obtain ⟨_, _, rfl⟩ := List.mem_map.1 rightMember
      rw [place_of_free distinct there free rfl rfl, place_of_free distinct there free rfl rfl]
      exact cons_lt_cons_right (cons_lt_cons_right (cons_lt_cons_right before))
    · exact .nil

theorem pairwise_planEntries (distinct : (deck.map (·.slide)).Nodup)
    (ordered : windows.Pairwise fun left right => left.stop < right.start) (data : Value) :
    (instancesOf (planEntries deck windows data)).Pairwise
      fun left right => left.place deck windows < right.place deck windows := by
  rw [instancesOf_planEntries, List.pairwise_flatMap]
  refine ⟨?_, ?_⟩
  · rintro ⟨template, position⟩ among
    exact pairwise_entriesAt distinct ordered (List.mem_zipIdx_iff_getElem?.1 among) data
  · apply (pairwise_zipIdx deck 0).imp_of_mem
    intro first second firstAmong secondAmong before left leftMember right rightMember
    obtain ⟨_, leftPlace⟩ := place_of_mem_entriesAt distinct ordered
      (List.mem_zipIdx_iff_getElem?.1 firstAmong) leftMember
    obtain ⟨_, rightPlace⟩ := place_of_mem_entriesAt distinct ordered
      (List.mem_zipIdx_iff_getElem?.1 secondAmong) rightMember
    rw [leftPlace, rightPlace]
    exact List.cons_lt_cons_iff.2 (.inl (Int.ofNat_lt.2 before))

theorem eq_of_slide_eq (distinct : (deck.map (·.slide)).Nodup) {other : SlideTemplate} {place : Nat}
    (first : deck[position]? = some template) (second : deck[place]? = some other)
    (same : template.slide = other.slide) : position = place := by
  rw [← idxOf_slide distinct first, ← idxOf_slide distinct second, same]

/-- A template slide that stands in no window and shows no collection makes one slide. -/
theorem countP_of_static (distinct : (deck.map (·.slide)).Nodup)
    (ordered : windows.Pairwise fun left right => left.stop < right.start)
    (there : deck[position]? = some template) (free : windowAt? windows position = none)
    (kind : template.kind = .static) (data : Value) :
    (instancesOf (planEntries deck windows data)).countP (·.slide == template.slide) = 1 := by
  have made : template.alone ∈ instancesOf (planEntries deck windows data) := by
    rw [instancesOf_planEntries, List.mem_flatMap]
    refine ⟨(template, position), List.mem_zipIdx_iff_getElem?.2 there, ?_⟩
    unfold entriesAt
    rw [free, kind]
    exact List.mem_singleton_self _
  have apart : (instancesOf (planEntries deck windows data)).Nodup := by
    apply (pairwise_planEntries distinct ordered data).imp
    rintro left _ before rfl
    exact List.lt_irrefl _ before
  rw [← List.count_eq_one_of_mem apart made, List.count]
  apply List.countP_congr
  intro shown member
  rw [beq_iff_eq, beq_iff_eq]
  constructor
  · intro same
    obtain ⟨place, other, found, origin⟩ := exists_origin ordered member
    obtain rfl := eq_of_slide_eq distinct there found (same.symm.trans origin.slide)
    obtain rfl : template = other := Option.some.inj (there.symm.trans found)
    exact origin.eq_alone free kind
  · rintro rfl
    rfl

/-- A template slide that only ends a range makes none. -/
theorem countP_of_cloned (distinct : (deck.map (·.slide)).Nodup)
    (ordered : windows.Pairwise fun left right => left.stop < right.start)
    (member : template ∈ deck) (kind : template.kind = .cloned) (data : Value) :
    (instancesOf (planEntries deck windows data)).countP (·.slide == template.slide) = 0 := by
  rw [List.countP_eq_zero]
  intro shown among same
  obtain ⟨position, there⟩ := List.mem_iff_getElem?.1 member
  obtain ⟨place, other, found, origin⟩ := exists_origin ordered among
  obtain rfl := eq_of_slide_eq distinct there found ((beq_iff_eq.1 same).symm.trans origin.slide)
  obtain rfl : template = other := Option.some.inj (there.symm.trans found)
  exact origin.kind kind

end Deck

/-- The order of a plan: windows lie one behind the other in the deck, the slides come by their
places, and what stands in no window and shows no collection is made once. -/
structure Arranged (deck : List SlideTemplate) (windows : List Window) (plan : SlidePlan) : Prop where
  windows_ordered : windows.Pairwise fun left right => left.stop < right.start
  windows_inside : ∀ window ∈ windows, window.stop < deck.length
  /-- Each slide is made from a template slide, below an element of its window if it stands in one. -/
  sources : ∀ shown ∈ plan.instances, ∃ position template,
    deck[position]? = some template ∧ shown.slide = template.slide ∧
    shown.context.head?.map (·.name) = (windowAt? windows position).map (·.collection)
  ascending : plan.instances.Pairwise fun left right =>
    left.place deck windows < right.place deck windows
  static_once : ∀ position template, deck[position]? = some template → template.kind = .static →
    windowAt? windows position = none → plan.countOf template.slide = 1
  cloned_never : ∀ template ∈ deck, template.kind = .cloned → plan.countOf template.slide = 0
  positions : plan.instances.map (·.position) =
    (List.range plan.instances.length).map fun number : Nat => (number : Int)
  distinct : (plan.instances.map fun shown => (shown.slide, shown.context, shown.offset)).Nodup

theorem countOf_numbered {plan : SlidePlan} {instances : List Instance}
    (same : plan.instances = Instance.numbered instances) (slide : Int) :
    plan.countOf slide = instances.countP (·.slide == slide) := by
  have views := map_numbered (·.slide) (fun _ _ => rfl) instances
  have counts := congrArg (List.countP (· == slide)) views
  rw [List.countP_map, List.countP_map] at counts
  rw [SlidePlan.countOf, same]
  exact counts

/-- The expansion of a deck with different ids is arranged. -/
theorem arranged_of_instances {deck : List SlideTemplate} (apart : (deck.map (·.slide)).Nodup)
    {plan : SlidePlan} {data : Value} (instances : plan.instances = Instance.numbered
      (instancesOf (planEntries deck (findWindows deck).1 data))) :
    Arranged deck (findWindows deck).1 plan := by
  obtain ⟨ordered, inside⟩ := findWindows_ordered deck
  have ascending := pairwise_planEntries apart ordered data
  refine ⟨ordered, inside, ?_, ?_, ?_, ?_, ?_, ?_⟩
  · intro shown member
    rw [instances] at member
    obtain ⟨original, among, position, rfl⟩ := mem_numbered member
    obtain ⟨place, template, there, origin⟩ := exists_origin ordered among
    exact ⟨place, template, there, origin.slide, origin.head_context⟩
  · have views := map_numbered (Instance.place deck (findWindows deck).1) (fun _ _ => rfl)
      (instancesOf (planEntries deck (findWindows deck).1 data))
    rw [instances, ← List.pairwise_map (f := Instance.place deck (findWindows deck).1) (R := (· < ·)),
      views, List.pairwise_map]
    exact ascending
  · intro position template there kind free
    rw [countOf_numbered instances]
    exact countP_of_static apart ordered there free kind data
  · intro template member kind
    rw [countOf_numbered instances]
    exact countP_of_cloned apart ordered member kind data
  · rw [instances, positions_numbered, Instance.numbered, List.length_map, List.length_zipIdx]
  · rw [instances, map_numbered _ (fun _ _ => rfl), List.Nodup, List.pairwise_map]
    apply ascending.imp
    intro left right before same
    obtain ⟨slide, context, offset⟩ : left.slide = right.slide ∧ left.context = right.context ∧
        left.offset = right.offset := by simpa using same
    rw [Instance.place_congr slide context offset] at before
    exact List.lt_irrefl _ before

/-- Template slides with different ids have an arranged plan, unless their aliases cannot be
expanded. -/
theorem plan_arranged (templates : List SlideTemplate) (distinct : (templates.map (·.slide)).Nodup)
    (data : Value) :
    match expandedDeck templates with
    | .error error => SlidePlan.ofTemplates templates data = .error error
    | .ok deck => ∃ planning, SlidePlan.ofTemplates templates data = .ok planning ∧
        Arranged deck (findWindows deck).1 planning.plan := by
  have spec := ofTemplates_spec templates data
  cases expanded : expandedDeck templates with
  | error error =>
    rw [expanded] at spec
    exact spec
  | ok deck =>
    rw [expanded] at spec
    obtain ⟨planning, planned, instances⟩ := spec
    exact ⟨planning, planned,
      arranged_of_instances (nodup_slides_expandedDeck distinct expanded) instances⟩

/-- A slide on its own, one for the elements of `p`, one for the items of each `c` below them, and
one that is never shown. -/
def nestedDeck : List SlideTemplate :=
  [⟨1, 0, .static, [], [], none, none, 0, 0⟩, ⟨2, 1, .source, [], [], some "p", some 0, 0, 0⟩,
    ⟨3, 2, .source, [], [], some "p>c", some 0, 0, 1⟩, ⟨4, 3, .cloned, [], [], none, none, 0, 0⟩]

theorem plan_arranged_nested : ∃ planning,
    SlidePlan.ofTemplates nestedDeck
      (.map [(.text "p", .list [.map [(.text "c", .list [.text "x", .text "y"])], .map []])]) =
        .ok planning ∧
    Arranged nestedDeck (findWindows nestedDeck).1 planning.plan := by
  have expanded : expandedDeck nestedDeck = .ok nestedDeck :=
    expandedDeck_of_plain (by simp [nestedDeck]) (by decide)
  have arranged := plan_arranged nestedDeck (by decide)
    (.map [(.text "p", .list [.map [(.text "c", .list [.text "x", .text "y"])], .map []])])
  rw [expanded] at arranged
  exact arranged

end DeckBinding
