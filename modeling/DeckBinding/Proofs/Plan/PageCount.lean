import DeckBinding.Proofs.Generation.Flat
import DeckBinding.Proofs.Number.Ceiling
import DeckBinding.Proofs.Plan.Made
import DeckBinding.Proofs.Resolution.Context

set_option autoImplicit false

namespace DeckBinding

open DeckBinding.Number DeckBinding.Text

variable {template : SlideTemplate} {data element : Value} {context : ContextPath}

/-- Fewest pages hold the items, if the quotient does not vanish. -/
theorem pageCount_eq_ite {items size : Nat} (positive : 0 < size) (few : items < 2 ^ 53) :
    pageCount items size = if Binary64.Vanishes items size then 0 else (items + size - 1) / size := by
  unfold pageCount
  rw [Binary64.ceil?_ofQuotient_eq positive few, Option.getD_some, Int.toNat_natCast]

theorem length_shownPages (template : SlideTemplate) (context : ContextPath) (parentIndex : Option Int)
    (items : Nat) : (template.shownPages context parentIndex items).length =
      pageCount (items - template.offset) template.itemsPerSlide := by
  unfold SlideTemplate.shownPages
  rw [List.length_map, List.length_range]

theorem exists_index_of_element? {segment : ContextSegment}
    (found : segment.element? data = some element) :
    ∃ index : Nat, segment.index = (index : Int) ∧
      (itemsAt data segment.name)[index]? = some element := by
  obtain ⟨path, _, reached⟩ := exists_of_element? found
  rcases Int.lt_or_le segment.index 0 with negative | least
  · obtain ⟨collection, _, taken⟩ := Option.bind_eq_some_iff.1 reached
    rw [Value.item?_of_neg collection negative] at taken
    cases taken
  · obtain ⟨index, same⟩ := Int.eq_ofNat_of_zero_le least
    refine ⟨index, same, ?_⟩
    rw [← element?_natCast, ← same]
    exact found

/-- Of the slides of a nested template, those with the context of one element show the collection
below that element. -/
theorem filter_nestedEntries {more : ContextPath} {chunk : String} {inner : Value}
    (reached : more.follow element = some inner) :
    (instancesOf (nestedEntries template context element (more.map (·.name) ++ [chunk]))).filter
        (·.context == context ++ more) =
      instancesOf (leafEntries template (context ++ more) (itemsAt inner chunk)) := by
  induction more generalizing context element with
  | nil =>
    obtain rfl : element = inner := Option.some.inj reached
    rw [List.map_nil, List.nil_append, List.append_nil, instancesOf_nestedEntries_single,
      List.filter_eq_self]
    intro shown member
    rcases mem_leafEntries member with ⟨_, rfl⟩ | ⟨offset, rfl⟩
    · exact beq_self_eq_true context
    · exact beq_self_eq_true context
  | cons segment rest ih =>
    obtain ⟨item, step, further⟩ := Option.bind_eq_some_iff.1 reached
    obtain ⟨index, number, there⟩ := exists_index_of_element? step
    have whole : context ++ segment :: rest = (context ++ [segment]) ++ rest := by simp
    obtain ⟨next, chunks, parts⟩ : ∃ next chunks, rest.map (·.name) ++ [chunk] = next :: chunks :=
      List.exists_cons_of_ne_nil (by simp)
    have among : (itemsAt element segment.name).zipIdx[index]? = some (item, index) := by
      rw [List.getElem?_zipIdx, there, Option.map_some, Nat.zero_add]
    rw [List.map_cons, List.cons_append, parts, instancesOf_nestedEntries_cons, List.filter_flatMap,
      flatMap_eq_of_only _ among]
    · dsimp only
      rw [← parts, ← number, whole]
      exact ih further
    · -- Below another element the contexts go on from another index
      rintro place ⟨other, position⟩ found apart
      obtain ⟨rfl, _⟩ := zipIdx_getElem? found
      rw [List.filter_eq_nil_iff]
      intro shown member same
      obtain ⟨_, behind, begins⟩ := of_mem_nestedEntries member
      rw [begins, beq_iff_eq, List.append_assoc, List.append_cancel_left_eq] at same
      have head := congrArg ContextSegment.index (List.cons.inj same).1
      rw [number] at head
      exact apart (Int.ofNat.inj head)

section Counting

variable {deck : List SlideTemplate} {windows : List Window} {position : Nat} {window : Window}
  {chunk : String}

/-- Where no two template slides have one id, each is the sole one with its id. -/
theorem sole_of_nodup (apart : (deck.map (·.slide)).Nodup) (there : deck[position]? = some template) :
    Sole deck position template := by
  refine ⟨there, fun place other found same => ?_⟩
  have inside : place < (deck.map (·.slide)).length := by
    rw [List.length_map]
    exact (List.getElem?_eq_some_iff.1 found).1
  apply (List.getElem?_inj inside apart).1
  rw [List.getElem?_map, List.getElem?_map, found, there, Option.map_some, Option.map_some, same]

/-- Outside the windows a sole template slide gets the pages of its collection. -/
theorem Sole.length_of_free (sole : Sole deck position template) (kind : template.kind = .source)
    (ordered : windows.Pairwise fun left right => left.stop < right.start)
    (free : windowAt? windows position = none) (data : Value) :
    ((instancesOf (planEntries deck windows data)).filter (·.slide == template.slide)).length =
      pageCount ((itemsAt data (template.collection.getD "")).length - template.offset)
        template.itemsPerSlide := by
  have made : instancesOf (entriesAt deck windows data template position) =
      template.shownPages [] none (itemsAt data (template.collection.getD "")).length := by
    unfold entriesAt
    rw [free, kind]
    exact instancesOf_flatEntries template data []
  rw [sole.made_of_free ordered free data, made, length_shownPages]

/-- In a window a sole template slide makes, below one element, what it shows of the collection
there. -/
theorem Sole.made_below (sole : Sole deck position template) (kind : template.kind = .source)
    (ordered : windows.Pairwise fun left right => left.stop < right.start)
    (inside : windowAt? windows position = some window) {index : Nat} {more : ContextPath}
    (leads : LeadsTo data window template (⟨window.collection, (index : Int)⟩ :: more) chunk element)
    (visited : window.visits index = true) :
    ((instancesOf (planEntries deck windows data)).filter (·.slide == template.slide)).filter
        (·.context == ⟨window.collection, (index : Int)⟩ :: more) =
      instancesOf (leafEntries template (⟨window.collection, (index : Int)⟩ :: more)
        (itemsAt element chunk)) := by
  obtain ⟨item, step, further⟩ := Option.bind_eq_some_iff.1 leads.reached
  rw [element?_natCast] at step
  obtain ⟨next, rest, parts⟩ : ∃ next rest, more.map (·.name) ++ [chunk] = next :: rest :=
    List.exists_cons_of_ne_nil (by simp)
  have chunks : template.chunks = window.collection :: next :: rest := by
    rw [leads.chunks, List.map_cons, List.cons_append, parts]
  have nested (number : Nat) (value : Value) : memberEntries window data number value template =
      nestedEntries template [⟨window.collection, (number : Int)⟩] value (next :: rest) := by
    unfold memberEntries
    rw [chunks]
    dsimp only
    rw [if_neg, if_pos rfl]
    rw [kind]
    simp
  have among : (itemsAt data window.collection).zipIdx[index]? = some (item, index) := by
    rw [List.getElem?_zipIdx, step, Option.map_some, Nat.zero_add]
  rw [sole.made_of_inside (by rw [kind]; decide) ordered inside data, List.filter_flatMap]
  unfold Window.visited
  rw [flatMap_filter, flatMap_eq_of_only _ among]
  · rw [if_pos visited, nested, ← parts]
    exact @filter_nestedEntries template item [⟨window.collection, (index : Int)⟩] more chunk element
      further
  · rintro place ⟨other, number⟩ found apart
    obtain ⟨rfl, _⟩ := zipIdx_getElem? found
    split
    · rw [List.filter_eq_nil_iff]
      intro shown member same
      obtain ⟨_, behind, begins⟩ := of_mem_memberEntries member
      rw [begins, beq_iff_eq] at same
      have head := congrArg ContextSegment.index (List.cons.inj same).1
      exact apart (Int.ofNat.inj head)
    · rfl

end Counting

/-- A template slide outside the windows is made as often as pages are needed for the items behind
its start, and a nested one as often below each element that its window visits, when there are items
left to show. Only pages so large that the quotient vanishes are not made at all. -/
theorem plan_page_count (templates deck : List SlideTemplate)
    (expanded : expandedDeck templates = .ok deck) (position : Nat) (template : SlideTemplate)
    (sole : Sole deck position template) (kind : template.kind = .source) (data : Value) :
    ∃ planning, SlidePlan.ofTemplates templates data = .ok planning ∧
      (windowAt? (findWindows deck).1 position = none → ∀ left,
        (itemsAt data.plain (template.collection.getD "")).length < 2 ^ 53 →
        (itemsAt data.plain (template.collection.getD "")).length - template.offset = left →
        (planning.plan.madeFrom template.slide).length =
          if Binary64.Vanishes left template.itemsPerSlide then 0
          else (left + template.itemsPerSlide - 1) / template.itemsPerSlide) ∧
      ∀ window index more chunk element,
        windowAt? (findWindows deck).1 position = some window → window.visits index = true →
        LeadsTo data.plain window template (⟨window.collection, (index : Int)⟩ :: more) chunk element →
        ∀ left, (itemsAt element chunk).length < 2 ^ 53 →
          (itemsAt element chunk).length = template.offset + left → 0 < left →
          (planning.plan.madeFrom template.slide).countP
              (·.context == ⟨window.collection, (index : Int)⟩ :: more) =
            if Binary64.Vanishes left template.itemsPerSlide then 0
            else (left + template.itemsPerSlide - 1) / template.itemsPerSlide := by
  have spec := ofTemplates_spec templates data
  rw [expanded] at spec
  obtain ⟨planning, planned, instances⟩ := spec
  obtain ⟨ordered, _⟩ := findWindows_ordered deck
  have contexts : (planning.plan.madeFrom template.slide).map (·.context) =
      ((instancesOf (planEntries deck (findWindows deck).1 data.plain)).filter
        (·.slide == template.slide)).map (·.context) :=
    map_madeFrom instances (·.context) fun _ _ => rfl
  refine ⟨planning, planned, ?_, ?_⟩
  · rintro free left few rfl
    have length := congrArg List.length contexts
    rw [List.length_map, List.length_map, sole.length_of_free kind ordered free] at length
    rw [length, pageCount_eq_ite template.itemsPerSlide_pos (by omega)]
  · intro window index more chunk element inside visited leads left few whole filled
    have counts := congrArg (List.countP (· == ⟨window.collection, (index : Int)⟩ :: more)) contexts
    rw [List.countP_map, List.countP_map] at counts
    refine counts.trans ?_
    have below := sole.made_below kind ordered inside leads visited
    rw [instancesOf_leafEntries, if_neg (by omega)] at below
    have length := congrArg List.length below
    rw [length_shownPages, ← List.countP_eq_length_filter] at length
    refine length.trans ?_
    rw [whole, Nat.add_sub_cancel_left, pageCount_eq_ite template.itemsPerSlide_pos (by omega)]

/-- Slides with two items each: one from the second item on, one below the elements of a
collection. -/
def pagedDeck : List SlideTemplate :=
  [⟨1, 0, .source, [.foreach "w" 2 1], [], some "w", none, 2, 1⟩,
    ⟨2, 1, .source, [], [], some "p>c", some 1, 0, 0⟩]

def pagedData : Value :=
  .map [(.text "w", .list [.text "a", .text "b", .text "c", .text "d"]),
    (.text "p", .list [.map [(.text "c", .list [.text "e", .text "f", .text "g"])]])]

theorem plan_page_count_two_items : ∃ planning,
    SlidePlan.ofTemplates pagedDeck pagedData = .ok planning ∧
    (planning.plan.madeFrom 1).length = 2 ∧
    (planning.plan.madeFrom 2).countP (·.context == [⟨"p", ((0 : Nat) : Int)⟩]) = 2 := by
  have expanded : expandedDeck pagedDeck = .ok pagedDeck :=
    expandedDeck_of_plain (by simp [pagedDeck, Directive.isAlias]) (by decide)
  have windows : (findWindows pagedDeck).1 = [.forEach 1 1 "p" false (Nat.le_refl _)] := by
    rw [findWindows_of_ascending (by decide +kernel)]
    rfl
  have fills : ¬ Binary64.Vanishes 3 2 := by decide +kernel
  obtain ⟨planning, planned, pages, _⟩ := plan_page_count pagedDeck pagedDeck expanded 0 _
    (sole_of_nodup (by decide) rfl) rfl pagedData
  obtain ⟨again, same, _, below⟩ := plan_page_count pagedDeck pagedDeck expanded 1 _
    (sole_of_nodup (by decide) rfl) rfl pagedData
  obtain rfl : planning = again := Except.ok.inj (planned.symm.trans same)
  refine ⟨planning, planned, ?_, ?_⟩
  · have length := pages (by rw [windows]; rfl) 3 (by decide +kernel) (by decide +kernel)
    exact length.trans (if_neg fills)
  · have leads : LeadsTo pagedData.plain (.forEach 1 1 "p" false (Nat.le_refl _)) pagedDeck[1]
        [⟨"p", ((0 : Nat) : Int)⟩] "c" (.map [(.text "c", .list [.text "e", .text "f", .text "g"])]) :=
      ⟨⟨_, _, rfl⟩, by decide +kernel, rfl⟩
    have count := below _ 0 [] "c" _ (by rw [windows]; rfl) rfl leads 3 (by decide +kernel)
      (by decide +kernel) (by decide)
    exact count.trans (if_neg fills)

/-- The only item of a collection is on no slide when the page is so large that the quotient
vanishes. -/
theorem vast_page_shows_nothing : ∃ template planning,
    (analyzeSlides [.ofTexts 1 ["x".toList]
        ("#foreach: a, max: 1".toList ++ List.replicate 324 '0')]).toOption.map
          (fun analyses => analyses.map (·.template)) = some [template] ∧
      template.kind = .source ∧ template.collection = some "a" ∧ template.offset = 0 ∧
      template.itemsPerSlide = tenTo 324 ∧ windowAt? (findWindows [template]).1 0 = none ∧
      SlidePlan.ofTemplates [template] (.map [(.text "a", .list [.text "x"])]) = .ok planning ∧
      (itemsAt (Value.plain (.map [(.text "a", .list [.text "x"])])) "a").length = 1 ∧
      (1 - 0 + template.itemsPerSlide - 1) / template.itemsPerSlide = 1 ∧
      (planning.plan.madeFrom template.slide).length = 0 := by
  have quiet : Quiet [⟨1, 0, .source, [.foreach "a" (tenTo 324) 0], [], some "a", none, tenTo 324, 0⟩] := by
    simp [Quiet]
  obtain ⟨planning, planned, instances, _⟩ :=
    ofTemplates_quiet quiet (by decide) (.map [(.text "a", .list [.text "x"])])
  have windows := findWindows_singleton quiet rfl (by decide +kernel)
  refine ⟨_, planning, by decide +kernel, rfl, rfl, rfl, by decide +kernel, by rw [windows]; rfl, planned,
    by decide +kernel, by decide +kernel, ?_⟩
  rw [windows] at instances
  unfold SlidePlan.madeFrom
  rw [instances]
  decide +kernel

end DeckBinding
