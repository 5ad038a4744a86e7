import DeckBinding.Proofs.Generation.Run
import DeckBinding.Proofs.Plan.Made
import DeckBinding.Proofs.Plan.Openers

set_option autoImplicit false

namespace DeckBinding

open DeckBinding.Number DeckBinding.Text

namespace SlideTemplate

/-- Whether the options of a slide ask for an element: the one at its start, and from there on every
one behind as many as the slide shows. -/
def asksFor (template : SlideTemplate) (index : Nat) : Bool :=
  template.offset ≤ index && (index - template.offset) % template.itemsPerSlide == 0

/-- A slide of the result that begins some pages behind the start of its template. -/
def OnPage (template : SlideTemplate) (shown : Instance) : Prop :=
  ∃ page : Nat, shown.offset = ((template.offset + page * template.itemsPerSlide : Nat) : Int)

end SlideTemplate

variable {template : SlideTemplate} {window : Window} {data element : Value} {index : Nat}
  {context : ContextPath} {shown : Instance}

/-- The elements a slide asks for are those where its pages begin. -/
theorem SlideTemplate.onPage_of_asksFor (asks : template.asksFor index = true)
    (offset : shown.offset = (index : Int)) : template.OnPage shown := by
  unfold asksFor at asks
  simp only [Bool.and_eq_true, decide_eq_true_eq, beq_iff_eq] at asks
  obtain ⟨behind, whole⟩ := asks
  have divided := Nat.div_add_mod (index - template.offset) template.itemsPerSlide
  rw [whole, Nat.mul_comm] at divided
  refine ⟨(index - template.offset) / template.itemsPerSlide, ?_⟩
  rw [offset]
  congr 1
  omega

theorem onPage_of_mem_shownPages {parentIndex : Option Int} {items : Nat}
    (member : shown ∈ template.shownPages context parentIndex items) : template.OnPage shown := by
  obtain ⟨page, _, rfl⟩ := List.mem_map.1 member
  exact ⟨page, rfl⟩

theorem onPage_of_mem_nestedEntries {chunks : List String}
    (member : shown ∈ instancesOf (nestedEntries template context element chunks))
    (filled : shown.empty = false) : template.OnPage shown := by
  obtain ⟨more, chunk, inner, _, _, leaf⟩ := mem_nestedEntries member
  rw [instancesOf_leafEntries] at leaf
  split at leaf
  · rw [List.mem_singleton.1 leaf] at filled
    cases filled
  · exact onPage_of_mem_shownPages leaf

/-- In a window a slide shows a page, or, when its collection is not nested, the element itself. -/
theorem mem_memberEntries
    (member : shown ∈ instancesOf (memberEntries window data index element template))
    (filled : shown.empty = false) :
    template.OnPage shown ∨ shown = template.onceAt window.collection index ∧
      (template.kind = .static ∨ template.isNested = false) := by
  unfold memberEntries at member
  cases parts : template.chunks with
  | nil =>
    rw [parts] at member
    refine .inr ⟨List.mem_singleton.1 member, .inr ?_⟩
    unfold SlideTemplate.isNested
    rw [parts]
    rfl
  | cons first rest =>
    rw [parts] at member
    dsimp only at member
    by_cases once : template.kind = .static ∨ (rest = [] ∧ first = window.collection)
    · rw [if_pos once] at member
      refine .inr ⟨List.mem_singleton.1 member, once.imp_right ?_⟩
      rintro ⟨rfl, _⟩
      unfold SlideTemplate.isNested
      rw [parts]
      rfl
    · rw [if_neg once] at member
      by_cases below : first = window.collection
      · rw [if_pos below] at member
        exact .inl (onPage_of_mem_nestedEntries member filled)
      · rw [if_neg below, instancesOf_flatEntries] at member
        exact .inl (onPage_of_mem_shownPages member)

section Offsets

variable {deck : List SlideTemplate} {windows : List Window} {position : Nat}

/-- How a slide of the result begins whose template repeats over a collection: on a page behind the
start that the template asks for, or at the element of a window over that collection. Such a window
is a range, or starts at another slide, or is led by this one. -/
inductive Begins (windows : List Window) (position : Nat) (template : SlideTemplate) (path : String)
    (offset : Nat) (shown : Instance) : Prop where
  | page (page : Nat)
      (begins : shown.offset = ((offset + page * template.itemsPerSlide : Nat) : Int))
  | element {window : Window} {index : Nat} (inside : windowAt? windows position = some window)
      (shows : window.collection = path)
      (apart : window.explicit = true ∨ window.start ≠ position ∨ template.usesContext = false)
      (visited : window.visits index = true) (context : shown.context = [⟨path, (index : Int)⟩])
      (begins : shown.offset = (index : Int))

/-- Every slide of the expansion that stands in for nothing comes from a template slide, on a page
of it or at an element that its window visits. -/
theorem exists_onPage (ordered : windows.Pairwise fun left right => left.stop < right.start)
    (member : shown ∈ instancesOf (planEntries deck windows data)) (filled : shown.empty = false) :
    ∃ position template, deck[position]? = some template ∧ shown.slide = template.slide ∧
      (template.OnPage shown ∨ template.kind = .static ∨
        ∃ window index, windowAt? windows position = some window ∧ window.visits index = true ∧
          shown = template.onceAt window.collection index ∧ template.isNested = false) := by
  rw [instancesOf_planEntries] at member
  obtain ⟨⟨template, position⟩, among, shows⟩ := List.mem_flatMap.1 member
  have there : deck[position]? = some template := List.mem_zipIdx_iff_getElem?.1 among
  rcases mem_entriesAt shows with ⟨window, inside, _, below⟩ | ⟨free, _⟩
  · obtain ⟨index, element, _, visited, other, member, shows⟩ := mem_windowEntries below
    obtain ⟨_, place, holds, placed⟩ := position_of_mem_members member
    have same := windowAt?_of_covers ordered (mem_of_windowAt? inside).1 holds
    refine ⟨place, other, placed, (of_mem_memberEntries shows).1, ?_⟩
    rcases mem_memberEntries shows filled with page | ⟨once, kind | flat⟩
    · exact .inl page
    · exact .inr (.inl kind)
    · exact .inr (.inr ⟨window, index, same, visited, once, flat⟩)
  · refine ⟨position, template, there, slide_of_free free shown shows, ?_⟩
    by_cases kind : template.kind = .static
    · exact .inr (.inl kind)
    · rcases instancesOf_entriesAt_free free kind with none | pages
      · dsimp only at shows
        rw [none] at shows
        cases shows
      · dsimp only at shows
        rw [pages] at shows
        exact .inl (onPage_of_mem_shownPages shows)

theorem hasForeach_of_asked {path : String} {max offset : Nat}
    (asked : firstForeach? template.directives = some (path, max, offset)) :
    template.hasForeach = true :=
  List.any_eq_true.2 ⟨_, mem_of_firstForeach? asked, rfl⟩

/-- The window of a slide alone visits the elements that the slide asks for. -/
theorem visits_of_foreach (foreach : template.hasForeach = true) (flat : template.isNested = false)
    {collection : String} (first : window.first = (template.ownWindow position collection).first)
    (step : window.step = (template.ownWindow position collection).step) (index : Nat) :
    window.visits index = template.asksFor index := by
  have own : (template.hasForeach && !template.isNested) = true := by rw [foreach, flat]; rfl
  unfold SlideTemplate.ownWindow at first step
  rw [if_pos own] at first step
  unfold Window.visits SlideTemplate.asksFor
  rw [first, step]

/-- In the window that it opens for itself, a slide is shown for the elements that it asks for. -/
theorem asksFor_of_visits (opened : window.Opened deck) (there : deck[position]? = some template)
    (starts : window.start = position) (context : template.usesContext = true)
    (foreach : template.hasForeach = true) (flat : template.isNested = false)
    (visited : window.visits index = true) : template.asksFor index = true := by
  obtain ⟨opener, here, opens⟩ := opened
  rw [starts] at here
  obtain rfl : template = opener := Option.some.inj (there.symm.trans here)
  cases opens with
  | leading leads =>
    unfold SlideTemplate.leads at leads
    rw [context] at leads
    simp at leads
  | own _ _ first step => rwa [← visits_of_foreach foreach flat first step]

theorem begins_of_onPage {ranges : List Window} {slides : Nat} (placed : Placed deck ranges slides windows)
    (there : deck[position]? = some template) (built : template.OfParts) {path : String}
    {max offset : Nat} (asked : firstForeach? template.directives = some (path, max, offset))
    (collection : shown.collection = some path)
    (made : template.OnPage shown ∨ template.kind = .static ∨
      ∃ window index, windowAt? windows position = some window ∧ window.visits index = true ∧
        shown = template.onceAt window.collection index ∧ template.isNested = false) :
    Begins windows position template path offset shown := by
  obtain ⟨kind, _, rfl⟩ := built.asked asked
  rcases made with ⟨page, begins⟩ | static | ⟨window, index, inside, visited, rfl, flat⟩
  · exact .page page begins
  · exact absurd static kind
  · have shows : window.collection = path := Option.some.inj collection
    by_cases apart : window.explicit = true ∨ window.start ≠ position ∨ template.usesContext = false
    · refine .element inside shows apart visited ?_ rfl
      rw [← shows]
      rfl
    · simp only [not_or, Bool.not_eq_true, Decidable.not_not, Bool.not_eq_false] at apart
      obtain ⟨implicit, starts, context⟩ := apart
      have opened := placed.opened window (mem_of_windowAt? inside).1 implicit
      have asks := asksFor_of_visits opened there starts context (hasForeach_of_asked asked) flat visited
      have paged : template.OnPage (template.onceAt window.collection index) :=
        SlideTemplate.onPage_of_asksFor asks rfl
      obtain ⟨page, begins⟩ := paged
      exact .page page begins

/-- Each slide of a plan comes from a template slide; when that one repeats over a collection and
the slide shows the collection, it begins as `#foreach` asks or at the element of a window over
it. -/
theorem plan_begins (templates : List SlideTemplate)
    (analyzed : ∀ template ∈ templates, template.OfParts) (data : Value) :
    match expandedDeck templates with
    | .error error => SlidePlan.ofTemplates templates data = .error error
    | .ok deck => ∃ planning, SlidePlan.ofTemplates templates data = .ok planning ∧
        ∀ shown ∈ planning.plan.instances, shown.empty = false →
          ∃ position template, deck[position]? = some template ∧ shown.slide = template.slide ∧
            ∀ path max offset, firstForeach? template.directives = some (path, max, offset) →
              shown.collection = some path →
              Begins (findWindows deck).1 position template path offset shown := by
  have spec := ofTemplates_spec templates data
  cases expanded : expandedDeck templates with
  | error error =>
    rw [expanded] at spec
    exact spec
  | ok deck =>
    rw [expanded] at spec
    obtain ⟨planning, planned, instances⟩ := spec
    refine ⟨planning, planned, fun shown member filled => ?_⟩
    rw [instances] at member
    obtain ⟨original, among, number, rfl⟩ := mem_numbered member
    obtain ⟨position, template, there, slide, made⟩ :=
      exists_onPage (findWindows_ordered deck).1 among filled
    refine ⟨position, template, there, slide, fun path max offset asked collection => ?_⟩
    have built := ofParts_of_mem_deck analyzed expanded template (List.mem_of_getElem? there)
    have first : Begins (findWindows deck).1 position template path offset original :=
      begins_of_onPage (findWindows_placed deck) there built asked collection made
    cases first with
    | page page begins => exact .page page begins
    | element inside shows apart visited context begins =>
      exact .element inside shows apart visited context begins

end Offsets

def twoNames : Value :=
  .map [(.text "w", .list [.map [(.text "n", .text "a")], .map [(.text "n", .text "b")]])]

def currentName : Expression :=
  .ofPath "$\x7bw>n\x7d" ⟨⟨"w", none⟩, [(.context, ⟨"n", none⟩)]⟩

def firstName : Expression :=
  .ofPath "$\x7bw[0].n\x7d" ⟨⟨"w", some 0⟩, [(.member, ⟨"n", none⟩)]⟩

/-- A slide for the elements from the second one on, which follows the current element, and a slide
that follows it too. -/
def followingTemplates : List SlideTemplate :=
  [⟨1, 0, .source, [.foreach "w" 0 1], [currentName], some "w", none, 0, 1⟩,
    ⟨2, 1, .source, [], [currentName], some "w", none, 0, 0⟩]

theorem quiet_followingTemplates : Quiet followingTemplates := by
  simp [Quiet, followingTemplates]

theorem plan_begins_following : ∃ planning,
    SlidePlan.ofTemplates followingTemplates twoNames = .ok planning ∧
    ∀ shown ∈ planning.plan.instances, shown.empty = false →
      ∃ position template, followingTemplates[position]? = some template ∧
        shown.slide = template.slide ∧
        ∀ path max offset, firstForeach? template.directives = some (path, max, offset) →
          shown.collection = some path →
          Begins (findWindows followingTemplates).1 position template path offset shown := by
  have expanded : expandedDeck followingTemplates = .ok followingTemplates :=
    expandedDeck_of_plain (by simp [followingTemplates, Directive.isAlias]) (by decide)
  have analyzed : ∀ template ∈ followingTemplates, template.OfParts := by
    unfold SlideTemplate.OfParts
    decide +kernel
  have begins := plan_begins followingTemplates analyzed twoNames
  rw [expanded] at begins
  exact begins

/-- A range of one slide, and a slide that leads another one. Both ask for the elements from the
second one on. -/
def leadingTemplates : List SlideTemplate :=
  [⟨1, 0, .source, [.range .begins "w", .foreach "w" 0 1, .range .ends "w"], [firstName], some "w",
      some 0, 0, 1⟩,
    ⟨2, 1, .source, [.foreach "w" 0 1], [firstName], some "w", some 0, 0, 1⟩,
    ⟨3, 2, .source, [], [currentName], some "w", none, 0, 0⟩]

/-- The first element is shown by a slide in a range and by a slide that leads another one, though
both ask for the elements behind it. -/
theorem range_and_leader_show_first_element :
    ∃ templates planning,
      (analyzeSlides [
        .ofTexts 1 ["$\x7bw[0].n\x7d".toList]
          "#range-begin: w\n#foreach: w, offset: 1\n#range-end: w".toList,
        .ofTexts 2 ["$\x7bw[0].n\x7d".toList] "#foreach: w, offset: 1".toList,
        .ofTexts 3 ["$\x7bw>n\x7d".toList] []]).toOption.map
          (fun analyses => analyses.map (·.template)) = some templates ∧
      SlidePlan.ofTemplates templates twoNames = .ok planning ∧
      ∀ template ∈ templates.take 2, firstForeach? template.directives = some ("w", 0, 1) ∧
        ∃ shown ∈ planning.plan.madeFrom template.slide,
          shown.empty = false ∧ shown.collection = some "w" ∧
          ∀ page : Nat, shown.offset ≠ ((1 + page * template.itemsPerSlide : Nat) : Int) := by
  have expanded : expandedDeck leadingTemplates = .ok leadingTemplates :=
    expandedDeck_of_plain (by simp [leadingTemplates, Directive.isAlias]) (by decide)
  have spec := ofTemplates_spec leadingTemplates twoNames
  rw [expanded] at spec
  obtain ⟨planning, planned, instances⟩ := spec
  rw [findWindows_of_ascending (by decide +kernel)] at instances
  have made : planning.plan.instances =
      [⟨1, 0, [⟨"w", 0⟩], 0, none, false, some "w"⟩, ⟨1, 1, [⟨"w", 1⟩], 1, none, false, some "w"⟩,
        ⟨2, 2, [⟨"w", 0⟩], 0, none, false, some "w"⟩, ⟨3, 3, [⟨"w", 0⟩], 0, none, false, some "w"⟩,
        ⟨2, 4, [⟨"w", 1⟩], 1, none, false, some "w"⟩, ⟨3, 5, [⟨"w", 1⟩], 1, none, false, some "w"⟩] := by
    rw [instances]
    decide +kernel
  refine ⟨leadingTemplates, planning, by decide +kernel, planned, fun template member => ?_⟩
  have behind (page size : Nat) : (0 : Int) ≠ ((1 + page * size : Nat) : Int) := by omega
  unfold SlidePlan.madeFrom
  rw [made]
  rcases List.mem_cons.1 member with rfl | second
  · exact ⟨rfl, _, List.mem_cons_self, rfl, rfl, fun page => behind page _⟩
  · obtain rfl := List.mem_singleton.1 second
    exact ⟨rfl, _, List.mem_cons_self, rfl, rfl, fun page => behind page _⟩

section Following

variable {deck : List SlideTemplate} {windows : List Window} {position : Nat} {collection : String}

theorem collection_of_chunks (single : template.chunks = [collection]) :
    template.collection = some collection ∧ collection ≠ "" := by
  unfold SlideTemplate.chunks at single
  cases here : template.collection with
  | none =>
    rw [here] at single
    cases single
  | some text =>
    rw [here] at single
    dsimp only at single
    split at single
    · cases single
    · rename_i filled
      obtain ⟨letters, parts, rfl⟩ := List.map_eq_singleton_iff.1 single
      have whole := joinWith_splitAt '>' text.toList
      rw [parts] at whole
      obtain rfl : text = String.ofList letters :=
        String.ofList_toList.symm.trans (congrArg String.ofList whole.symm)
      refine ⟨rfl, fun empty => filled ?_⟩
      rw [empty]
      rfl

theorem chunks_of_outer (flat : template.isNested = false) (outer : template.outer = collection)
    (filled : collection ≠ "") : template.chunks = [collection] := by
  unfold SlideTemplate.isNested at flat
  unfold SlideTemplate.outer at outer
  cases parts : template.chunks with
  | nil =>
    rw [parts] at outer
    exact absurd outer.symm filled
  | cons first rest =>
    rw [parts] at flat outer
    cases rest with
    | nil => rw [← outer]; rfl
    | cons next rest => simp at flat

theorem visited_indices (window : Window) (data : Value) :
    (window.visited data).map Prod.snd =
      (List.range (itemsAt data window.collection).length).filter window.visits := by
  unfold Window.visited
  rw [List.range_eq_range', ← List.zipIdx_map_snd, List.filter_map]
  rfl

/-- A slide over the collection of its window is made once for each element that the window
visits. -/
theorem Sole.contexts (sole : Sole deck position template) (kind : template.kind ≠ .cloned)
    (ordered : windows.Pairwise fun left right => left.stop < right.start)
    (inside : windowAt? windows position = some window)
    (single : template.chunks = [window.collection]) (data : Value) :
    ((instancesOf (planEntries deck windows data)).filter (·.slide == template.slide)).map (·.context) =
      ((List.range (itemsAt data window.collection).length).filter window.visits).map
        fun index => [⟨window.collection, (index : Int)⟩] := by
  rw [sole.made_of_inside kind ordered inside, ← visited_indices, List.map_map, List.map_flatMap]
  have once (entry : Value × Nat) : (instancesOf (memberEntries window data entry.2 entry.1
      template)).map (·.context) = [[⟨window.collection, (entry.2 : Int)⟩]] := by
    rw [memberEntries_single single]
    rfl
  simp only [once]
  exact List.map_eq_flatMap.symm

/-- A window that a slide opens visits all elements, or those that this slide asks for. -/
theorem Window.Opened.visits (opened : window.Opened deck) :
    (∀ index, window.visits index = true) ∨
      ∃ opener, deck[window.start]? = some opener ∧ opener.NeedsContext ∧
        opener.outer = window.collection ∧ opener.hasForeach = true ∧ opener.isNested = false ∧
        ∀ index, window.visits index = opener.asksFor index := by
  have every (first : window.first = 0) (step : window.step = 1) (index : Nat) :
      window.visits index = true := by
    unfold Window.visits
    rw [first, step, Nat.mod_one]
    simp
  obtain ⟨opener, there, opens⟩ := opened
  cases opens with
  | leading _ first step => exact .inl (every first step)
  | own needs outer first step =>
    by_cases asks : opener.hasForeach = true ∧ opener.isNested = false
    · obtain ⟨foreach, flat⟩ := asks
      exact .inr ⟨opener, there, needs, outer, foreach, flat,
        visits_of_foreach foreach flat first step⟩
    · have other : ¬ (opener.hasForeach && !opener.isNested) = true := by
        simpa using asks
      unfold SlideTemplate.ownWindow at first step
      rw [if_neg other] at first step
      exact .inl (every first step)

/-- A slide that follows the current element of a collection, and asks for no elements itself, is
made once for each element; or once for each one that an earlier slide of this kind asks for, when
it has joined the window of that slide. -/
theorem plan_visits (templates deck : List SlideTemplate) (expanded : expandedDeck templates = .ok deck)
    (position : Nat) (template : SlideTemplate) (sole : Sole deck position template)
    (kind : template.kind = .source) (context : template.usesContext = true)
    (silent : template.hasForeach = false) (collection : String)
    (single : template.chunks = [collection])
    (unmarked : windowAt? (rangeWindows 0 0 deck).1 position = none) (data : Value)
    (items : List Value) (found : collectionItems data.plain collection = .ok items) :
    ∃ planning, SlidePlan.ofTemplates templates data = .ok planning ∧
      ((planning.plan.madeFrom template.slide).map (·.context) =
          (List.range items.length).map (fun index => [⟨collection, (index : Int)⟩]) ∨
        ∃ place leader, place < position ∧ deck[place]? = some leader ∧ leader.kind = .source ∧
          leader.usesContext = true ∧ leader.hasForeach = true ∧
          leader.collection = some collection ∧
          (planning.plan.madeFrom template.slide).map (·.context) =
            ((List.range items.length).filter leader.asksFor).map
              fun index => [⟨collection, (index : Int)⟩]) := by
  have spec := ofTemplates_spec templates data
  rw [expanded] at spec
  obtain ⟨planning, planned, instances⟩ := spec
  obtain ⟨ordered, _⟩ := findWindows_ordered deck
  have placed := findWindows_placed deck
  have inside := (List.getElem?_eq_some_iff.1 sole.there).1
  obtain ⟨window, member, holds, implicit, shows⟩ :=
    placed.served position inside template sole.there ⟨kind, .inl context⟩ unmarked
  have outer : template.outer = collection := by
    unfold SlideTemplate.outer
    rw [single]
    rfl
  obtain rfl := shows.trans outer
  have contexts := sole.contexts (by rw [kind]; decide) ordered
    (windowAt?_of_covers ordered member holds) single data.plain
  have count : itemsAt data.plain window.collection = items := by
    unfold itemsAt
    rw [found]
    rfl
  rw [← map_madeFrom instances (·.context) fun _ _ => rfl, count] at contexts
  refine ⟨planning, planned, ?_⟩
  rw [contexts]
  rcases (placed.opened window member implicit).visits with
    all | ⟨leader, there, needs, leading, foreach, flat, asks⟩
  · refine .inl (congrArg _ (List.filter_eq_self.2 fun index _ => all index))
  · right
    have bounds := Window.covers_iff.1 holds
    have apart : window.start ≠ position := by
      intro same
      rw [same, sole.there] at there
      rw [← Option.some.inj there, silent] at foreach
      cases foreach
    obtain ⟨source, uses | nested⟩ := needs
    · have whole := chunks_of_outer flat leading (collection_of_chunks single).2
      refine ⟨window.start, leader, by omega, there, source, uses, foreach,
        (collection_of_chunks whole).1, ?_⟩
      rw [funext asks]
    · rw [flat] at nested
      cases nested

end Following

def lonelyTemplates : List SlideTemplate :=
  [⟨2, 0, .source, [], [currentName], some "w", none, 0, 0⟩]

theorem plan_visits_lonely : ∃ planning,
    SlidePlan.ofTemplates lonelyTemplates twoNames = .ok planning ∧
    (planning.plan.madeFrom 2).map (·.context) = [[⟨"w", 0⟩], [⟨"w", 1⟩]] := by
  have expanded : expandedDeck lonelyTemplates = .ok lonelyTemplates :=
    expandedDeck_of_plain (by simp [lonelyTemplates]) (by decide)
  obtain ⟨planning, planned, all | ⟨place, leader, before, _⟩⟩ := plan_visits lonelyTemplates
    lonelyTemplates expanded 0 _ (sole_singleton _) rfl (by decide) rfl "w" (by decide +kernel) rfl
    twoNames [.map [(.text "n", .text "a")], .map [(.text "n", .text "b")]] rfl
  · exact ⟨planning, planned, all⟩
  · exact absurd before (Nat.not_lt_zero place)

/-- The slide that joins the window of the slide in front of it is not shown for the first
element. -/
theorem joined_slide_misses_first_element :
    ∃ templates planning template,
      (analyzeSlides [
        .ofTexts 1 ["$\x7bw>n\x7d".toList] "#foreach: w, offset: 1".toList,
        .ofTexts 2 ["$\x7bw>n\x7d".toList] []]).toOption.map
          (fun analyses => analyses.map (·.template)) = some templates ∧
      templates[1]? = some template ∧ template.slide = 2 ∧ template.kind = .source ∧
      template.usesContext = true ∧ template.hasForeach = false ∧ template.chunks = ["w"] ∧
      (rangeWindows 0 0 templates).1 = [] ∧ (itemsAt twoNames.plain "w").length = 2 ∧
      SlidePlan.ofTemplates templates twoNames = .ok planning ∧
      (planning.plan.madeFrom 2).map (·.context) = [[⟨"w", 1⟩]] := by
  obtain ⟨planning, planned, instances, _⟩ :=
    ofTemplates_quiet quiet_followingTemplates (by decide) twoNames
  refine ⟨followingTemplates, planning, _, by decide +kernel, rfl, rfl, rfl, by decide, rfl,
    by decide +kernel, ?_, rfl, planned, ?_⟩
  · rw [rangeWindows_of_quiet quiet_followingTemplates]
  · unfold SlidePlan.madeFrom
    rw [instances]
    decide +kernel

end DeckBinding
