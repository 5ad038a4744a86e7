import DeckBinding.Proofs.Generation.Flat

set_option autoImplicit false

namespace DeckBinding

open DeckBinding.Number DeckBinding.Text

section Lists

variable {α β γ : Type} {related : α → β → Prop}

theorem exists_getElem?_of_forall₂ {left : List α} {right : List β}
    (each : List.Forall₂ related left right) {number : Nat} {y : β}
    (there : right[number]? = some y) : ∃ x, left[number]? = some x ∧ related x y := by
  induction each generalizing number with
  | nil => cases there
  | @cons x y' _ _ first _ ih =>
    cases number with
    | zero =>
      cases there
      exact ⟨x, rfl, first⟩
    | succ number => exact ih there

theorem flatMap_zipIdx_congr {left : List α} {right : List β}
    (each : List.Forall₂ related left right) {first : α × Nat → List γ} {second : β × Nat → List γ}
    (same : ∀ x y number, related x y → first (x, number) = second (y, number)) (start : Nat) :
    (left.zipIdx start).flatMap first = (right.zipIdx start).flatMap second := by
  induction each generalizing start with
  | nil => rfl
  | cons here _ ih =>
    rw [List.zipIdx_cons, List.zipIdx_cons, List.flatMap_cons, List.flatMap_cons,
      same _ _ _ here, ih]

/-- What stands in parts after a map stood in parts before. -/
theorem exists_groups {face : α → γ} {faces : β → List γ} {outputs : List α} {items : List β}
    (same : outputs.map face = items.flatMap faces) :
    ∃ groups : List (List α), outputs = groups.flatten ∧
      List.Forall₂ (fun group item => group.map face = faces item) groups items := by
  induction items generalizing outputs with
  | nil =>
    obtain rfl := List.map_eq_nil_iff.1 same
    exact ⟨[], rfl, .nil⟩
  | cons item rest ih =>
    obtain ⟨front, back, rfl, here, behind⟩ := List.map_eq_append_iff.1 same
    obtain ⟨groups, rfl, more⟩ := ih behind
    exact ⟨front :: groups, rfl, .cons here more⟩

end Lists

/-- Two slides in one window, which repeats for every element of a collection. -/
def pairWindow (collection : String) : Window :=
  .forEach 0 1 collection false (Nat.zero_le 1)

section Pair

variable {outer inner : SlideTemplate} {collection : String}

/-- A slide below elements that the slide in front of it shows joins it in a window. -/
theorem findWindows_pair (quiet : Quiet [outer, inner]) (leads : outer.leads collection = true)
    (flat : outer.isNested = false) (kind : inner.kind = .source)
    (context : inner.usesContext = true) (chunk : inner.chunks.headD "" = collection) :
    (findWindows [outer, inner]).1 = [pairWindow collection] := by
  have apart : outer.usesContext = false := by
    simp only [SlideTemplate.leads, Bool.and_eq_true, Bool.not_eq_true'] at leads
    exact leads.2
  have first : placeInWindow [outer, inner] [] outer 0 = [] := by
    unfold placeInWindow
    rw [apart, flat, if_pos (by simp)]
  have opens : attachment [outer, inner] [] (inner.chunks.headD "") 1 = .opens 0 := by
    rw [chunk]
    unfold attachment
    simp [windowAt?, leads]
  have second : placeInWindow [outer, inner] [] inner 1 = [pairWindow collection] := by
    unfold placeInWindow
    rw [kind, context, if_neg (by simp [windowAt?])]
    dsimp only
    split
    · rename_i member found
      rw [opens] at found
      cases found
    · rename_i parent found
      rw [opens] at found
      cases found
      simp only [List.nil_append, chunk, pairWindow]
    · rename_i found
      rw [opens] at found
      cases found
  unfold findWindows
  rw [rangeWindows_of_quiet quiet]
  show (placeInWindow [outer, inner] (placeInWindow [outer, inner] [] outer 0) inner 1).mergeSort _ = _
  rw [first, second, List.mergeSort_singleton]

theorem windowEntries_pair (kindOuter : outer.kind = .source) (kindInner : inner.kind = .source)
    {path : Path} (dotted : path.Dotted) {data : Value} {elements : List Value}
    (found : path.items? data = some elements) :
    windowEntries [outer, inner] (pairWindow path.text) data =
      elements.zipIdx.flatMap fun entry =>
        memberEntries (pairWindow path.text) data entry.2 entry.1 outer ++
          memberEntries (pairWindow path.text) data entry.2 entry.1 inner := by
  have members : (pairWindow path.text).members [outer, inner] = [outer, inner] := by
    show [outer, inner].filter (·.kind != .cloned) = _
    rw [List.filter_cons_of_pos (by rw [kindOuter]; rfl),
      List.filter_cons_of_pos (by rw [kindInner]; rfl), List.filter_nil]
  have visits : ∀ entry : Value × Nat, (pairWindow path.text).visits entry.2 = true := by
    intro entry
    simp [Window.visits, pairWindow, Window.forEach, Nat.mod_one]
  have all : (elements.zipIdx.filter fun entry => (pairWindow path.text).visits entry.2) =
      elements.zipIdx := by
    apply List.filter_eq_self.2
    intro entry _
    exact visits entry
  unfold windowEntries
  rw [show (pairWindow path.text).collection = path.text from rfl, withItems_text dotted found, members]
  dsimp only
  rw [all]
  apply List.flatMap_congr
  intro entry _
  rw [List.flatMap_cons, List.flatMap_singleton]

theorem planEntries_pair (data : Value) :
    planEntries [outer, inner] [pairWindow collection] data =
      windowEntries [outer, inner] (pairWindow collection) data := by
  have first : entriesAt [outer, inner] [pairWindow collection] data outer 0 =
      windowEntries [outer, inner] (pairWindow collection) data := rfl
  have second : entriesAt [outer, inner] [pairWindow collection] data inner 1 = [] := rfl
  show entriesAt _ _ data outer 0 ++ (entriesAt _ _ data inner 1 ++ []) = _
  rw [first, second, List.append_nil, List.append_nil]

variable {path below : Path} {size : Nat}

theorem memberEntries_once (dotted : path.Dotted) (pages : outer.Pages path.text 1 0) (data : Value)
    (index : Nat) (element : Value) :
    memberEntries (pairWindow path.text) data index element outer =
      [.shown (outer.onceAt path.text index)] :=
  memberEntries_single (pages.chunks_text dotted) data index element

theorem memberEntries_below (dotted : path.Dotted) (belowDotted : below.Dotted)
    (pages : inner.Pages (path.text ++ ">" ++ below.text) size 0) (positive : 0 < size)
    (small : size < 2 ^ 53) (data : Value) (index : Nat) {element : Value} {items : List Value}
    (found : below.items? element = some items) (few : items.length < 2 ^ 53) :
    memberEntries (pairWindow path.text) data index element inner =
      (inner.pagesBelow [⟨path.text, (index : Int)⟩] (some (index : Int)) size items.length).map
        .shown := by
  have nested : memberEntries (pairWindow path.text) data index element inner =
      leafEntries inner [⟨path.text, (index : Int)⟩] items := by
    unfold memberEntries
    rw [pages.chunks_below dotted belowDotted]
    show (if inner.kind = .static ∨ [below.text] = [] ∧ path.text = path.text then _
      else if path.text = path.text then _ else _) = _
    rw [if_neg (by simp [pages.kind]), if_pos rfl, nestedEntries, withItems_text belowDotted found]
    rfl
  rw [nested]
  exact leafEntries_pages pages positive small few _

end Pair

def pagesOf (size : Nat) (texts : List String) : List (List (List Char)) :=
  (pageStarts size texts.length).map (pageTexts texts size)

theorem length_pagesOf (size : Nat) (texts : List String) :
    (pagesOf size texts).length = max 1 ((texts.length + size - 1) / size) := by
  rw [pagesOf, List.length_map, pageStarts, List.length_map, List.length_range]

theorem pagesOf_nil {size : Nat} (positive : 0 < size) : pagesOf size [] = [[]] := by
  rw [pagesOf, List.length_nil, pageStarts_zero positive]
  simp [pageTexts]

theorem flatten_pagesOf {size : Nat} (positive : 0 < size) (texts : List String) :
    (pagesOf size texts).flatten = texts.map String.toList := by
  by_cases none : texts = []
  · rw [none, pagesOf_nil positive]
    rfl
  · have joined := flatMap_pageTexts positive texts 0
    simp only [Nat.sub_zero, Nat.zero_add, List.drop_zero] at joined
    rw [pagesOf, pageStarts_of_pos positive (List.length_pos_iff.2 none), ← List.flatMap_def,
      List.flatMap_map]
    exact joined

/-- An element with a text, and with a collection of texts below it. -/
structure HasItem (member : String) (below : Path) (element : Value) (item : String × List String) :
    Prop where
  text : element.member? member = some (.text item.1)
  items : below.items? element = some (item.2.map Value.text)
  few : item.2.length < 2 ^ 53

/-- What is made for one element: the first slide once, which shows the text of the element, and the
second slide page by page, which shows the texts below the element. -/
structure ShowsItem (outer inner : TemplateSlide) (size : Nat)
    (group : SlideOutput × List SlideOutput) (item : String × List String) : Prop where
  source : group.1.source = outer
  text : group.1.visibleTexts = [item.1.toList]
  sources : ∀ output ∈ group.2, output.source = inner
  count : group.2.length = max 1 ((item.2.length + size - 1) / size)
  texts : group.2.flatMap SlideOutput.visibleTexts = item.2.map String.toList
  hidden : item.2 = [] → ∀ output ∈ group.2, ∀ shape ∈ inner.shapes, shape.index ∈ output.hidden

theorem showsItem_of_faces {outer inner : TemplateSlide} {size : Nat} (positive : 0 < size)
    {outputs : List SlideOutput} {item : String × List String}
    (faces : outputs.map SlideOutput.face =
      (outer, [item.1.toList]) :: (pagesOf size item.2).map (inner, ·)) :
    ∃ group, outputs = group.1 :: group.2 ∧ ShowsItem outer inner size group item := by
  obtain ⟨first, rest, rfl, leading, behind⟩ := List.map_eq_cons_iff.1 faces
  have visible : rest.map SlideOutput.visibleTexts = pagesOf size item.2 := by
    have seconds := congrArg (·.map Prod.snd) behind
    rw [List.map_map, List.map_map] at seconds
    exact seconds.trans (List.map_id _)
  have sources : ∀ output ∈ rest, output.source = inner := by
    intro output member
    have among : output.face ∈ (pagesOf size item.2).map (inner, ·) := by
      rw [← behind]
      exact List.mem_map_of_mem member
    obtain ⟨page, _, same⟩ := List.mem_map.1 among
    exact (congrArg Prod.fst same).symm
  refine ⟨(first, rest), rfl, congrArg Prod.fst leading, congrArg Prod.snd leading, sources, ?_, ?_, ?_⟩
  · rw [← length_pagesOf, ← visible, List.length_map]
  · rw [← flatten_pagesOf positive, ← visible, List.flatMap_def]
  · intro none output member
    have blank : output.visibleTexts ∈ pagesOf size item.2 := by
      rw [← visible]
      exact List.mem_map_of_mem member
    rw [none, pagesOf_nil positive] at blank
    have hidden := hidden_of_visibleTexts_eq_nil (List.mem_singleton.1 blank)
    rwa [sources output member] at hidden

/-- The outputs for elements fall apart into the groups of each of them. -/
theorem exists_showsItems {outer inner : TemplateSlide} {size : Nat} (positive : 0 < size)
    {outputs : List SlideOutput} {items : List (String × List String)}
    (faces : outputs.map SlideOutput.face = items.flatMap fun item =>
      (outer, [item.1.toList]) :: (pagesOf size item.2).map (inner, ·)) :
    ∃ groups : List (SlideOutput × List SlideOutput),
      outputs = groups.flatMap (fun group => group.1 :: group.2) ∧
      List.Forall₂ (ShowsItem outer inner size) groups items := by
  obtain ⟨parts, rfl, each⟩ := exists_groups faces
  clear faces
  induction each with
  | nil => exact ⟨[], rfl, .nil⟩
  | cons here _ ih =>
    obtain ⟨group, rfl, shows⟩ := showsItem_of_faces positive here
    obtain ⟨groups, behind, more⟩ := ih
    refine ⟨group :: groups, ?_, .cons shows more⟩
    rw [List.flatten_cons, behind, List.flatMap_cons]

theorem membersAre_of_hasItem {member : String} {below : Path} {elements : List Value}
    {items : List (String × List String)}
    (each : List.Forall₂ (HasItem member below) elements items) :
    MembersAre elements member (items.map (·.1)) := by
  unfold MembersAre
  induction each with
  | nil => rfl
  | cons here _ ih => rw [List.map_cons, List.map_cons, List.map_cons, ih, here.text]

theorem pageTexts_one {texts : List String} {text : String} {index : Nat}
    (there : texts[index]? = some text) : pageTexts texts 1 index = [text.toList] := by
  rw [pageTexts, ← filterMap_getElem?_range]
  simp [there]

section Planned

variable {outerTemplate innerTemplate : SlideTemplate} {outer inner : TemplateSlide}
  {path below : Path} {member : String} {size : Nat}

/-- The slides of the result for one element, with what they are to show. -/
def plannedItem (outerTemplate innerTemplate : SlideTemplate) (outer inner : TemplateSlide)
    (collection : String) (size : Nat) (entry : (String × List String) × Nat) :
    List (Instance × Face) :=
  (outerTemplate.onceAt collection entry.2, (outer, [entry.1.1.toList])) ::
    (pageStarts size entry.1.2.length).map fun start =>
      ({ innerTemplate.pageAt [⟨collection, (entry.2 : Int)⟩] (some (entry.2 : Int)) start with
          empty := entry.1.2.length == 0 },
        (inner, pageTexts entry.1.2 size start))

theorem faces_planned (collection : String) (items : List (String × List String)) :
    (items.zipIdx.flatMap
      (plannedItem outerTemplate innerTemplate outer inner collection size)).map (·.2) =
      items.flatMap fun item => (outer, [item.1.toList]) :: (pagesOf size item.2).map (inner, ·) := by
  have faces (entry : (String × List String) × Nat) :
      (plannedItem outerTemplate innerTemplate outer inner collection size entry).map (·.2) =
        (outer, [entry.1.1.toList]) :: (pagesOf size entry.1.2).map (inner, ·) := by
    rw [plannedItem, List.map_cons, List.map_map, pagesOf, List.map_map]
    rfl
  rw [List.map_flatMap]
  simp only [faces]
  conv => rhs; rw [← List.zipIdx_map_fst 0 items, List.flatMap_map]

theorem entries_planned (dotted : path.Dotted) (belowDotted : below.Dotted)
    (pagesOuter : outerTemplate.Pages path.text 1 0)
    (pagesInner : innerTemplate.Pages (path.text ++ ">" ++ below.text) size 0)
    (positive : 0 < size) (small : size < 2 ^ 53) {data : Value} {elements : List Value}
    (found : path.items? data = some elements) {items : List (String × List String)}
    (each : List.Forall₂ (HasItem member below) elements items) :
    planEntries [outerTemplate, innerTemplate] [pairWindow path.text] data =
      (items.zipIdx.flatMap
        (plannedItem outerTemplate innerTemplate outer inner path.text size)).map
          fun entry => .shown entry.1 := by
  rw [planEntries_pair, windowEntries_pair pagesOuter.kind pagesInner.kind dotted found,
    List.map_flatMap]
  apply flatMap_zipIdx_congr each
  intro element item index has
  have few : (item.2.map Value.text).length < 2 ^ 53 := by
    rw [List.length_map]
    exact has.few
  rw [memberEntries_once dotted pagesOuter, memberEntries_below dotted belowDotted pagesInner positive
    small data index has.items few, plannedItem, List.map_cons, SlideTemplate.pagesBelow,
    List.map_map, List.map_map, List.length_map]
  rfl

theorem binds_planned (dotted : path.Dotted) (belowDotted : below.Dotted)
    (named : isName member = true) (bound : size < writeBound)
    (pagesInner : innerTemplate.Pages (path.text ++ ">" ++ below.text) size 0)
    (holdsOuter : outer.Holds 1 (path.elementMember member))
    (holdsInner : inner.Holds size (path.elementBelow below))
    {slides : List (Int × TemplateSlide)}
    (knownOuter : Keyed.get? outerTemplate.slide slides = some outer)
    (knownInner : Keyed.get? innerTemplate.slide slides = some inner) {resolver : Resolver}
    (bare : resolver.aliases = .empty) {elements : List Value}
    (found : path.items? resolver.root = some elements) (few : elements.length ≤ writeBound)
    {items : List (String × List String)}
    (each : List.Forall₂ (HasItem member below) elements items) :
    ∀ entry ∈ items.zipIdx.flatMap
        (plannedItem outerTemplate innerTemplate outer inner path.text size),
      ∀ position : Int,
        Binds resolver slides (Faithful resolver.root path.text elements.length)
          { entry.1 with position } entry.2 := by
  intro entry member position
  obtain ⟨⟨item, index⟩, among, inside⟩ := List.mem_flatMap.1 member
  have there := List.mem_zipIdx_iff_getElem?.1 among
  obtain ⟨element, here, has⟩ := exists_getElem?_of_forall₂ each there
  have inBounds := (List.getElem?_eq_some_iff.1 here).1
  have kept := @keptBy_faithful resolver.root path.text elements.length index few inBounds
  rcases List.mem_cons.1 inside with rfl | page
  · have name : (items.map (·.1))[index]? = some item.1 := by
      rw [List.getElem?_map, there]
      rfl
    dsimp only
    rw [← pageTexts_one name]
    apply binds_pageTexts bare knownOuter kept holdsOuter
    · intro number below
      exact Path.wellFormed_elementMember dotted named (by omega)
    · intro number _
      exact shows_elementMember dotted rfl rfl found (membersAre_of_hasItem each) number
  · obtain ⟨start, _, rfl⟩ := List.mem_map.1 page
    dsimp only
    apply binds_pageTexts bare knownInner kept holdsInner
    · intro number below
      exact Path.wellFormed_elementBelow dotted belowDotted (Nat.lt_trans below bound)
    · intro number _
      exact shows_elementBelow dotted belowDotted (by omega) rfl pagesInner.collection rfl found here
        has.items (fun cache faithful => faithful index inBounds) number

end Planned

theorem holds_elementBelow {slide : TemplateSlide} {path below : Path} {size : Nat}
    (belowDotted : below.Dotted)
    (shapes : slide.shapes.map TextShape.paragraphs = (List.range size).map fun number =>
      [[braced s!"{path.text}>{below.text}[{number}]".toList]])
    (apart : (slide.shapes.map TextShape.index).Nodup) :
    slide.Holds size (path.elementBelow below) := by
  refine ⟨shapes.trans ?_, apart⟩
  apply List.map_congr_left
  intro number _
  rw [Path.text_elementBelow belowDotted]
  rfl

theorem holds_elementMember_first {slide : TemplateSlide} {path : Path} {member : String}
    (dotted : path.Dotted)
    (shapes : slide.shapes.map TextShape.paragraphs =
      [[[braced s!"{path.text}[0].{member}".toList]]]) :
    slide.Holds 1 (path.elementMember member) := by
  have one : slide.shapes.length = 1 := by
    have same := congrArg List.length shapes
    rwa [List.length_map] at same
  obtain ⟨shape, single⟩ := List.length_eq_one_iff.1 one
  apply holds_of_shapes dotted
  · rw [shapes]
    simp [List.range_succ, toString, String.append_assoc]
  · rw [single]
    simp

section Faces

variable {path below : Path} {member : String} {size : Nat} {outer inner : TemplateSlide}

/-- The slides for the elements, each with the texts it shows. -/
theorem generate_nested_faces (dotted : path.Dotted) (belowDotted : below.Dotted)
    (named : isName member = true) (positive : 0 < size) (small : size < 2 ^ 53)
    (holdsOuter : outer.Holds 1 (path.elementMember member))
    (holdsInner : inner.Holds size (path.elementBelow below)) (distinct : outer.id ≠ inner.id)
    (outerNotes : outer.notes = []) (innerNotes : inner.notes = []) {data : Value}
    {elements : List Value} {items : List (String × List String)}
    (found : path.items? data.plain = some elements) (numbered : elements.length ≤ writeBound)
    (each : List.Forall₂ (HasItem member below) elements items) (plainsQuotes : Bool) :
    ∃ generation, generate [outer, inner] data plainsQuotes = .ok generation ∧
      generation.outputs.map SlideOutput.face = items.flatMap fun item =>
        (outer, [item.1.toList]) :: (pagesOf size item.2).map (inner, ·) := by
  have bound := lt_writeBound_of_lt small
  obtain ⟨first, findsOuter, apart⟩ := analyze_pages holdsOuter
    (fun number below => Path.wellFormed_elementMember dotted named (by omega))
    (fun number _ => Path.references_elementMember dotted member number)
    (fun number _ => Path.usesContext_elementMember dotted member number) Nat.one_pos (by omega)
    (outerNotes ▸ readDirectives_nil _) .silent 0
  obtain ⟨second, findsInner, context⟩ := analyze_pages holdsInner
    (fun number less => Path.wellFormed_elementBelow dotted belowDotted (Nat.lt_trans less bound))
    (fun number _ => Path.references_elementBelow dotted belowDotted number)
    (fun number _ => Path.usesContext_elementBelow path below number) positive bound
    (innerNotes ▸ readDirectives_nil _) .silent 1
  have pagesOuter := findsOuter.pages
  have pagesInner := findsInner.pages
  have analyses : analyzeSlides [outer, inner] =
      .ok ([first, second].map fun template => ⟨template, [], []⟩) := by
    unfold analyzeSlides analyzeFrom analyzeFrom
    rw [show ((0 : Nat) : Int) = 0 from rfl, show ((0 + 1 : Nat) : Int) = 1 from rfl,
      findsOuter.analyzed, findsInner.analyzed]
    rfl
  have quiet : Quiet [first, second] := by
    intro template member
    rcases List.mem_pair.1 member with rfl | rfl
    · exact pagesOuter.quiet
    · exact pagesInner.quiet
  have leads : first.leads path.text = true := by
    simp [SlideTemplate.leads, pagesOuter.kind, pagesOuter.collection, apart]
  have flat : first.isNested = false := by
    rw [SlideTemplate.isNested, pagesOuter.chunks_text dotted]
    rfl
  have chunk : second.chunks.headD "" = path.text := by
    rw [pagesInner.chunks_below dotted belowDotted]
    rfl
  have knownOuter : Keyed.get? first.slide
      (Keyed.ofList ([outer, inner].map fun slide => (slide.id, slide))) = some outer := by
    rw [findsOuter.slide]
    simp [Keyed.ofList, Keyed.put, Keyed.get?, distinct]
  have knownInner : Keyed.get? second.slide
      (Keyed.ofList ([outer, inner].map fun slide => (slide.id, slide))) = some inner := by
    rw [findsInner.slide]
    simp [Keyed.ofList, Keyed.put, Keyed.get?, distinct]
  have entries := @entries_planned first second outer inner path below member size dotted belowDotted
    pagesOuter pagesInner positive small data.plain elements found items each
  rw [← findWindows_pair quiet leads flat pagesInner.kind context chunk] at entries
  obtain ⟨generation, made, faces⟩ := @generate_faces
    (Faithful data.plain path.text elements.length) [outer, inner] data plainsQuotes [first, second]
    _ analyses (congrArg₂ (fun left right => [left, right]) findsOuter.position findsInner.position)
    quiet entries (binds_planned dotted belowDotted named bound pagesInner holdsOuter holdsInner
      knownOuter knownInner rfl found numbered each) (fun _ _ => .refl _)
  rw [faces_planned] at faces
  exact ⟨generation, made, faces⟩

end Faces

/-- For every element of a collection in order, a slide that shows a text of the element is made
once, and then a slide that shows a collection below the element is made for every page of it, or
once with all shapes hidden when there is nothing to show. The positions of the elements have
numerals, as in any sequence that fits into a memory. -/
theorem generate_nested (path : Path) (dotted : path.Dotted) (below : Path)
    (belowDotted : below.Dotted) (member : String) (named : isName member = true) (size : Nat)
    (positive : 1 ≤ size) (small : size < 2 ^ 53) (data : Value) (elements : List Value)
    (items : List (String × List String)) (found : path.items? data.plain = some elements)
    (numbered : elements.length ≤ writeBound)
    (each : List.Forall₂ (HasItem member below) elements items) (outer inner : TemplateSlide)
    (distinct : outer.id ≠ inner.id)
    (outerShapes : outer.shapes.map TextShape.paragraphs =
      [[[braced s!"{path.text}[0].{member}".toList]]])
    (innerShapes : inner.shapes.map TextShape.paragraphs = (List.range size).map fun number =>
      [[braced s!"{path.text}>{below.text}[{number}]".toList]])
    (apart : (inner.shapes.map TextShape.index).Nodup) (outerNotes : outer.notes = [])
    (innerNotes : inner.notes = []) (plainsQuotes : Bool) :
    ∃ generation, generate [outer, inner] data plainsQuotes = .ok generation ∧
      ∃ groups : List (SlideOutput × List SlideOutput),
        generation.outputs = groups.flatMap (fun group => group.1 :: group.2) ∧
        List.Forall₂ (ShowsItem outer inner size) groups items := by
  have holdsOuter := holds_elementMember_first dotted outerShapes
  have holdsInner := holds_elementBelow belowDotted innerShapes apart
  obtain ⟨generation, made, faces⟩ := generate_nested_faces dotted belowDotted named positive small
    holdsOuter holdsInner distinct outerNotes innerNotes found numbered each plainsQuotes
  exact ⟨generation, made, exists_showsItems positive faces⟩

theorem generate_nested_two_elements :
    ∃ generation,
      generate [.ofTexts 1 ["$\x7bp[0].n\x7d".toList] [],
          .ofTexts 2 ["$\x7bp>c[0]\x7d".toList, "$\x7bp>c[1]\x7d".toList] []]
        (.map [(.text "p", .list [
          .map [(.text "n", .text "a"), (.text "c", .list [.text "x", .text "y", .text "z"])],
          .map [(.text "n", .text "b"), (.text "c", .list [])]])]) false = .ok generation ∧
      ∃ groups : List (SlideOutput × List SlideOutput),
        generation.outputs = groups.flatMap (fun group => group.1 :: group.2) ∧
        List.Forall₂ (ShowsItem (.ofTexts 1 ["$\x7bp[0].n\x7d".toList] [])
          (.ofTexts 2 ["$\x7bp>c[0]\x7d".toList, "$\x7bp>c[1]\x7d".toList] []) 2) groups
          [("a", ["x", "y", "z"]), ("b", [])] :=
  generate_nested ⟨⟨"p", none⟩, []⟩ ⟨⟨by decide, rfl⟩, by simp⟩ ⟨⟨"c", none⟩, []⟩
    ⟨⟨by decide, rfl⟩, by simp⟩ "n" (by decide) 2 (by decide) (by decide) _
    [.map [(.text "n", .text "a"), (.text "c", .list [.text "x", .text "y", .text "z"])],
      .map [(.text "n", .text "b"), (.text "c", .list [])]] _ rfl
    (Nat.le_of_lt (lt_writeBound_of_lt (by decide)))
    (.cons ⟨rfl, rfl, by decide⟩ (.cons ⟨rfl, rfl, by decide⟩ .nil)) _ _ (by decide) rfl rfl
    (by decide) rfl rfl false

end DeckBinding
