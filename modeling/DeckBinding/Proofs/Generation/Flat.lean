import DeckBinding.Proofs.Directive.Foreach
import DeckBinding.Proofs.Generation.Pages
import DeckBinding.Proofs.Generation.Run

set_option autoImplicit false

namespace DeckBinding

open DeckBinding.Number DeckBinding.Text

/-- A single slide that stands below nothing needs no window. -/
theorem findWindows_singleton {template : SlideTemplate} (quiet : Quiet [template])
    (apart : template.usesContext = false) (flat : template.isNested = false) :
    (findWindows [template]).1 = [] := by
  have alone : placeInWindow [template] [] template 0 = [] := by
    unfold placeInWindow
    rw [apart, flat, if_pos (by simp)]
  unfold findWindows
  rw [rangeWindows_of_quiet quiet]
  show (placeInWindow [template] [] template 0).mergeSort _ = []
  rw [alone, List.mergeSort_nil]

theorem planEntries_flat {template : SlideTemplate} {key : String} {size offset : Nat}
    (pages : template.Pages key size offset) (data : Value) :
    planEntries [template] [] data = flatEntries template data [] := by
  have own : entriesAt [template] [] data template 0 = flatEntries template data [] := by
    unfold entriesAt
    rw [pages.kind]
    rfl
  unfold planEntries
  rw [List.zipIdx_singleton, List.flatMap_singleton]
  exact own

section Flat

variable {path : Path} {member : String} {size offset : Nat} {slide : TemplateSlide}

theorem holds_of_shapes (dotted : path.Dotted)
    (shapes : slide.shapes.map TextShape.paragraphs = (List.range size).map fun number =>
      [[braced s!"{path.text}[{number}].{member}".toList]])
    (apart : (slide.shapes.map TextShape.index).Nodup) :
    slide.Holds size (path.elementMember member) := by
  refine ⟨shapes.trans ?_, apart⟩
  apply List.map_congr_left
  intro number _
  rw [Path.text_elementMember dotted]
  simp only [toString, String.append_assoc]
  rfl

theorem asked_of_notes (dotted : path.Dotted) (bound : size < writeBound) (start : offset < writeBound)
    (notes : slide.notes = foreachNotes path size offset ∨ offset = 0 ∧ slide.notes = []) :
    ∃ directives, readDirectives (some slide.id) slide.notes = .ok (directives, []) ∧
      AskedPages path.text size offset directives := by
  rcases notes with asked | ⟨rfl, silent⟩
  · rw [asked]
    exact ⟨_, readDirectives_foreachNotes dotted.wellFormed bound start _, .foreach offset⟩
  · rw [silent]
    exact ⟨_, readDirectives_nil _, .silent⟩

/-- The slides of the pages, each with the page of texts it shows. -/
theorem generate_flat_faces (dotted : path.Dotted) (named : isName member = true)
    (positive : 0 < size) (small : size < 2 ^ 53)
    (holds : slide.Holds size (path.elementMember member)) {directives : List Directive}
    (read : readDirectives (some slide.id) slide.notes = .ok (directives, []))
    (asked : AskedPages path.text size offset directives) {data : Value} {elements : List Value}
    {texts : List String} (found : path.items? data.plain = some elements)
    (few : elements.length < 2 ^ 53) (members : MembersAre elements member texts)
    (plainsQuotes : Bool) :
    ∃ generation, generate [slide] data plainsQuotes = .ok generation ∧
      generation.outputs.map SlideOutput.face =
        (List.range ((elements.length - offset + size - 1) / size)).map fun page =>
          (slide, pageTexts texts size (offset + page * size)) := by
  have bound := lt_writeBound_of_lt small
  have wellFormed : ∀ number < size, (path.elementMember member number).WellFormed :=
    fun number below => Path.wellFormed_elementMember dotted named (Nat.lt_trans below bound)
  obtain ⟨template, finds, apart⟩ := analyze_pages holds wellFormed
    (fun number _ => Path.references_elementMember dotted member number)
    (fun number _ => Path.usesContext_elementMember dotted member number) positive bound read asked 0
  have pages := finds.pages
  have flat : template.isNested = false := by
    rw [SlideTemplate.isNested, pages.chunks_text dotted]
    rfl
  have quiet : Quiet [template] := by
    intro other member
    rw [List.mem_singleton.1 member]
    exact pages.quiet
  have analyses : analyzeSlides [slide] =
      .ok ([template].map fun template => ⟨template, [], []⟩) := by
    unfold analyzeSlides analyzeFrom
    rw [show ((0 : Nat) : Int) = 0 from rfl, finds.analyzed]
    rfl
  have entries : planEntries [template] (findWindows [template]).1 data.plain =
      ((List.range ((elements.length - offset + size - 1) / size)).map fun page =>
        (template.pageAt [] none (offset + page * size),
          (slide, pageTexts texts size (offset + page * size)))).map fun entry => .shown entry.1 := by
    rw [findWindows_singleton quiet apart flat, planEntries_flat pages,
      flatEntries_pages dotted pages positive small found few, SlideTemplate.pagesFrom,
      List.map_map, List.map_map]
    rfl
  have known : Keyed.get? template.slide (Keyed.ofList [(slide.id, slide)]) = some slide := by
    rw [finds.slide]
    simp [Keyed.ofList, Keyed.put, Keyed.get?]
  obtain ⟨generation, made, faces⟩ := @generate_faces (fun _ => True) [slide] data plainsQuotes
    [template] _ analyses (congrArg (fun position => [position]) finds.position) quiet entries (by
      intro entry among number
      obtain ⟨page, _, rfl⟩ := List.mem_map.1 among
      apply binds_pageTexts rfl known (fun _ _ _ => trivial) holds wellFormed
      intro index _
      exact shows_elementMember dotted pages.collection rfl found members index) trivial
  refine ⟨generation, made, faces.trans ?_⟩
  rw [List.map_map]
  rfl

end Flat

/-- A slide whose shapes select the elements of a collection below a page size is made once for
every page from the offset on, and together the pages show every element from there once and in
order. -/
theorem generate_flat (path : Path) (dotted : path.Dotted) (member : String)
    (named : isName member = true) (size offset : Nat) (positive : 1 ≤ size) (small : size < 2 ^ 53)
    (start : offset < 2 ^ 53) (data : Value) (elements : List Value) (texts : List String)
    (found : path.items? data.plain = some elements) (few : elements.length < 2 ^ 53)
    (members : MembersAre elements member texts) (slide : TemplateSlide)
    (shapes : slide.shapes.map TextShape.paragraphs = (List.range size).map fun number =>
      [[braced s!"{path.text}[{number}].{member}".toList]])
    (apart : (slide.shapes.map TextShape.index).Nodup)
    (notes : slide.notes = foreachNotes path size offset ∨ offset = 0 ∧ slide.notes = [])
    (plainsQuotes : Bool) :
    ∃ generation, generate [slide] data plainsQuotes = .ok generation ∧
      generation.outputs.length = (elements.length - offset + size - 1) / size ∧
      generation.outputs.flatMap SlideOutput.visibleTexts =
        (texts.drop offset).map String.toList := by
  have bound := lt_writeBound_of_lt small
  have holds := holds_of_shapes dotted shapes apart
  obtain ⟨directives, read, asked⟩ := asked_of_notes dotted bound (lt_writeBound_of_lt start) notes
  obtain ⟨generation, made, faces⟩ := generate_flat_faces dotted named positive small holds read asked
    found few members plainsQuotes
  refine ⟨generation, made, ?_, ?_⟩
  · have same := congrArg List.length faces
    rw [List.length_map, List.length_map, List.length_range] at same
    exact same
  · have count : elements.length = texts.length := by
      have same := congrArg List.length members
      rwa [List.length_map, List.length_map] at same
    have same := congrArg (·.flatMap Prod.snd) faces
    rw [List.flatMap_map, List.flatMap_map, count, flatMap_pageTexts positive] at same
    exact same

theorem generate_flat_last_page :
    ∃ generation,
      generate [.ofTexts 1 ["$\x7bp[0].f\x7d".toList, "$\x7bp[1].f\x7d".toList]
          "#foreach: p, max: 2, offset: 1".toList]
        (.map [(.text "p", .list [.map [(.text "f", .text "x")], .map [(.text "f", .text "y")],
          .map [(.text "f", .text "z")], .map [(.text "f", .text "w")]])]) true = .ok generation ∧
      generation.outputs.length = 2 ∧
      generation.outputs.flatMap SlideOutput.visibleTexts =
        ["y".toList, "z".toList, "w".toList] :=
  generate_flat ⟨⟨"p", none⟩, []⟩ ⟨⟨by decide, rfl⟩, by simp⟩ "f" (by decide) 2 1 (by decide)
    (by decide) (by decide) _
    [.map [(.text "f", .text "x")], .map [(.text "f", .text "y")], .map [(.text "f", .text "z")],
      .map [(.text "f", .text "w")]] ["x", "y", "z", "w"] rfl (by decide) rfl _ rfl (by decide)
    (.inl rfl) true

end DeckBinding
