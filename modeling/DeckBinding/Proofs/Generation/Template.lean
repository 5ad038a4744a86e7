import DeckBinding.Proofs.Expression.PathText
import DeckBinding.Proofs.Generation.Slide
import DeckBinding.Proofs.Number.Numeral
import DeckBinding.Template.Analysis

set_option autoImplicit false

namespace DeckBinding

open DeckBinding.Number

/-- Expressions that select the elements below a number of one collection, one each and in order. -/
def SelectsAll (key : String) (size : Nat) (expressions : List Expression) : Prop :=
  expressions.flatMap Expression.references = (List.range size).map fun number => (key, number)

namespace SelectsAll

variable {key : String} {size : Nat} {expressions : List Expression}

theorem inferCollection?_eq (selects : SelectsAll key size expressions) (positive : 0 < size) :
    inferCollection? expressions = some key := by
  have only : ∀ reference ∈ expressions.flatMap Expression.references, reference.1 = key := by
    rw [selects]
    intro reference member
    obtain ⟨number, _, rfl⟩ := List.mem_map.1 member
    rfl
  unfold inferCollection?
  dsimp only
  split
  · rename_i name number found
    have member := List.mem_of_find?_eq_some found
    obtain ⟨expression, among, inside⟩ := List.mem_flatMap.1 member
    have whole := List.mem_flatMap.2 ⟨expression, (List.mem_filter.1 among).1, inside⟩
    rw [← only _ whole]
  · obtain ⟨count, rfl⟩ : ∃ count, size = count + 1 := ⟨size - 1, by omega⟩
    rw [selects, List.range_succ_eq_map]
    rfl

theorem highestIndex?_eq (selects : SelectsAll key size expressions) (positive : 0 < size) :
    highestIndex? (some key) expressions = some (size - 1) := by
  have numbers : (expressions.flatMap Expression.references).filterMap
      (fun reference => if some reference.1 = some key then some reference.2 else none) =
        List.range size := by
    rw [selects, List.filterMap_map]
    simp
  unfold highestIndex?
  dsimp only
  rw [numbers, List.max?_eq_some_iff]
  constructor
  · apply List.mem_range.2
    omega
  · intro number member
    have below := List.mem_range.1 member
    omega

theorem any_references (selects : SelectsAll key size expressions) (positive : 0 < size) :
    (expressions.any fun expression =>
      !expression.references.isEmpty || expression.usesContext) = true := by
  have member : (key, 0) ∈ expressions.flatMap Expression.references := by
    rw [selects]
    exact List.mem_map.2 ⟨0, List.mem_range.2 positive, rfl⟩
  obtain ⟨expression, among, inside⟩ := List.mem_flatMap.1 member
  refine List.any_eq_true.2 ⟨expression, among, ?_⟩
  have full : expression.references.isEmpty = false :=
    List.isEmpty_eq_false_iff.2 (List.ne_nil_of_mem inside)
  rw [full]
  rfl

end SelectsAll

/-- The template of a slide that shows a collection page by page. -/
structure SlideTemplate.Pages (template : SlideTemplate) (key : String) (size offset : Nat) :
    Prop where
  kind : template.kind = .source
  collection : template.collection = some key
  itemsPerSlide : template.itemsPerSlide = size
  offset : template.offset = offset
  quiet : ∀ directive ∈ template.directives, ∃ path max start, directive = .foreach path max start

/-- Notes that ask for the pages in so many words, or say nothing about pages from the start. -/
inductive AskedPages (key : String) (size : Nat) : Nat → List Directive → Prop where
  | silent : AskedPages key size 0 []
  | foreach (offset : Nat) : AskedPages key size offset [.foreach key size offset]

theorem pageSizeWarnings_eq (slide : Int) (size : Nat) :
    pageSizeWarnings slide size (some (size - 1)) = .ok [] := by
  unfold pageSizeWarnings
  dsimp only
  rw [if_neg]
  omega

variable {key : String} {size offset : Nat}

theorem build_pages {directives : List Directive} {expressions : List Expression}
    (asked : AskedPages key size offset directives) (selects : SelectsAll key size expressions)
    (positive : 0 < size) (bound : size < writeBound) (slide position : Int) :
    ∃ template, SlideTemplate.build slide position directives expressions = .ok ⟨template, [], []⟩ ∧
      template.slide = slide ∧ template.position = position ∧
      template.expressions = expressions ∧ template.Pages key size offset := by
  have highest := selects.highestIndex?_eq positive
  have written := write_natCast bound
  cases asked with
  | silent =>
    have inferred := selects.inferCollection?_eq positive
    have kind : slideKind [] expressions = .source := by
      unfold slideKind
      simp [selects.any_references positive]
    have items : size - 1 + 1 = size := by omega
    refine ⟨⟨slide, position, .source, [], expressions, some key, some (size - 1), 0, 0⟩, ?_, rfl, rfl,
      rfl, rfl, rfl, ?_, rfl, by simp⟩
    · unfold SlideTemplate.build
      simp only [kind, firstForeach?, List.findSome?_nil, inferred, Option.some_or, highest,
        SlideTemplate.itemsPerSlide, Nat.lt_irrefl, if_false, items, written]
      rfl
    · simp [SlideTemplate.itemsPerSlide, items]
  | foreach =>
    refine ⟨⟨slide, position, .source, [.foreach key size offset], expressions, some key,
      some (size - 1), size, offset⟩, ?_, rfl, rfl, rfl, rfl, rfl, ?_, rfl, by simp⟩
    · have kind : slideKind [.foreach key size offset] expressions = .source := rfl
      unfold SlideTemplate.build
      simp only [kind, firstForeach?, List.findSome?_cons, highest, pageSizeWarnings_eq,
        SlideTemplate.itemsPerSlide, positive, if_true, written]
      rfl
    · simp [SlideTemplate.itemsPerSlide, positive]

def pathExpressions (path : Nat → Path) (numbers : List Nat) : List Expression :=
  numbers.map fun number =>
    .ofPath (String.ofList (braced (path number).text.toList)) (path number)

theorem readTexts_pathExpressions {path : Nat → Path} {numbers : List Nat}
    (wellFormed : ∀ number ∈ numbers, (path number).WellFormed) (slide : Option Int) :
    readTexts slide (numbers.map fun number => braced (path number).text.toList) =
      .ok (pathExpressions path numbers, []) := by
  induction numbers with
  | nil => rfl
  | cons number rest ih =>
    have behind := ih fun other member => wellFormed other (List.mem_cons_of_mem _ member)
    rw [List.map_cons, readTexts,
      readExpressions_braced_text (wellFormed number List.mem_cons_self), behind]
    rfl

theorem selectsAll_pathExpressions {path : Nat → Path}
    (references : ∀ number < size, (path number).references = [(key, number)]) :
    SelectsAll key size (pathExpressions path (List.range size)) := by
  have each : ∀ number ∈ List.range size,
      (Expression.ofPath (String.ofList (braced (path number).text.toList)) (path number)).references =
        [(key, number)] :=
    fun number member => references number (List.mem_range.1 member)
  unfold SelectsAll pathExpressions
  rw [List.flatMap_map, List.flatMap_congr each, List.map_eq_flatMap]

theorem usesContext_pathExpressions {template : SlideTemplate} {path : Nat → Path} {uses : Bool}
    (expressions : template.expressions = pathExpressions path (List.range size))
    (positive : 0 < size) (context : ∀ number < size, (path number).usesContext = uses) :
    template.usesContext = uses := by
  have each (number : Nat) : (Expression.ofPath (String.ofList (braced (path number).text.toList))
      (path number)).usesContext = (path number).usesContext := Bool.or_false _
  rw [SlideTemplate.usesContext, expressions]
  cases uses with
  | false =>
    apply List.any_eq_false.2
    intro expression member
    obtain ⟨number, among, rfl⟩ := List.mem_map.1 member
    rw [each, context number (List.mem_range.1 among)]
    exact Bool.false_ne_true
  | true =>
    apply List.any_eq_true.2
    refine ⟨_, List.mem_map_of_mem (List.mem_range.2 positive), ?_⟩
    rw [each, context 0 positive]

theorem flatMap_texts {slide : TemplateSlide} {count : Nat} {path : Nat → Path}
    (holds : slide.Holds count path) :
    slide.shapes.flatMap TextShape.texts =
      (List.range count).map fun number => braced (path number).text.toList := by
  have whole : slide.shapes.flatMap TextShape.texts =
      (slide.shapes.map TextShape.paragraphs).flatMap (List.map List.flatten) := by
    rw [List.flatMap_map]
    rfl
  rw [whole, holds.texts, List.flatMap_map, List.map_eq_flatMap]
  simp

/-- What the analysis of a slide finds: a template that shows a collection page by page, and nothing
to notice. -/
structure TemplateSlide.Finds (slide : TemplateSlide) (position : Int) (template : SlideTemplate)
    (key : String) (size offset : Nat) : Prop where
  analyzed : slide.analyze position = .ok ⟨template, [], []⟩
  slide : template.slide = slide.id
  position : template.position = position
  pages : template.Pages key size offset

/-- The analysis of a slide whose shapes select the first elements of a collection. -/
theorem analyze_pages {slide : TemplateSlide} {path : Nat → Path} {directives : List Directive}
    {uses : Bool} (holds : slide.Holds size path)
    (wellFormed : ∀ number < size, (path number).WellFormed)
    (references : ∀ number < size, (path number).references = [(key, number)])
    (context : ∀ number < size, (path number).usesContext = uses)
    (positive : 0 < size) (bound : size < writeBound)
    (notes : readDirectives (some slide.id) slide.notes = .ok (directives, []))
    (asked : AskedPages key size offset directives) (position : Int) :
    ∃ template, slide.Finds position template key size offset ∧ template.usesContext = uses := by
  have read := readTexts_pathExpressions
    (fun number member => wellFormed number (List.mem_range.1 member)) (some slide.id)
  obtain ⟨template, built, source, placed, expressions, pages⟩ :=
    build_pages asked (selectsAll_pathExpressions references) positive bound slide.id position
  refine ⟨template, ⟨?_, source, placed, pages⟩,
    usesContext_pathExpressions expressions positive context⟩
  unfold TemplateSlide.analyze
  rw [flatMap_texts holds, read, notes]
  change (SlideTemplate.build slide.id position directives _ >>= _) = _
  rw [built]
  rfl

end DeckBinding
