import DeckBinding.Proofs.Directive.Foreach
import DeckBinding.Proofs.Generation.CallFree
import DeckBinding.Proofs.Plan.Context
import DeckBinding.Proofs.Plan.Returns
import DeckBinding.Proofs.Resolution.Literal

set_option autoImplicit false

namespace DeckBinding

open DeckBinding.Number

/-- A template slide whose indices can be counted, in its texts and in its notes. -/
structure TemplateSlide.Countable (slide : TemplateSlide) : Prop where
  texts : ∀ shape ∈ slide.shapes, ∀ text ∈ shape.texts, IndicesBelow (writeBound - 1) text
  notes : IndicesBelow (writeBound - 1) slide.notes

theorem exists_readTexts (slide : Option Int) {bound : Nat} {texts : List (List Char)}
    (below : ∀ text ∈ texts, IndicesBelow bound text) :
    ∃ expressions notes, readTexts slide texts = .ok (expressions, notes) ∧
      ∀ expression ∈ expressions, expression.IndicesBelow bound := by
  induction texts with
  | nil => exact ⟨[], [], rfl, fun _ member => absurd member List.not_mem_nil⟩
  | cons text rest ih =>
    obtain ⟨found, settled, read⟩ := readExpressions_of_indicesBelow (below text List.mem_cons_self) slide
    obtain ⟨expressions, notes, more, behind⟩ :=
      ih fun other member => below other (List.mem_cons_of_mem _ member)
    refine ⟨_, _, by rw [readTexts, read]; dsimp only [bind, Except.bind]; rw [more], ?_⟩
    intro expression member
    rcases List.mem_append.1 member with here | later
    · obtain ⟨reading, among, parsed⟩ := List.mem_filterMap.1 here
      obtain ⟨body, _, _, holds⟩ := exists_of_mem_forall₂ settled among
      exact holds expression parsed
    · exact behind expression later

/-- A countable slide gives a countable template. -/
theorem TemplateSlide.Countable.exists_analyze {slide : TemplateSlide} (countable : slide.Countable)
    (position : Int) :
    ∃ analysis, slide.analyze position = .ok analysis ∧ analysis.template.Countable ∧
      analysis.template.slide = slide.id := by
  have below : ∀ text ∈ slide.shapes.flatMap TextShape.texts, IndicesBelow (writeBound - 1) text := by
    intro text member
    obtain ⟨shape, among, inside⟩ := List.mem_flatMap.1 member
    exact countable.texts shape among text inside
  obtain ⟨expressions, unread, texts, bound⟩ := exists_readTexts (some slide.id) below
  obtain ⟨found, settled, notes⟩ := readDirectives_of_indicesBelow countable.notes (some slide.id)
  have marked : ∀ directive ∈ found.filterMap (·.directive),
      directive.IndicesBelow (writeBound - 1) := by
    intro directive member
    obtain ⟨reading, among, accepted⟩ := List.mem_filterMap.1 member
    obtain ⟨_, _, _, holds⟩ := exists_of_mem_forall₂ settled among
    exact holds.accepted directive accepted
  obtain ⟨analysis, built, counted⟩ := exists_build slide.id position marked bound
  have same := slide_of_build built
  unfold TemplateSlide.analyze
  rw [texts]
  dsimp only [bind, Except.bind]
  rw [notes]
  dsimp only
  rw [built]
  exact ⟨_, rfl, counted, same⟩

theorem exists_analyzeFrom {slides : List TemplateSlide} (countable : ∀ slide ∈ slides, slide.Countable)
    (position : Nat) :
    ∃ analyses, analyzeFrom position slides = .ok analyses ∧
      ∀ analysis ∈ analyses, analysis.template.Countable := by
  induction slides generalizing position with
  | nil => exact ⟨[], rfl, fun _ member => absurd member List.not_mem_nil⟩
  | cons slide rest ih =>
    obtain ⟨analysis, first, here, _⟩ := (countable slide List.mem_cons_self).exists_analyze position
    obtain ⟨analyses, more, behind⟩ :=
      ih (fun other member => countable other (List.mem_cons_of_mem _ member)) (position + 1)
    refine ⟨analysis :: analyses, ?_, List.forall_mem_cons.2 ⟨here, behind⟩⟩
    rw [analyzeFrom, first]
    dsimp only [bind, Except.bind]
    rw [more]

/-- A run that gives a result from every state. -/
def Succeeds {σ ε α : Type} (run : σ → Except ε α × σ) : Prop :=
  ∀ state, ∃ result after, run state = (.ok result, after)

section Succeeds

variable {σ ε α β : Type}

theorem Succeeds.map {run : σ → Except ε α × σ} (succeeds : Succeeds run) (view : α → β) :
    Succeeds fun state => ((run state).1.map view, (run state).2) := by
  intro state
  obtain ⟨result, after, done⟩ := succeeds state
  exact ⟨view result, after, by dsimp only; rw [done]; rfl⟩

theorem Succeeds.collect {run : σ → Except ε α × σ} {others : σ → Except ε (List α) × σ}
    (first : Succeeds run) (further : Succeeds others) : Succeeds (collect run others) := by
  intro state
  obtain ⟨item, middle, done⟩ := first state
  obtain ⟨items, after, more⟩ := further middle
  refine ⟨item :: items, after, ?_⟩
  unfold DeckBinding.collect
  rw [done]
  dsimp only
  rw [more]
  rfl

end Succeeds

variable {resolver : Resolver} {shown : Instance} {bound : Nat}

theorem bindParagraphs_succeeds {paragraphs : List (List (List Char))}
    (below : ∀ runs ∈ paragraphs, IndicesBelow bound runs.flatten) :
    Succeeds (bindParagraphs resolver shown paragraphs) := by
  induction paragraphs with
  | nil => exact fun state => ⟨[], state, rfl⟩
  | cons runs rest ih =>
    rw [bindParagraphs_cons]
    refine Succeeds.collect ?_ (ih fun other member => below other (List.mem_cons_of_mem _ member))
    intro state
    obtain ⟨fillings, stands⟩ :=
      @exists_stands resolver shown bound runs.flatten (below runs List.mem_cons_self) state
    obtain ⟨reconciled, done⟩ := exists_reconcile stands
    exact ⟨reconciled, _, Prod.ext done rfl⟩

theorem bindShapes_succeeds {shapes : List TextShape}
    (below : ∀ shape ∈ shapes, ∀ text ∈ shape.texts, IndicesBelow bound text) :
    Succeeds (bindShapes resolver shown shapes) := by
  induction shapes with
  | nil => exact fun state => ⟨[], state, rfl⟩
  | cons shape rest ih =>
    rw [bindShapes_cons]
    have paragraphs : ∀ runs ∈ shape.paragraphs, IndicesBelow bound runs.flatten :=
      fun runs member => below shape List.mem_cons_self _ (List.mem_map_of_mem member)
    exact ((bindParagraphs_succeeds paragraphs).map _).collect
      (ih fun other member => below other (List.mem_cons_of_mem _ member))

theorem bindSlide_succeeds {source : TemplateSlide} (countable : source.Countable) :
    Succeeds (bindSlide resolver source shown) :=
  (bindShapes_succeeds countable.texts).map _

/-- Slides of the result are bound when their template slides are countable. -/
theorem bindInstances_succeeds {slides : List (Int × TemplateSlide)}
    (countable : ∀ id source, Keyed.get? id slides = some source → source.Countable)
    (instances : List Instance) : Succeeds (bindInstances resolver slides instances) := by
  induction instances with
  | nil => exact fun state => ⟨[], state, rfl⟩
  | cons shown rest ih =>
    intro state
    rw [bindInstances]
    cases found : Keyed.get? shown.slide slides with
    | none => exact ih state
    | some source =>
      obtain ⟨output, middle, done⟩ :=
        @bindSlide_succeeds resolver shown source (countable _ _ found) state
      obtain ⟨outputs, after, more⟩ := ih middle
      refine ⟨output :: outputs, after, ?_⟩
      dsimp only
      rw [done]
      dsimp only
      rw [more]
      rfl

theorem made_of_bindSlide {source : TemplateSlide} {state after : ResolverState} {output : SlideOutput}
    (bound : bindSlide resolver source shown state = (.ok output, after)) :
    output.source = source ∧ output.shown = shown := by
  unfold bindSlide at bound
  dsimp only at bound
  cases found : (bindShapes resolver shown source.shapes state).1 with
  | error error =>
    rw [found] at bound
    cases bound
  | ok shapes =>
    rw [found] at bound
    cases bound
    exact ⟨rfl, rfl⟩

/-- An output that is bound for a slide of a plan, from its template slide and some state. -/
def SlideOutput.BoundFor (output : SlideOutput) (slides : List (Int × TemplateSlide)) (shown : Instance) :
    Prop :=
  Keyed.get? shown.slide slides = some output.source ∧ ∃ resolver before behind,
    bindSlide resolver output.source shown before = (.ok output, behind)

/-- What is bound is what is planned, slide by slide, when the template slides are known. -/
theorem boundFor_of_bindInstances {slides : List (Int × TemplateSlide)} {instances : List Instance}
    (known : ∀ shown ∈ instances, ∃ source, Keyed.get? shown.slide slides = some source)
    {state after : ResolverState} {outputs : List SlideOutput}
    (bound : bindInstances resolver slides instances state = (.ok outputs, after)) :
    List.Forall₂ (fun shown output => output.BoundFor slides shown) instances outputs := by
  induction instances generalizing state outputs with
  | nil =>
    cases bound
    exact .nil
  | cons shown rest ih =>
    obtain ⟨source, found⟩ := known shown List.mem_cons_self
    rw [bindInstances, found] at bound
    dsimp only at bound
    rcases first : bindSlide resolver source shown state with ⟨_ | output, middle⟩
    · rw [first] at bound
      cases bound
    · rw [first] at bound
      dsimp only at bound
      rcases further : bindInstances resolver slides rest middle with ⟨_ | others, last⟩
      · rw [further] at bound
        cases bound
      · rw [further] at bound
        cases bound
        obtain ⟨rfl, _⟩ := made_of_bindSlide first
        refine .cons ⟨found, resolver, state, middle, first⟩ ?_
        exact ih (fun other member => known other (List.mem_cons_of_mem _ member)) further

theorem slides_of_analyzeFrom {position : Nat} {slides : List TemplateSlide} {analyses : List Analysis}
    (analyzed : analyzeFrom position slides = .ok analyses) :
    analyses.map (·.template.slide) = slides.map (·.id) := by
  induction slides generalizing position analyses with
  | nil =>
    cases analyzed
    rfl
  | cons slide rest ih =>
    obtain ⟨analysis, first, further⟩ := exists_of_bind_eq_ok analyzed
    obtain ⟨others, behind, last⟩ := exists_of_bind_eq_ok further
    cases last
    obtain ⟨_, _, more⟩ := exists_of_bind_eq_ok first
    obtain ⟨_, _, more⟩ := exists_of_bind_eq_ok more
    obtain ⟨built, made, same⟩ := exists_of_bind_eq_ok more
    cases same
    have here := slide_of_build made
    rw [List.map_cons, List.map_cons, ih behind]
    exact congrArg (· :: _) here

/-- Planned slides are made from slides of the template. -/
theorem mem_slides_of_planned {templates : List SlideTemplate} {data : Value} {planning : Planning}
    (planned : SlidePlan.ofTemplates templates data = .ok planning) {shown : Instance}
    (member : shown ∈ planning.plan.instances) : shown.slide ∈ templates.map (·.slide) := by
  obtain ⟨deck, expanded, origins⟩ := exists_origin_of_planned planned
  obtain ⟨position, template, original, there, origin, _, rfl⟩ := origins shown member
  have among := List.mem_map_of_mem (f := (·.slide)) (List.mem_of_getElem? there)
  rw [slides_expandedDeck expanded, (slides_inOrder templates).mem_iff] at among
  exact origin.slide ▸ among

def slideTable (slides : List TemplateSlide) : List (Int × TemplateSlide) :=
  Keyed.ofList (slides.map fun slide => (slide.id, slide))

theorem exists_of_mem_ids {slides : List TemplateSlide} {id : Int} (member : id ∈ slides.map (·.id)) :
    ∃ source, Keyed.get? id (slideTable slides) = some source := by
  refine Option.ne_none_iff_exists'.1 fun absent => Keyed.get?_eq_none_iff.1 absent ?_
  refine Keyed.mem_keys_ofList ?_
  rw [List.map_map]
  exact member

/-- A generation binds one slide for each planned one. -/
theorem boundFor_of_generateFrom {slides : List TemplateSlide} {analyses : List Analysis}
    (analyzed : analyzeSlides slides = .ok analyses) {data : Value} {plainsQuotes : Bool}
    {generation : Generation}
    (generated : generateFrom analyses slides data plainsQuotes = .ok generation) :
    List.Forall₂ (fun shown output => output.BoundFor (slideTable slides) shown)
      generation.plan.instances generation.outputs := by
  obtain ⟨planning, planned, further⟩ := exists_of_bind_eq_ok generated
  obtain ⟨⟨outputs, unresolved⟩, bound, last⟩ := exists_of_bind_eq_ok further
  cases last
  have known : ∀ shown ∈ planning.plan.instances,
      ∃ source, Keyed.get? shown.slide (slideTable slides) = some source := by
    intro shown member
    have among := mem_slides_of_planned planned member
    rw [List.map_map] at among
    exact exists_of_mem_ids (slides_of_analyzeFrom analyzed ▸ among)
  unfold SlidePlan.bind at bound
  dsimp only at bound
  split at bound
  · cases bound
  · rename_i made state done
    cases bound
    exact boundFor_of_bindInstances known done

theorem shown_of_boundFor {output : SlideOutput} {slides : List (Int × TemplateSlide)}
    {planned : Instance} (bound : output.BoundFor slides planned) :
    output.shown = planned ∧ Keyed.get? planned.slide slides = some output.source := by
  obtain ⟨found, _, _, _, done⟩ := bound
  exact ⟨(made_of_bindSlide done).2, found⟩

/-- A template of countable slides is generated for all data. -/
theorem exists_generation {slides : List TemplateSlide} (countable : ∀ slide ∈ slides, slide.Countable)
    (data : Value) (plainsQuotes : Bool) :
    ∃ generation, generate slides data plainsQuotes = .ok generation ∧
      List.Forall₂ (fun shown output => output.shown = shown ∧
          Keyed.get? shown.slide (slideTable slides) = some output.source)
        generation.plan.instances generation.outputs := by
  obtain ⟨analyses, analyzed, counted⟩ := exists_analyzeFrom countable 0
  obtain ⟨planning, planned⟩ := exists_planning (List.forall_mem_map.2 counted) data
  have listed : ∀ id source, Keyed.get? id (slideTable slides) = some source → source.Countable := by
    intro id source found
    obtain ⟨slide, member, entry⟩ := List.mem_map.1 (Keyed.mem_of_get?_ofList found)
    cases entry
    exact countable _ member
  obtain ⟨outputs, after, bound⟩ := @bindInstances_succeeds
    (.ofData data planning.plan.aliases plainsQuotes) _ listed planning.plan.instances .start
  have done : ∃ generation, generateFrom analyses slides data plainsQuotes = .ok generation := by
    unfold generateFrom
    rw [planned]
    dsimp only [bind, Except.bind, SlidePlan.bind]
    unfold slideTable at bound
    rw [bound]
    exact ⟨_, rfl⟩
  obtain ⟨generation, generated⟩ := done
  refine ⟨generation, ?_,
    (boundFor_of_generateFrom analyzed generated).imp fun _ _ bound => shown_of_boundFor bound⟩
  unfold generate analyzeSlides
  rw [analyzed]
  exact generated

/-- Nothing malformed stops a run while indices have numerals. Reading expressions parses each
complete one or notes it as literal; reading notes gives a directive for each marker or skips and
notes it; resolving a text replaces each complete expression or leaves and notes it; and while the
numbers behind the indices have numerals too, every template is generated for all data. -/
theorem malformed_noted (text notes : List Char) (texts : IndicesBelow writeBound text)
    (marks : IndicesBelow writeBound notes) (slide : Option Int) (resolver : Resolver)
    (shown : Instance) (state : ResolverState) (slides : List TemplateSlide)
    (countable : ∀ slide ∈ slides, slide.Countable) (data : Value) (plainsQuotes : Bool) :
    (∃ found, List.Forall₂ Reading.StandsFor (bodies (pieces (withPlainQuotes text))) found ∧
      readExpressions slide text =
        .ok (found.filterMap Reading.expression?, literalNotes slide found)) ∧
    (∃ found, List.Forall₂ (fun marked reading => readDirective marked.1 marked.2 = .ok reading ∧
        (reading.directive = none → reading.problems ≠ []) ∧
        ∀ problem ∈ reading.problems, problem.kind = .parse) (markedTexts notes) found ∧
      readDirectives slide notes = .ok (found.filterMap (·.directive),
        (found.flatMap (·.problems)).map fun problem => ⟨problem, slide⟩)) ∧
    (∃ fillings after found,
      resolver.resolveText text shown state = (.ok (.ofFillings fillings), after) ∧
      List.Forall₂ (Stands resolver shown state) (resolver.piecesOf text) fillings ∧
      List.Forall₂ Reading.StandsFor (bodies (resolver.piecesOf text)) found ∧
      Noted state after (literalNotes shown.slide found)) ∧
    (∀ slide found, ∀ diagnostic ∈ literalNotes slide found, diagnostic.kind = .parse) ∧
    ∃ generation, generate slides data plainsQuotes = .ok generation ∧
      List.Forall₂ (fun shown output => output.shown = shown ∧
          Keyed.get? shown.slide (slideTable slides) = some output.source)
        generation.plan.instances generation.outputs := by
  refine ⟨?_, ?_, resolveText_of_indicesBelow texts state, ?_,
    exists_generation countable data plainsQuotes⟩
  · obtain ⟨found, settled, read⟩ := readExpressions_of_indicesBelow texts slide
    exact ⟨found, settled.imp fun _ _ spec => spec.1, read⟩
  · obtain ⟨found, settled, read⟩ := readDirectives_of_indicesBelow marks slide
    exact ⟨found, settled.imp fun _ _ spec => ⟨spec.1, spec.2.skipped, spec.2.parse⟩, read⟩
  · intro slide found diagnostic member
    obtain ⟨problem, among, rfl⟩ := List.mem_map.1 member
    obtain ⟨reading, _, noted⟩ := List.mem_filterMap.1 among
    cases reading with
    | parsed => cases noted
    | literal =>
      cases noted
      rfl

/-- A slide with an open bracket in an expression, and notes with a marker that is none. -/
def brokenSlide : TemplateSlide :=
  .ofTexts 1 ["${A[0}".toList, "${B}".toList] "#foreach: A[ #repeat: B".toList

/-- The slide is made for data that has only the second value. -/
theorem malformed_noted_broken_slide :
    IndicesBelow writeBound "${A[0}".toList ∧ IndicesBelow writeBound brokenSlide.notes ∧
      (∀ slide ∈ [brokenSlide], slide.Countable) ∧
      ∃ generation, generate [brokenSlide] (.map [(.text "B", .text "b")]) true = .ok generation := by
  have short {text : List Char} (few : text.length < 100) : IndicesBelow (writeBound - 1) text :=
    indicesBelow_of_length (Nat.lt_trans few (by decide))
  have weaker {text : List Char} (few : text.length < 100) : IndicesBelow writeBound text :=
    (short few).mono (Nat.sub_le _ _)
  have countable : ∀ slide ∈ [brokenSlide], slide.Countable := by
    rw [List.forall_mem_singleton]
    refine ⟨?_, short (by decide)⟩
    have few : ∀ shape ∈ brokenSlide.shapes, ∀ text ∈ shape.texts, text.length < 100 := by decide
    exact fun shape among text inside => short (few shape among text inside)
  have spec := malformed_noted "${A[0}".toList brokenSlide.notes (weaker (by decide)) (weaker (by decide))
    none (.ofData .null .empty true) ⟨1, 0, [], 0, none, false, none⟩ .start [brokenSlide] countable
    (.map [(.text "B", .text "b")]) true
  obtain ⟨_, _, _, _, generation, generated, _⟩ := spec
  exact ⟨weaker (by decide), weaker (by decide), countable, generation, generated⟩

theorem length_toDigits_writeBound : (Nat.toDigits 10 writeBound).length = digitLimit + 1 := by
  have long : ¬ (Nat.toDigits 10 writeBound).length ≤ digitLimit := by
    rw [Nat.length_toDigits_le_iff (by decide) (by decide), ← writeBound_eq]
    exact Nat.lt_irrefl _
  have short : (Nat.toDigits 10 writeBound).length ≤ digitLimit + 1 := by
    rw [Nat.length_toDigits_le_iff (by decide) (by decide), writeBound_eq]
    exact Nat.pow_lt_pow_right (by decide) (Nat.lt_succ_self _)
  omega

theorem build_last_index {index : Nat} (last : index + 1 = writeBound) (text : String)
    (position : Int) :
    SlideTemplate.build 1 position [] [.ofPath text (Path.indexed "A" index)] =
      .error .tooLongToWrite := by
  have references : (Expression.ofPath text (Path.indexed "A" index)).references = [("A", index)] := rfl
  have apart : (Expression.ofPath text (Path.indexed "A" index)).usesContext = false := rfl
  have inferred : inferCollection? [.ofPath text (Path.indexed "A" index)] = some "A" := by
    simp [inferCollection?, references, apart]
  have highest : highestIndex? (some "A") [.ofPath text (Path.indexed "A" index)] = some index := by
    simp [highestIndex?, references]
  have unwritten : write ((index + 1 : Nat) : Int) = .error .tooLongToWrite := by
    rw [write, if_neg]
    omega
  unfold SlideTemplate.build
  dsimp only [firstForeach?, List.findSome?_nil]
  rw [inferred, Option.or_none, highest]
  dsimp only [pageSizeWarnings, SlideTemplate.itemsPerSlide]
  rw [if_neg (fun asked => Nat.lt_irrefl 0 asked.1), if_neg (Nat.lt_irrefl 0)]
  dsimp only [bind, Except.bind]
  rw [unwritten]

/-- A slide that refers to one index, when the number behind it has no numeral, stops the
analysis. -/
theorem analyze_last_index {index : Nat} (last : index + 1 = writeBound) (position : Int) :
    (TemplateSlide.ofTexts 1 [braced (Path.indexed "A" index).text.toList] []).analyze position =
      .error .tooLongToWrite := by
  have wellFormed : (Path.indexed "A" index).WellFormed := by
    have named : Text.isName "A" = true := by decide
    refine ⟨⟨named, ?_⟩, fun _ member => absurd member List.not_mem_nil⟩
    rintro _ ⟨⟩
    omega
  have texts : (TemplateSlide.ofTexts 1 [braced (Path.indexed "A" index).text.toList] []).shapes.flatMap
      TextShape.texts = [braced (Path.indexed "A" index).text.toList] := by
    simp [TemplateSlide.ofTexts, TextShape.texts]
  have read := readExpressions_braced_text wellFormed (some 1)
  unfold TemplateSlide.analyze
  rw [texts]
  dsimp only [readTexts, TemplateSlide.ofTexts]
  rw [read]
  dsimp only [bind, Except.bind]
  rw [readDirectives_nil]
  dsimp only
  rw [List.append_nil, build_last_index last]

/-- An index of too many digits stops the reading of a text, and one with too many digits in the
number behind it stops a generation. -/
theorem index_without_numeral :
    readExpressions none (braced (Path.indexed "A" writeBound).text.toList) =
        .error (.tooLongToRead 4301) ∧
      generate [.ofTexts 1 [braced (Path.indexed "A" (writeBound - 1)).text.toList] []] .null true =
        .error .tooLongToWrite := by
  constructor
  · have failed := @read_long_index "A" (by decide) _ (Nat.le_refl writeBound)
    rw [length_toDigits_writeBound] at failed
    exact readExpressions_of_numeral (isPathChar_indexed (by decide) writeBound) failed none
  · have stopped := analyze_last_index (Nat.sub_add_cancel writeBound_pos) 0
    unfold generate analyzeSlides analyzeFrom
    rw [Int.natCast_zero, stopped]
    rfl

end DeckBinding
