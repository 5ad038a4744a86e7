import DeckBinding.Proofs.Generation.Pages
import DeckBinding.Proofs.Plan.Deck

set_option autoImplicit false

namespace DeckBinding

open DeckBinding.Number

/-- What a reader sees of a slide that is made: the template slide it is made from, and the texts of
its visible shapes. -/
abbrev Face := TemplateSlide × List (List Char)

def SlideOutput.face (output : SlideOutput) : Face :=
  (output.source, output.visibleTexts)

/-- Resolving a template slide for a slide of the result shows a face, from every state whose cache
has a property, and leaves a cache that has it. -/
def Binds (resolver : Resolver) (slides : List (Int × TemplateSlide))
    (property : ContextCache → Prop) (shown : Instance) (face : Face) : Prop :=
  ∃ source, Keyed.get? shown.slide slides = some source ∧
    ∀ state : ResolverState, property state.cache →
      ∃ output after, bindSlide resolver source shown state = (.ok output, after) ∧
        property after.cache ∧ output.face = face

variable {resolver : Resolver} {slides : List (Int × TemplateSlide)}
  {property : ContextCache → Prop}

theorem bindInstances_faces {planned : List (Instance × Face)}
    (binds : ∀ entry ∈ planned, Binds resolver slides property entry.1 entry.2)
    {state : ResolverState} (holds : property state.cache) :
    ∃ outputs after,
      bindInstances resolver slides (planned.map (·.1)) state = (.ok outputs, after) ∧
      outputs.map SlideOutput.face = planned.map (·.2) := by
  induction planned generalizing state with
  | nil => exact ⟨[], state, rfl, rfl⟩
  | cons entry rest ih =>
    obtain ⟨source, known, each⟩ := binds entry List.mem_cons_self
    obtain ⟨output, middle, bound, middleHolds, face⟩ := each state holds
    obtain ⟨outputs, after, further, faces⟩ :=
      ih (fun other member => binds other (List.mem_cons_of_mem _ member)) middleHolds
    refine ⟨output :: outputs, after, ?_, ?_⟩
    · simp only [List.map_cons, bindInstances, known, bound, further]
      rfl
    · rw [List.map_cons, List.map_cons, face, faces]

/-- Slides of the result keep what they show when they get their positions. -/
theorem bindInstances_numbered {planned : List (Instance × Face)}
    (binds : ∀ entry ∈ planned, ∀ position : Int,
      Binds resolver slides property { entry.1 with position } entry.2)
    {state : ResolverState} (holds : property state.cache) :
    ∃ outputs after,
      bindInstances resolver slides (Instance.numbered (planned.map (·.1))) state =
        (.ok outputs, after) ∧
      outputs.map SlideOutput.face = planned.map (·.2) := by
  have placed : Instance.numbered (planned.map (·.1)) =
      (planned.zipIdx.map fun entry =>
        ({ entry.1.1 with position := (entry.2 : Int) }, entry.1.2)).map (·.1) := by
    rw [Instance.numbered, List.zipIdx_map, List.map_map, List.map_map]
    rfl
  have same : planned.map (·.2) = (planned.zipIdx.map fun entry =>
      ({ entry.1.1 with position := (entry.2 : Int) }, entry.1.2)).map (·.2) := by
    rw [List.map_map]
    conv => lhs; rw [← List.zipIdx_map_fst 0 planned, List.map_map]
    rfl
  rw [placed, same]
  refine bindInstances_faces ?_ holds
  intro entry member
  obtain ⟨⟨numbered, position⟩, among, rfl⟩ := List.mem_map.1 member
  exact binds numbered (List.fst_mem_of_mem_zipIdx among) position

/-- A slide whose paths lead to the texts from a start on shows the page of texts there. -/
theorem binds_pageTexts (bare : resolver.aliases = .empty) {shown : Instance} {slide : TemplateSlide}
    (known : Keyed.get? shown.slide slides = some slide)
    (kept : KeptBy resolver.root shown.context property) {size start : Nat} {path : Nat → Path}
    (holds : slide.Holds size path) (wellFormed : ∀ number < size, (path number).WellFormed)
    {texts : List String}
    (shows : ∀ number < size,
      (path number).Shows resolver.root shown property texts[number + start]?) :
    Binds resolver slides property shown (slide, pageTexts texts size start) := by
  refine ⟨slide, known, ?_⟩
  intro state begins
  obtain ⟨output, after, bound, afterHolds, made, visible⟩ :=
    @bindSlide_shows resolver shown property bare kept slide size path
      (fun number => texts[number + start]?) holds wellFormed shows state begins
  refine ⟨output, after, bound, afterHolds, ?_⟩
  rw [SlideOutput.face, made, visible, filterMap_getElem?_range]
  rfl

/-- Directives that do nothing but ask for pages. -/
def Quiet (templates : List SlideTemplate) : Prop :=
  ∀ template ∈ templates, ∀ directive ∈ template.directives,
    ∃ path max offset, directive = .foreach path max offset

theorem aliases_of_quiet {templates : List SlideTemplate} (quiet : Quiet templates) :
    templates.flatMap (fun template => template.directives.filter Directive.isAlias) = [] := by
  rw [List.flatMap_eq_nil_iff]
  intro template member
  rw [List.filter_eq_nil_iff]
  intro directive among
  obtain ⟨path, max, offset, rfl⟩ := quiet template member directive among
  exact Bool.false_ne_true

theorem rangeBegin?_of_quiet {template : SlideTemplate} (quiet : Quiet [template]) :
    template.rangeBegin? = none := by
  unfold SlideTemplate.rangeBegin?
  rw [List.findSome?_eq_none_iff]
  intro directive among
  obtain ⟨path, max, offset, rfl⟩ := quiet template List.mem_cons_self directive among
  rfl

theorem rangeWindows_of_quiet {templates : List SlideTemplate} (quiet : Quiet templates)
    (free position : Nat) : rangeWindows free position templates = ([], []) := by
  induction templates generalizing position with
  | nil => rfl
  | cons template rest ih =>
    have none : template.rangeBegin? = none := by
      apply rangeBegin?_of_quiet
      intro other member
      rw [List.mem_singleton.1 member]
      exact quiet template List.mem_cons_self
    rw [rangeWindows, none]
    exact ih (fun other member => quiet other (List.mem_cons_of_mem _ member)) _

/-- Quiet templates are planned with no short names. -/
theorem ofTemplates_quiet {templates : List SlideTemplate} (quiet : Quiet templates)
    (positions : templates.map (·.position) =
      (List.range templates.length).map fun number : Nat => (number : Int)) (data : Value) :
    ∃ planning, SlidePlan.ofTemplates templates data = .ok planning ∧
      planning.plan.instances = Instance.numbered
        ((planEntries templates (findWindows templates).1 data.plain).filterMap
          PlanEntry.instance?) ∧
      planning.plan.aliases = .empty := by
  have built : AliasTable.ofDirectives [] = .ok ⟨.empty, [], []⟩ := rfl
  unfold SlidePlan.ofTemplates
  rw [inOrder_eq positions]
  dsimp only
  rw [aliases_of_quiet quiet, built]
  exact ⟨_, rfl, rfl, rfl⟩

/-- The slides of a generation show what is planned for them. -/
theorem generate_faces {template : List TemplateSlide} {data : Value} {plainsQuotes : Bool}
    {templates : List SlideTemplate} {planned : List (Instance × Face)}
    (analyzed : analyzeSlides template = .ok (templates.map fun template => ⟨template, [], []⟩))
    (positions : templates.map (·.position) =
      (List.range templates.length).map fun number : Nat => (number : Int))
    (quiet : Quiet templates)
    (entries : planEntries templates (findWindows templates).1 data.plain =
      planned.map fun entry => .shown entry.1)
    (binds : ∀ entry ∈ planned, ∀ position : Int,
      Binds (.ofData data .empty plainsQuotes) (Keyed.ofList (template.map fun slide =>
        (slide.id, slide))) property { entry.1 with position } entry.2)
    (start : property []) :
    ∃ generation, generate template data plainsQuotes = .ok generation ∧
      generation.outputs.map SlideOutput.face = planned.map (·.2) := by
  have same : (templates.map fun template => (⟨template, [], []⟩ : Analysis)).map (·.template) =
      templates := by
    rw [List.map_map]
    exact List.map_id _
  have instances : (planEntries templates (findWindows templates).1 data.plain).filterMap
      PlanEntry.instance? = planned.map (·.1) := by
    rw [entries, List.filterMap_map]
    exact congrFun (@List.filterMap_eq_map _ _ fun entry : Instance × Face => entry.1) planned
  obtain ⟨outputs, after, bound, faces⟩ := @bindInstances_numbered _ _ _ _ binds .start start
  obtain ⟨planning, made, plan, bare⟩ := ofTemplates_quiet quiet positions data
  rw [instances] at plan
  have done : planning.plan.bind template (.ofData data .empty plainsQuotes) =
      .ok (outputs, after.diagnostics) := by
    unfold SlidePlan.bind
    rw [plan]
    dsimp only
    rw [bound]
  unfold generate
  rw [analyzed]
  change ∃ generation, generateFrom _ template data plainsQuotes = .ok generation ∧ _
  unfold generateFrom
  rw [same, made]
  change ∃ generation, (planning.plan.bind template (.ofData data planning.plan.aliases plainsQuotes) >>=
    fun bound => _) = .ok generation ∧ _
  rw [bare, done]
  exact ⟨_, rfl, faces⟩

end DeckBinding
