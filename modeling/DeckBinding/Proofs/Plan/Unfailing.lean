import DeckBinding.Proofs.Plan.Guarded
import DeckBinding.Proofs.Plan.Returns

set_option autoImplicit false

namespace DeckBinding

open DeckBinding.Number DeckBinding.Text

/-- The indices of a slide are less than a bound, in its expressions and in the paths of its
notes. -/
structure SlideTemplate.IndicesBelow (bound : Nat) (template : SlideTemplate) : Prop where
  expressions : ∀ expression ∈ template.expressions, ∀ path ∈ expression.paths, path.IndicesBelow bound
  directives : ∀ directive ∈ template.directives, DeckBinding.IndicesBelow bound directive.path.toList

/-- A plan for some data, made in steps. The deck holds the templates in order with the short names
replaced. -/
structure MadeInSteps (templates : List SlideTemplate) (data : Value) (aliases : AliasTable.Built)
    (deck : List SlideTemplate) (planning : Planning) (steps : List PlanStep) : Prop where
  aliased : AliasTable.ofDirectives (declaredAliases templates) = .ok aliases
  expanded : expandedDeck templates = .ok deck
  planned : SlidePlan.ofTemplates templates data = .ok planning
  /-- Before and after the short names are replaced, the planner finds what it relies on. -/
  plannable : ∀ template ∈ templates ++ deck, template.Plannable
  positions : ∀ (position : Nat) template, deck[position]? = some template →
    template.position = position
  /-- No step is stopped, neither while windows are found nor while the deck is expanded. -/
  windows : findWindows? deck = some (findWindows deck)
  taken : planSteps? deck (findWindows deck).1 data.plain = some steps
  shown : planning.plan.instances = Instance.numbered (steps.filterMap PlanStep.instance?)
  noted : planning.plan.diagnostics =
    aliases.diagnostics ++ (findWindows deck).2 ++ steps.filterMap PlanStep.diagnostic?
  /-- What is looked up and is no collection is noted as a problem of planning. -/
  unresolved : ∀ value path slide problem, .looked value path slide ∈ steps →
    collectionItems value path = .error problem →
    problem.kind = .planning ∧ ⟨problem, some slide⟩ ∈ planning.plan.diagnostics

theorem Expression.Indexed.indicesBelow {expression : Expression} (indexed : expression.Indexed)
    {bound : Nat} (below : ∀ path ∈ expression.paths, path.IndicesBelow bound) :
    expression.IndicesBelow bound := by
  have same : expression.references = expression.source.references :=
    indexed.trans expression.source.references_eq.symm
  exact ⟨below, same ▸ Source.references_lt below⟩

theorem TemplateSlide.countable_of_analyze {slide : TemplateSlide} {position : Int} {analysis : Analysis}
    (analyzed : slide.analyze position = .ok analysis)
    (below : analysis.template.IndicesBelow (writeBound - 1)) : analysis.template.Countable := by
  obtain ⟨reads, marks, _⟩ := of_analyze analyzed
  have parsed := parsed_of_analyze analyzed
  refine ⟨fun directive member => ⟨?_, ?_⟩, fun expression member => ?_⟩
  · obtain ⟨path, wellFormed, text⟩ := parsed.directives directive member
    have readable := readable_path (below.directives directive member)
    rw [← text, Path.read_text wellFormed] at readable
    exact ⟨path, wellFormed, readable, text.symm⟩
  · rintro path max offset rfl
    obtain ⟨keyword, body, reading, read, gives⟩ := marks _ member
    exact pageSize_of_readDirective read gives
  · obtain ⟨body, source, read⟩ := reads expression member
    exact (indexed_of_read read).indicesBelow (below.expressions expression member)

section Deck

variable {table : AliasTable} {bound : Nat} {template other : SlideTemplate}

/-- The path of a directive is that of a directive with a short name, with the name replaced, or the
same. -/
theorem AliasTable.IndicesBelow.exists_path (aliases : table.IndicesBelow bound)
    {original directive : Directive} (expanded : table.expandDirective original = .ok directive)
    (here : ∃ path : Path, path.WellFormed ∧ path.text = original.path) :
    ∃ path : Path, path.WellFormed ∧ path.text = directive.path := by
  obtain ⟨path, wellFormed, text⟩ := here
  have replaced := @AliasTable.expandText_text table _ wellFormed
  have after := aliases.wellFormed_expandPath wellFormed
  rcases original with ⟨other, max, offset⟩ | ⟨boundary, other⟩ | ⟨other, name⟩
  · obtain rfl : path.text = other := text
    rw [AliasTable.expandDirective, replaced] at expanded
    cases expanded
    exact ⟨_, after, rfl⟩
  · obtain rfl : path.text = other := text
    rw [AliasTable.expandDirective, replaced] at expanded
    cases expanded
    exact ⟨_, after, rfl⟩
  · cases expanded
    exact ⟨path, wellFormed, text⟩

/-- A template that is planned for another one is that one, or is built anew from its parts. -/
theorem AliasTable.cases_of_planned (planned : table.planned template = .ok other) :
    other = template ∨ ∃ directives analysis,
      table.expandDirectives template.directives = .ok directives ∧
      SlideTemplate.build template.slide template.position directives
        (template.expressions.map table.expandExpression) = .ok analysis ∧
      analysis.template = other := by
  unfold AliasTable.planned at planned
  split at planned
  · cases planned
    exact .inl rfl
  · cases made : table.expandTemplate template with
    | error error =>
      rw [made] at planned
      cases planned
    | ok analysis =>
      rw [made] at planned
      obtain ⟨directives, expanded, built⟩ := exists_of_bind_eq_ok made
      exact .inr ⟨directives, analysis, expanded, built, Except.ok.inj planned⟩

theorem AliasTable.IndicesBelow.parsed_of_planned (aliases : table.IndicesBelow bound)
    (parsed : template.Parsed) (planned : table.planned template = .ok other) : other.Parsed := by
  rcases AliasTable.cases_of_planned planned with rfl | ⟨directives, analysis, expanded, built, rfl⟩
  · exact parsed
  · obtain ⟨marks, reads⟩ := parts_built built
    refine ⟨?_, ?_, ?_, ofParts_of_build built⟩
    · rw [marks]
      intro directive member
      rw [AliasTable.expandDirectives_eq_mapM] at expanded
      obtain ⟨original, among, replaced⟩ := exists_of_mem_mapM expanded member
      exact aliases.exists_path replaced (parsed.directives original among)
    · rw [reads, List.forall_mem_map]
      intro expression member path among
      rw [AliasTable.paths_expandExpression] at among
      obtain ⟨original, inside, rfl⟩ := List.mem_map.1 among
      exact aliases.wellFormed_expandPath (parsed.expressions expression member original inside)
    · rw [reads, List.forall_mem_map]
      exact fun expression member => (parsed.indexed expression member).expandExpression table

theorem position_of_planned (planned : table.planned template = .ok other) :
    other.position = template.position := by
  rcases AliasTable.cases_of_planned planned with rfl | ⟨directives, analysis, _, built, rfl⟩
  · rfl
  · unfold SlideTemplate.build at built
    obtain ⟨warnings, _, further⟩ := exists_of_bind_eq_ok built
    obtain ⟨numeral, _, made⟩ := exists_of_bind_eq_ok further
    cases made
    rfl

variable {templates deck : List SlideTemplate} {aliases : AliasTable.Built}
  (declared : AliasTable.ofDirectives (declaredAliases templates) = .ok aliases)
  (expanded : expandedDeck templates = .ok deck)

include declared expanded in
theorem parsed_of_mem_deck (below : aliases.table.IndicesBelow bound)
    (parsed : ∀ template ∈ templates, template.Parsed) : ∀ template ∈ deck, template.Parsed := by
  intro template member
  rw [expandedDeck_eq declared] at expanded
  obtain ⟨placed, among, planned⟩ := exists_of_mem_mapM expanded member
  obtain ⟨original, inside, position, rfl⟩ := mem_inOrder among
  have here := parsed original inside
  have moved : SlideTemplate.Parsed { original with position } :=
    ⟨here.directives, here.expressions, here.indexed, here.built.at position⟩
  exact below.parsed_of_planned moved planned

include declared expanded in
/-- The templates of a deck stand at their positions. -/
theorem position_of_deck {position : Nat} (there : deck[position]? = some template) :
    template.position = position := by
  rw [expandedDeck_eq declared] at expanded
  obtain ⟨placed, here, planned⟩ := getElem?_of_mapM expanded there
  rw [position_of_planned planned]
  unfold inOrder at here
  rw [List.getElem?_map, List.getElem?_zipIdx] at here
  obtain ⟨⟨original, number⟩, found, rfl⟩ := Option.map_eq_some_iff.1 here
  obtain ⟨_, _, same⟩ := Option.map_eq_some_iff.1 found
  cases same
  simp

end Deck

/-- On parsed templates with a parsed deck no step of the plan fails. -/
theorem madeInSteps_of_parsed {templates deck : List SlideTemplate} {aliases : AliasTable.Built}
    (declared : AliasTable.ofDirectives (declaredAliases templates) = .ok aliases)
    (expanded : expandedDeck templates = .ok deck) (parsed : ∀ template ∈ templates, template.Parsed)
    (expansion : ∀ template ∈ deck, template.Parsed) (data : Value) :
    ∃ planning steps, MadeInSteps templates data aliases deck planning steps := by
  obtain ⟨planning, planned, plan⟩ := exists_plan declared expanded data
  obtain ⟨steps, taken, entries⟩ :=
    gives_planEntries expansion (ready_of_mem_findWindows expansion) data.plain
  have noted : planning.plan.diagnostics =
      aliases.diagnostics ++ (findWindows deck).2 ++ steps.filterMap PlanStep.diagnostic? := by
    rw [plan, AliasTable.Built.plan, ← entries]
    dsimp only
    rw [PlanStep.diagnostics_of_entries]
  refine ⟨planning, steps, {
    aliased := declared, expanded, planned, taken, noted
    plannable := ?plannable
    positions := fun position template there => position_of_deck declared expanded there
    windows := findWindows?_eq fun template member => (expansion template member).chunks_ne_nil
    shown := ?shown
    unresolved := ?unresolved }⟩
  case plannable =>
    exact List.forall_mem_append.2
      ⟨fun template member => (parsed template member).plannable,
        fun template member => (expansion template member).plannable⟩
  case shown =>
    rw [plan, AliasTable.Built.plan, ← entries]
    dsimp only
    rw [PlanStep.instances_of_entries]
  case unresolved =>
    intro value path slide problem member refused
    refine ⟨kind_of_collectionItems refused, ?_⟩
    rw [noted]
    refine List.mem_append_right _ (List.mem_filterMap.2 ⟨_, member, ?_⟩)
    rw [PlanStep.diagnostic?, refused]

/-- The short names of countable templates make a table whose indices have numerals. -/
theorem exists_declared {templates : List SlideTemplate}
    (countable : ∀ template ∈ templates, template.Countable) :
    ∃ aliases, AliasTable.ofDirectives (declaredAliases templates) = .ok aliases ∧
      aliases.table.IndicesBelow (writeBound - 1) := by
  have placed := countable_of_mem_inOrder countable
  apply AliasTable.exists_ofDirectives
  intro directive member
  obtain ⟨template, among, inside⟩ := List.mem_flatMap.1 member
  exact (placed template among).directives directive (List.mem_of_mem_filter inside)

/-- The templates of slides that are analyzed are parsed, and countable while the numbers behind
their indices have numerals. -/
theorem parsed_and_countable {slides : List (TemplateSlide × Int)} {analyses : List Analysis}
    (analyzed : slides.mapM (fun (slide, position) => slide.analyze position) = .ok analyses)
    (below : ∀ analysis ∈ analyses, analysis.template.IndicesBelow (writeBound - 1)) :
    (∀ template ∈ analyses.map (·.template), template.Parsed) ∧
      ∀ template ∈ analyses.map (·.template), template.Countable := by
  rw [List.forall_mem_map, List.forall_mem_map, ← forall₂_and]
  intro analysis member
  obtain ⟨⟨slide, position⟩, _, accepted⟩ := exists_of_mem_mapM analyzed member
  exact ⟨TemplateSlide.parsed_of_analyze accepted,
    TemplateSlide.countable_of_analyze accepted (below analysis member)⟩

/-- Slides that are analyzed are planned for all data, while the numbers behind their indices have
numerals. No step of the plan fails. -/
theorem plan_in_steps (slides : List (TemplateSlide × Int)) (analyses : List Analysis)
    (analyzed : slides.mapM (fun (slide, position) => slide.analyze position) = .ok analyses)
    (below : ∀ analysis ∈ analyses, analysis.template.IndicesBelow (writeBound - 1)) (data : Value) :
    ∃ aliases deck planning steps,
      MadeInSteps (analyses.map (·.template)) data aliases deck planning steps := by
  obtain ⟨parsed, countable⟩ := parsed_and_countable analyzed below
  obtain ⟨aliases, declared, table⟩ := exists_declared countable
  obtain ⟨planning, planned⟩ := exists_planning countable data
  obtain ⟨deck, expanded, _⟩ := exists_deck planned
  have expansion := parsed_of_mem_deck declared expanded table parsed
  obtain ⟨planning, steps, made⟩ := madeInSteps_of_parsed declared expanded parsed expansion data
  exact ⟨aliases, deck, planning, steps, made⟩

/-- A slide for a person, one with a short name for the people, and one for guests. -/
def peopleSlides : List (TemplateSlide × Int) :=
  [(.ofTexts 1 ["${People[0].name}".toList] [], 0),
   (.ofTexts 2 ["${p>name}".toList] "#alias: People as p".toList, 1),
   (.ofTexts 3 ["Thanks".toList] "#foreach: Guests".toList, 2)]

def peopleTemplates : List SlideTemplate :=
  [⟨1, 0, .source, [],
    [⟨"${People[0].name}", .path ⟨⟨"People", some 0⟩, [(.member, ⟨"name", none⟩)]⟩, none,
      [("People", 0)]⟩],
    some "People", some 0, 0, 0⟩,
   ⟨2, 1, .source, [.alias "People" "p"],
    [⟨"${p>name}", .path ⟨⟨"p", none⟩, [(.context, ⟨"name", none⟩)]⟩, none, []⟩], some "p", none, 0, 0⟩,
   ⟨3, 2, .source, [.foreach "Guests" 0 0], [], some "Guests", none, 0, 0⟩]

/-- The slides are planned for data without guests. -/
theorem plan_in_steps_people : ∃ analyses aliases deck planning steps,
    peopleSlides.mapM (fun (slide, position) => slide.analyze position) = .ok analyses ∧
      analyses.map (·.template) = peopleTemplates ∧
      MadeInSteps peopleTemplates
        (.map [(.text "People", .list [.map [(.text "name", .text "ann")]])])
        aliases deck planning steps := by
  have templates : (peopleSlides.mapM fun (slide, position) => TemplateSlide.analyze slide position).toOption.map
      (List.map Analysis.template) = some peopleTemplates := by decide +kernel
  obtain ⟨analyses, made, same⟩ := Option.map_eq_some_iff.1 templates
  have analyzed := eq_ok_of_toOption made
  have few : ∀ template ∈ peopleTemplates,
      (∀ expression ∈ template.expressions, ∀ path ∈ expression.paths, ∀ segment ∈ path.segments,
        ∀ index ∈ segment.index, index < 10) ∧
      ∀ directive ∈ template.directives, directive.path.toList.length < 10 := by decide +kernel
  have below : ∀ analysis ∈ analyses, analysis.template.IndicesBelow (writeBound - 1) := by
    intro analysis member
    have among : analysis.template ∈ peopleTemplates := same ▸ List.mem_map_of_mem member
    obtain ⟨indices, paths⟩ := few analysis.template among
    refine ⟨fun expression among path inside segment here index found => ?_,
      fun directive among => indicesBelow_of_length (Nat.lt_trans (paths directive among) (by decide))⟩
    have small := indices expression among path inside segment here index found
    have next : index + 1 < writeBound := lt_writeBound_of_lt (Nat.lt_of_le_of_lt small (by decide))
    omega
  obtain ⟨aliases, deck, planning, steps, plan⟩ := plan_in_steps peopleSlides analyses analyzed below
    (.map [(.text "People", .list [.map [(.text "name", .text "ann")]])])
  rw [same] at plan
  exact ⟨analyses, aliases, deck, planning, steps, analyzed, same, plan⟩

end DeckBinding
