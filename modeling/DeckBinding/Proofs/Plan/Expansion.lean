import DeckBinding.Proofs.Plan.Deck
import DeckBinding.Proofs.Plan.Unaliased

set_option autoImplicit false

namespace DeckBinding

open DeckBinding.Number

def declaredAliases (templates : List SlideTemplate) : List Directive :=
  (inOrder templates).flatMap fun template => template.directives.filter Directive.isAlias

/-- A template is what is built from its own directives and expressions. -/
def SlideTemplate.OfParts (template : SlideTemplate) : Prop :=
  (SlideTemplate.build template.slide template.position template.directives
    template.expressions).map (·.template) = .ok template

/-- The template that is built from the parts of another one with the short names in them expanded,
without the directives that declare short names. -/
def AliasTable.expandParts (table : AliasTable) (template : SlideTemplate) :
    Except NumeralError SlideTemplate := do
  let directives ← table.expandDirectives (Directive.others template.directives)
  let analysis ← SlideTemplate.build template.slide template.position directives
    (template.expressions.map table.expandExpression)
  .ok analysis.template

/-- The template that is planned for another one: built anew when there are short names. -/
def AliasTable.planned (table : AliasTable) (template : SlideTemplate) :
    Except NumeralError SlideTemplate :=
  if table.entries.isEmpty then .ok template
  else (table.expandTemplate template).map (·.template)

def AliasTable.Built.plan (aliases : AliasTable.Built) (deck : List SlideTemplate) (data : Value) :
    SlidePlan :=
  let entries := planEntries deck (findWindows deck).1 data.plain
  { instances := Instance.numbered (entries.filterMap PlanEntry.instance?)
    aliases := aliases.table
    chains := Keyed.ofList
      ((deck.filter fun template => !template.chunks.isEmpty).map fun template =>
        (template.slide, template.chunks))
    templates := Keyed.ofList (deck.map fun template => (template.slide, template))
    diagnostics := aliases.diagnostics ++ (findWindows deck).2 ++
      entries.filterMap PlanEntry.diagnostic?
    nested := !(findWindows deck).1.isEmpty }

/-- The position of a template is not looked at when it is built. -/
theorem build_at (slide position : Int) (directives : List Directive) (expressions : List Expression) :
    SlideTemplate.build slide position directives expressions =
      (SlideTemplate.build slide 0 directives expressions).map fun analysis =>
        { analysis with template := { analysis.template with position } } := by
  unfold SlideTemplate.build
  exact bind_eq_map fun _ => bind_eq_map fun _ => rfl

/-- The directives that declare short names are not looked at when a template is built. -/
theorem build_others (slide position : Int) (directives : List Directive)
    (expressions : List Expression) :
    SlideTemplate.build slide position (Directive.others directives) expressions =
      (SlideTemplate.build slide position directives expressions).map fun analysis =>
        { analysis with template := analysis.template.unaliased } := by
  have kind : slideKind (Directive.others directives) expressions = slideKind directives expressions := by
    unfold slideKind
    rw [Directive.any_others fun _ _ => rfl, Directive.any_others fun _ _ => rfl,
      Directive.any_others fun _ _ => rfl]
  have foreach? : firstForeach? (Directive.others directives) = firstForeach? directives :=
    Directive.findSome?_others fun _ _ => rfl
  have begin? : (Directive.others directives).findSome? Directive.rangeBegin? =
      directives.findSome? Directive.rangeBegin? :=
    Directive.findSome?_others fun _ _ => rfl
  unfold SlideTemplate.build
  rw [kind, foreach?, begin?]
  exact bind_eq_map fun _ => bind_eq_map fun _ => rfl

namespace AliasTable

variable {table : AliasTable}

theorem expandDirectives_others (table : AliasTable) (directives : List Directive) :
    table.expandDirectives (Directive.others directives) =
      (table.expandDirectives directives).map Directive.others := by
  induction directives with
  | nil => rfl
  | cons directive rest ih =>
    rcases directive with ⟨path, max, offset⟩ | ⟨boundary, path⟩ | ⟨path, name⟩
    · have kept : Directive.others (.foreach path max offset :: rest) =
          .foreach path max offset :: Directive.others rest := rfl
      rw [kept, expandDirectives, expandDirectives, expandDirective, ih]
      cases table.expandText path <;> cases table.expandDirectives rest <;> rfl
    · have kept : Directive.others (.range boundary path :: rest) =
          .range boundary path :: Directive.others rest := rfl
      rw [kept, expandDirectives, expandDirectives, expandDirective, ih]
      cases table.expandText path <;> cases table.expandDirectives rest <;> rfl
    · have dropped : Directive.others (.alias path name :: rest) = Directive.others rest := rfl
      rw [dropped, expandDirectives, expandDirective, ih]
      cases table.expandDirectives rest <;> rfl

theorem expandDirectives_eq_mapM (table : AliasTable) (directives : List Directive) :
    table.expandDirectives directives = directives.mapM table.expandDirective := by
  induction directives with
  | nil => rfl
  | cons directive rest ih =>
    rw [expandDirectives, List.mapM_cons, ih]
    rfl

theorem expandDirectives_of_empty (none : table.entries = []) (directives : List Directive) :
    table.expandDirectives directives = .ok directives := by
  have text (text : String) : table.expandText text = .ok text := by
    simp [expandText, none]
  rw [expandDirectives_eq_mapM]
  refine mapM_eq_self fun directive _ => ?_
  cases directive <;> simp [expandDirective, text, Except.map]

/-- The position of a template stays when the short names in it are expanded. -/
theorem planned_at (table : AliasTable) (template : SlideTemplate) (position : Int) :
    table.planned { template with position } =
      (table.planned template).map fun other => { other with position } := by
  unfold planned
  split
  · rfl
  · unfold expandTemplate
    dsimp only
    cases table.expandDirectives template.directives with
    | error error => rfl
    | ok directives =>
      dsimp only [bind, Except.bind]
      rw [build_at _ position, build_at _ template.position]
      cases SlideTemplate.build template.slide 0 directives
        (template.expressions.map table.expandExpression) <;> rfl

/-- A template built from expanded parts is the one that is planned, without the directives that
declare short names. -/
theorem expandParts_eq (table : AliasTable) {template : SlideTemplate} (built : template.OfParts) :
    table.expandParts template = (table.planned template).map .unaliased := by
  unfold expandParts planned
  cases entries : table.entries with
  | nil =>
    have expressions : template.expressions.map table.expandExpression = template.expressions := by
      rw [List.map_congr_left fun expression _ => expandExpression_of_empty entries expression,
        List.map_id_fun']
      rfl
    unfold SlideTemplate.OfParts at built
    rw [expandDirectives_of_empty entries, expressions]
    dsimp only [bind, Except.bind]
    rw [build_others]
    cases made : SlideTemplate.build template.slide template.position template.directives
        template.expressions with
    | error error =>
      rw [made] at built
      cases built
    | ok analysis =>
      rw [made] at built
      have same : analysis.template = template := Except.ok.inj built
      dsimp only [Except.map]
      rw [same]
      rfl
  | cons entry rest =>
    unfold expandTemplate
    rw [expandDirectives_others]
    cases table.expandDirectives template.directives with
    | error error => rfl
    | ok directives =>
      dsimp only [bind, Except.bind, Except.map]
      rw [build_others]
      cases SlideTemplate.build template.slide template.position directives
        (template.expressions.map table.expandExpression) <;> rfl

/-- The template that is planned for another one, or that one itself if there is none. -/
def shown (table : AliasTable) (template : SlideTemplate) : SlideTemplate :=
  (table.planned template).toOption.getD template

theorem shown_at (table : AliasTable) (template : SlideTemplate) (position : Int) :
    table.shown { template with position } = { table.shown template with position } := by
  unfold shown
  rw [planned_at]
  cases table.planned template <;> rfl

theorem shown_of_planned {template other : SlideTemplate} (planned : table.planned template = .ok other) :
    table.shown template = other := by
  unfold shown
  rw [planned]
  rfl

end AliasTable

/-- What leaves the position of a template alone can be done before or after the templates are put
in order. -/
theorem inOrder_map {view : SlideTemplate → SlideTemplate}
    (apart : ∀ template position, view { template with position } = { view template with position })
    (templates : List SlideTemplate) : inOrder (templates.map view) = (inOrder templates).map view := by
  have kept (template : SlideTemplate) : (view template).position = template.position := by
    have same := congrArg SlideTemplate.position (apart template template.position)
    exact same
  have sorted : (templates.map view).mergeSort (fun left right => left.position ≤ right.position) =
      (templates.mergeSort fun left right => left.position ≤ right.position).map view := by
    rw [List.map_mergeSort]
    intro left _ right _
    rw [kept, kept]
  unfold inOrder
  rw [sorted, List.zipIdx_map, List.map_map, List.map_map]
  apply List.map_congr_left
  intro entry _
  exact (apart entry.1 entry.2).symm

theorem mem_inOrder {templates : List SlideTemplate} {template : SlideTemplate} :
    template ∈ inOrder templates → ∃ original ∈ templates, ∃ position,
      template = { original with position } := by
  intro member
  obtain ⟨⟨original, number⟩, among, rfl⟩ := List.mem_map.1 member
  exact ⟨original, List.mem_mergeSort.1 (List.fst_mem_of_mem_zipIdx among), number, rfl⟩

theorem exists_mem_inOrder {templates : List SlideTemplate} {original : SlideTemplate}
    (member : original ∈ templates) : ∃ position, { original with position } ∈ inOrder templates := by
  have sorted : original ∈ (templates.mergeSort fun left right =>
      left.position ≤ right.position).zipIdx.map Prod.fst := by
    rw [List.zipIdx_map_fst, List.mem_mergeSort]
    exact member
  obtain ⟨⟨_, number⟩, among, rfl⟩ := List.mem_map.1 sorted
  exact ⟨number, List.mem_map.2 ⟨_, among, rfl⟩⟩

variable {templates deck : List SlideTemplate} {aliases : AliasTable.Built}

theorem fst_expandTemplates (table : AliasTable) (templates : List SlideTemplate) :
    (table.expandTemplates templates).map (·.1) =
      templates.mapM fun template => (table.expandTemplate template).map (·.template) := by
  induction templates with
  | nil => rfl
  | cons template rest ih =>
    rw [AliasTable.expandTemplates, List.mapM_cons, ← ih]
    cases table.expandTemplate template with
    | error error => rfl
    | ok analysis => cases table.expandTemplates rest <;> rfl

theorem expandedDeck_eq (declared : AliasTable.ofDirectives (declaredAliases templates) = .ok aliases) :
    expandedDeck templates = (inOrder templates).mapM aliases.table.planned := by
  unfold expandedDeck
  change (AliasTable.ofDirectives (declaredAliases templates) >>= _) = _
  rw [declared]
  unfold AliasTable.planned
  dsimp only [bind, Except.bind]
  cases aliases.table.entries.isEmpty with
  | true => exact (mapM_eq_self fun _ _ => rfl).symm
  | false =>
    refine Eq.trans ?_ (fst_expandTemplates aliases.table (inOrder templates))
    cases aliases.table.expandTemplates (inOrder templates) <;> rfl

/-- A plan is made of the deck with the short names expanded. -/
theorem ofTemplates_eq (declared : AliasTable.ofDirectives (declaredAliases templates) = .ok aliases)
    (data : Value) :
    (SlidePlan.ofTemplates templates data).map (·.plan) =
      (expandedDeck templates).map fun deck => aliases.plan deck data := by
  unfold SlidePlan.ofTemplates expandedDeck
  change (AliasTable.ofDirectives (declaredAliases templates) >>= _).map _ =
    (AliasTable.ofDirectives (declaredAliases templates) >>= _).map _
  rw [declared]
  dsimp only [bind, Except.bind]
  cases aliases.table.entries.isEmpty with
  | true => rfl
  | false => cases aliases.table.expandTemplates (inOrder templates) <;> rfl

theorem chains_unaliased (deck : List SlideTemplate) :
    ((deck.map SlideTemplate.unaliased).filter fun template => !template.chunks.isEmpty).map
        (fun template => (template.slide, template.chunks)) =
      (deck.filter fun template => !template.chunks.isEmpty).map fun template =>
        (template.slide, template.chunks) := by
  rw [List.filter_map, List.map_map]
  rfl

/-- Without the directives that declare short names, none are declared. -/
theorem declaredAliases_unaliased (templates : List SlideTemplate) :
    declaredAliases (templates.map .unaliased) = [] := by
  unfold declaredAliases
  rw [inOrder_map fun _ _ => rfl, List.flatMap_map, List.flatMap_eq_nil_iff]
  intro template _
  rw [List.filter_eq_nil_iff]
  intro directive member declares
  have other := (List.mem_filter.1 member).2
  simp [declares] at other

theorem exists_plan (declared : AliasTable.ofDirectives (declaredAliases templates) = .ok aliases)
    (made : expandedDeck templates = .ok deck) (data : Value) :
    ∃ planning, SlidePlan.ofTemplates templates data = .ok planning ∧
      planning.plan = aliases.plan deck data := by
  have plan := ofTemplates_eq declared data
  rw [made] at plan
  cases planned : SlidePlan.ofTemplates templates data with
  | error error =>
    rw [planned] at plan
    cases plan
  | ok planning =>
    rw [planned] at plan
    exact ⟨planning, rfl, Except.ok.inj plan⟩

/-- A deck without short names is planned as it stands. -/
theorem exists_plan_of_unaliased (templates : List SlideTemplate) (data : Value) :
    ∃ other, SlidePlan.ofTemplates (templates.map .unaliased) data = .ok other ∧
      other.plan = AliasTable.Built.plan ⟨.empty, [], []⟩ ((inOrder templates).map .unaliased) data := by
  have none : AliasTable.ofDirectives (declaredAliases (templates.map .unaliased)) =
      .ok ⟨.empty, [], []⟩ := by
    rw [declaredAliases_unaliased]
    rfl
  have deck : expandedDeck (templates.map .unaliased) = .ok ((inOrder templates).map .unaliased) := by
    rw [expandedDeck_eq none, inOrder_map fun _ _ => rfl]
    exact mapM_eq_self fun _ _ => rfl
  exact exists_plan none deck data

theorem plan_unaliased (aliases : AliasTable.Built) (deck : List SlideTemplate) (data : Value) :
    let other := AliasTable.Built.plan ⟨.empty, [], []⟩ (deck.map .unaliased) data
    (aliases.plan deck data).instances = other.instances ∧
      (aliases.plan deck data).chains = other.chains ∧
      (aliases.plan deck data).nested = other.nested ∧
      (aliases.plan deck data).diagnostics = aliases.diagnostics ++ other.diagnostics := by
  unfold AliasTable.Built.plan
  simp only [findWindows_unaliased, planEntries_unaliased, chains_unaliased, List.nil_append,
    List.append_assoc, and_self]

section Planned

variable (built : ∀ template ∈ templates, template.OfParts)
  (declared : AliasTable.ofDirectives (declaredAliases templates) = .ok aliases)

include declared in
theorem expandedDeck_of_planned (planned : ∀ template ∈ templates,
      aliases.table.planned template = .ok (aliases.table.shown template)) :
    expandedDeck templates = .ok ((inOrder templates).map aliases.table.shown) := by
  rw [expandedDeck_eq declared]
  apply mapM_eq_map
  intro template member
  obtain ⟨original, among, position, rfl⟩ := mem_inOrder member
  have moved := aliases.table.planned_at original position
  rw [planned original among] at moved
  rw [moved, aliases.table.shown_at original position]
  rfl

include built in
theorem mapM_expandParts (planned : ∀ template ∈ templates,
      aliases.table.planned template = .ok (aliases.table.shown template)) :
    templates.mapM aliases.table.expandParts =
      .ok ((templates.map aliases.table.shown).map .unaliased) := by
  rw [List.map_map]
  apply mapM_eq_map
  intro template member
  rw [aliases.table.expandParts_eq (built template member), planned template member]
  rfl

include built declared in
/-- A template that cannot be built stops the plan, wherever it stands. -/
theorem exists_errors {template : SlideTemplate} (member : template ∈ templates)
    {error : NumeralError} (refused : aliases.table.planned template = .error error) (data : Value) :
    (∃ other, templates.mapM aliases.table.expandParts = .error other) ∧
      ∃ other, SlidePlan.ofTemplates templates data = .error other := by
  have part : aliases.table.expandParts template = .error error := by
    rw [aliases.table.expandParts_eq (built template member), refused]
    rfl
  refine ⟨exists_mapM_error member part, ?_⟩
  obtain ⟨position, among⟩ := exists_mem_inOrder member
  have moved : aliases.table.planned { template with position } = .error error := by
    rw [aliases.table.planned_at, refused]
    rfl
  obtain ⟨other, planned⟩ := exists_mapM_error among moved
  have plan := ofTemplates_eq declared data
  rw [expandedDeck_eq declared, planned] at plan
  cases made : SlidePlan.ofTemplates templates data with
  | error error => exact ⟨error, rfl⟩
  | ok planning =>
    rw [made] at plan
    cases plan

end Planned

/-- Planning with short names is planning with the paths they stand for. Only a numeral that is too
long stops the plan, and it stops both. -/
theorem plan_expanded (built : ∀ template ∈ templates, template.OfParts)
    (declared : AliasTable.ofDirectives (declaredAliases templates) = .ok aliases) (data : Value) :
    match templates.mapM aliases.table.expandParts with
    | .error _ => ∃ error, SlidePlan.ofTemplates templates data = .error error
    | .ok expanded => ∃ planning other,
        SlidePlan.ofTemplates templates data = .ok planning ∧
        SlidePlan.ofTemplates expanded data = .ok other ∧
        planning.plan.aliases = aliases.table ∧
        planning.plan.instances = other.plan.instances ∧
        planning.plan.chains = other.plan.chains ∧
        planning.plan.nested = other.plan.nested ∧
        planning.plan.diagnostics = aliases.diagnostics ++ other.plan.diagnostics := by
  by_cases all : ∀ template ∈ templates, ∃ other, aliases.table.planned template = .ok other
  · have planned : ∀ template ∈ templates,
        aliases.table.planned template = .ok (aliases.table.shown template) := by
      intro template member
      obtain ⟨other, planned⟩ := all template member
      rw [aliases.table.shown_of_planned planned, planned]
    obtain ⟨planning, first, here⟩ :=
      exists_plan declared (expandedDeck_of_planned declared planned) data
    obtain ⟨other, second, there⟩ :=
      exists_plan_of_unaliased (templates.map aliases.table.shown) data
    rw [inOrder_map aliases.table.shown_at] at there
    rw [mapM_expandParts built planned]
    refine ⟨planning, other, first, second, ?_⟩
    rw [here, there]
    exact ⟨rfl, plan_unaliased aliases _ data⟩
  · obtain ⟨template, remains⟩ := not_forall.1 all
    obtain ⟨member, fails⟩ := Classical.not_imp.1 remains
    cases refused : aliases.table.planned template with
    | ok other => exact absurd ⟨other, refused⟩ fails
    | error error =>
      obtain ⟨⟨other, parts⟩, stopped⟩ := exists_errors built declared member refused data
      rw [parts]
      exact stopped

/-- The staff of a company, below a short name that the second slide declares. -/
def staffDeck : List SlideTemplate :=
  [⟨1, 0, .source, [.foreach "team" 0 0],
    [⟨"${team[1].name}", .path ⟨⟨"team", some 1⟩, [(.member, ⟨"name", none⟩)]⟩, none, [("team", 1)]⟩],
    some "team", some 1, 0, 0⟩,
   ⟨2, 1, .static, [.alias "company.staff" "team"], [], none, none, 0, 0⟩]

/-- The slides of `staffDeck` without the short name. -/
def companyDeck : List SlideTemplate :=
  [⟨1, 0, .source, [.foreach "company.staff" 0 0],
    [⟨"${team[1].name}", .path ⟨⟨"company", none⟩, [(.member, ⟨"staff", some 1⟩),
      (.member, ⟨"name", none⟩)]⟩, none, [("company.staff", 1)]⟩],
    some "company.staff", some 1, 0, 0⟩,
   ⟨2, 1, .static, [], [], none, none, 0, 0⟩]

def staffData : Value :=
  .map [(.text "company", .map [(.text "staff", .list [.map [(.text "name", .text "ann")],
    .map [(.text "name", .text "bob")], .map [(.text "name", .text "cid")]])])]

theorem plan_expanded_staff : ∃ planning other,
    SlidePlan.ofTemplates staffDeck staffData = .ok planning ∧
    SlidePlan.ofTemplates companyDeck staffData = .ok other ∧
    planning.plan.instances = other.plan.instances := by
  have built : ∀ template ∈ staffDeck, template.OfParts := by
    unfold SlideTemplate.OfParts
    decide +kernel
  have table : (AliasTable.ofDirectives (declaredAliases staffDeck)).map (·.table) =
      .ok ⟨[("team", ⟨⟨"company", none⟩, [(.member, ⟨"staff", none⟩)]⟩)]⟩ := by
    have declares : declaredAliases staffDeck = [.alias "company.staff" "team"] := by
      unfold declaredAliases
      rw [inOrder_eq (by decide)]
      rfl
    rw [declares]
    decide +kernel
  cases declared : AliasTable.ofDirectives (declaredAliases staffDeck) with
  | error error =>
    rw [declared] at table
    cases table
  | ok aliases =>
    rw [declared] at table
    have parts : staffDeck.mapM aliases.table.expandParts = .ok companyDeck := by
      have same : aliases.table = _ := Except.ok.inj table
      rw [same]
      decide +kernel
    have both := plan_expanded built declared staffData
    rw [parts] at both
    obtain ⟨planning, other, first, second, _, instances, _⟩ := both
    exact ⟨planning, other, first, second, instances⟩

end DeckBinding
