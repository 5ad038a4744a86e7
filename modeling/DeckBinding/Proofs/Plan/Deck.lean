import DeckBinding.Proofs.Keyed
import DeckBinding.Proofs.Outcome
import DeckBinding.Proofs.Plan.Instances

set_option autoImplicit false

namespace DeckBinding

open DeckBinding.Number

/-- The template slides as they are planned: in order of position, with the aliases expanded. -/
def expandedDeck (templates : List SlideTemplate) : Except NumeralError (List SlideTemplate) := do
  let templates := inOrder templates
  let declared := templates.flatMap fun template => template.directives.filter Directive.isAlias
  let built ← AliasTable.ofDirectives declared
  if built.table.entries.isEmpty then .ok templates
  else do
    let expanded ← built.table.expandTemplates templates
    .ok expanded.1

variable {templates deck : List SlideTemplate} {data : Value} {planning : Planning}

/-- A plan is made when the aliases can be expanded, and it shows the expansion of the deck. -/
theorem ofTemplates_spec (templates : List SlideTemplate) (data : Value) :
    match expandedDeck templates with
    | .error error => SlidePlan.ofTemplates templates data = .error error
    | .ok deck => ∃ planning, SlidePlan.ofTemplates templates data = .ok planning ∧
        planning.plan.instances = Instance.numbered
          (instancesOf (planEntries deck (findWindows deck).1 data.plain)) := by
  unfold SlidePlan.ofTemplates expandedDeck
  dsimp only
  cases AliasTable.ofDirectives
      ((inOrder templates).flatMap fun template => template.directives.filter Directive.isAlias) with
  | error error => rfl
  | ok built =>
    dsimp only [bind, Except.bind]
    cases built.table.entries.isEmpty with
    | true => exact ⟨_, rfl, rfl⟩
    | false =>
      cases built.table.expandTemplates (inOrder templates) with
      | error error => rfl
      | ok expanded => exact ⟨_, rfl, rfl⟩

theorem exists_deck (planned : SlidePlan.ofTemplates templates data = .ok planning) :
    ∃ deck, expandedDeck templates = .ok deck ∧
      planning.plan.instances = Instance.numbered
        (instancesOf (planEntries deck (findWindows deck).1 data.plain)) := by
  have spec := ofTemplates_spec templates data
  cases expanded : expandedDeck templates with
  | error error =>
    rw [expanded] at spec
    cases planned.symm.trans spec
  | ok deck =>
    rw [expanded] at spec
    obtain ⟨other, made, instances⟩ := spec
    cases planned.symm.trans made
    exact ⟨deck, rfl, instances⟩

/-- Templates in their positions stay in order. -/
theorem inOrder_eq {templates : List SlideTemplate}
    (positions : templates.map (·.position) =
      (List.range templates.length).map fun number : Nat => (number : Int)) :
    inOrder templates = templates := by
  have ascending : (templates.map (·.position)).Pairwise (· ≤ ·) := by
    rw [positions, List.pairwise_map]
    apply List.pairwise_lt_range.imp
    intro left right before
    exact Int.ofNat_le.2 (Nat.le_of_lt before)
  have sorted : templates.mergeSort (fun left right => left.position ≤ right.position) =
      templates := by
    apply List.mergeSort_of_pairwise
    apply (List.pairwise_map.1 ascending).imp
    intro left right ordered
    exact decide_eq_true ordered
  unfold inOrder
  rw [sorted]
  apply List.ext_getElem?
  intro number
  rw [List.getElem?_map, List.getElem?_zipIdx]
  cases there : templates[number]? with
  | none => rfl
  | some template =>
    have inside := (List.getElem?_eq_some_iff.1 there).1
    have placed := congrArg (·[number]?) positions
    simp only [List.getElem?_map, there, List.getElem?_range inside, Option.map_some,
      Option.some.injEq] at placed
    simp only [Option.map_some, Nat.zero_add, ← placed]

/-- Templates that give no path a short name are the deck, when they stand in order. -/
theorem expandedDeck_of_plain (plain : ∀ template ∈ templates, ∀ directive ∈ template.directives,
    directive.isAlias = false) (positions : templates.map (·.position) =
      (List.range templates.length).map fun number : Nat => (number : Int)) :
    expandedDeck templates = .ok templates := by
  have none : templates.flatMap (fun template => template.directives.filter Directive.isAlias) = [] := by
    rw [List.flatMap_eq_nil_iff]
    intro template member
    rw [List.filter_eq_nil_iff]
    intro directive declared
    rw [plain template member directive declared]
    exact Bool.false_ne_true
  have built : AliasTable.ofDirectives [] = .ok ⟨.empty, [], []⟩ := rfl
  unfold expandedDeck
  rw [inOrder_eq positions]
  dsimp only
  rw [none, built]
  rfl

theorem slide_of_build {slide position : Int} {directives : List Directive}
    {expressions : List Expression} {analysis : Analysis}
    (built : SlideTemplate.build slide position directives expressions = .ok analysis) :
    analysis.template.slide = slide := by
  unfold SlideTemplate.build at built
  obtain ⟨warnings, _, further⟩ := exists_of_bind_eq_ok built
  obtain ⟨numeral, _, made⟩ := exists_of_bind_eq_ok further
  cases made
  rfl

theorem slide_of_expandTemplate {table : AliasTable} {template : SlideTemplate} {analysis : Analysis}
    (expanded : table.expandTemplate template = .ok analysis) :
    analysis.template.slide = template.slide := by
  unfold AliasTable.expandTemplate at expanded
  obtain ⟨directives, _, built⟩ := exists_of_bind_eq_ok expanded
  exact slide_of_build built

theorem slides_of_expandTemplates {table : AliasTable} {templates : List SlideTemplate}
    {expanded : List SlideTemplate × List Warning}
    (made : table.expandTemplates templates = .ok expanded) :
    expanded.1.map (·.slide) = templates.map (·.slide) := by
  induction templates generalizing expanded with
  | nil =>
    cases made
    rfl
  | cons template rest ih =>
    unfold AliasTable.expandTemplates at made
    obtain ⟨analysis, first, more⟩ := exists_of_bind_eq_ok made
    obtain ⟨others, behind, last⟩ := exists_of_bind_eq_ok more
    cases last
    rw [List.map_cons, List.map_cons, slide_of_expandTemplate first, ih behind]

theorem slides_inOrder (templates : List SlideTemplate) :
    ((inOrder templates).map (·.slide)).Perm (templates.map (·.slide)) := by
  have same : (inOrder templates).map (·.slide) =
      (templates.mergeSort fun left right => left.position ≤ right.position).map (·.slide) := by
    unfold inOrder
    rw [List.map_map]
    conv => rhs; rw [← List.zipIdx_map_fst 0 (templates.mergeSort _), List.map_map]
    rfl
  rw [same]
  exact (List.mergeSort_perm _ _).map _

/-- The deck has the slides of the templates. -/
theorem slides_expandedDeck (made : expandedDeck templates = .ok deck) :
    deck.map (·.slide) = (inOrder templates).map (·.slide) := by
  unfold expandedDeck at made
  obtain ⟨built, _, further⟩ := exists_of_bind_eq_ok made
  split at further
  · cases further
    rfl
  · obtain ⟨expanded, done, last⟩ := exists_of_bind_eq_ok further
    cases last
    exact slides_of_expandTemplates done

theorem nodup_slides_expandedDeck (distinct : (templates.map (·.slide)).Nodup)
    (made : expandedDeck templates = .ok deck) : (deck.map (·.slide)).Nodup := by
  rw [slides_expandedDeck made, (slides_inOrder templates).nodup_iff]
  exact distinct

theorem positions_numbered (instances : List Instance) :
    (Instance.numbered instances).map (·.position) =
      (List.range instances.length).map fun number : Nat => (number : Int) := by
  have same : (Instance.numbered instances).map (·.position) =
      (instances.zipIdx.map Prod.snd).map fun number : Nat => (number : Int) := by
    rw [Instance.numbered, List.map_map, List.map_map]
    rfl
  rw [same, List.zipIdx_map_snd, List.range_eq_range']

/-- What does not depend on the position stays when slides get their positions. -/
theorem map_numbered {α : Type} (view : Instance → α)
    (apart : ∀ shown position, view { shown with position } = view shown) (instances : List Instance) :
    (Instance.numbered instances).map view = instances.map view := by
  have same : (Instance.numbered instances).map view = (instances.zipIdx.map Prod.fst).map view := by
    rw [Instance.numbered, List.map_map, List.map_map]
    apply List.map_congr_left
    intro entry _
    exact apart entry.1 entry.2
  rw [same, List.zipIdx_map_fst]

theorem mem_numbered {instances : List Instance} {shown : Instance}
    (member : shown ∈ Instance.numbered instances) :
    ∃ original ∈ instances, ∃ position, shown = { original with position } := by
  obtain ⟨⟨original, number⟩, among, rfl⟩ := List.mem_map.1 member
  exact ⟨original, List.fst_mem_of_mem_zipIdx among, number, rfl⟩

end DeckBinding
