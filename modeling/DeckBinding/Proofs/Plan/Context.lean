import DeckBinding.Proofs.Resolution.Context

set_option autoImplicit false

namespace DeckBinding

variable {templates deck : List SlideTemplate} {data : Value} {planning : Planning}
  {windows : List Window} {position : Nat} {template : SlideTemplate} {shown : Instance}

theorem Origin.follow (origin : Origin windows data position template shown) :
    (ContextPath.follow data shown.context).isSome := by
  cases origin with
  | alone => rfl
  | page => rfl
  | element _ _ reached => exact reached
  | pageBeside _ _ reached => exact reached
  | pageBelow _ _ leads => exact Option.isSome_of_eq_some leads.reached
  | blank _ _ leads => exact Option.isSome_of_eq_some leads.reached

/-- A slide below an element shows the last part of its template's collection; the parts in front
are those that its context names. -/
theorem Origin.parentIndex (origin : Origin windows data position template shown) {parent : Int}
    (below : shown.parentIndex = some parent) :
    shown.collection = template.collection ∧
      shown.context.map (·.name) = template.chunks.dropLast ∧
      shown.context.length + 1 = template.chunks.length ∧
      shown.context.getLast?.map (·.index) = some parent := by
  have parts {window : Window} {context : ContextPath} {chunk : String} {element : Value}
      (leads : LeadsTo data window template context chunk element) :
      context.map (·.name) = template.chunks.dropLast ∧
        context.length + 1 = template.chunks.length := by
    rw [leads.chunks, List.dropLast_concat, List.length_append, List.length_map]
    exact ⟨rfl, rfl⟩
  cases origin with
  | alone => cases below
  | page => cases below
  | element => cases below
  | pageBeside => cases below
  | pageBelow _ _ leads => exact ⟨rfl, (parts leads).1, (parts leads).2, below⟩
  | blank _ _ leads => exact ⟨rfl, (parts leads).1, (parts leads).2, below⟩

/-- Every slide of a plan is made by a template slide of its deck. -/
theorem exists_origin_of_planned (planned : SlidePlan.ofTemplates templates data = .ok planning) :
    ∃ deck, expandedDeck templates = .ok deck ∧ ∀ shown ∈ planning.plan.instances,
      ∃ position template original, deck[position]? = some template ∧
        Origin (findWindows deck).1 data.plain position template original ∧
        ∃ number, shown = { original with position := number } := by
  obtain ⟨deck, expanded, instances⟩ := exists_deck planned
  refine ⟨deck, expanded, ?_⟩
  intro shown member
  rw [instances] at member
  obtain ⟨original, among, number, same⟩ := mem_numbered member
  obtain ⟨position, template, there, origin⟩ := exists_origin (findWindows_ordered deck).1 among
  exact ⟨position, template, original, there, origin, number, same⟩

theorem follow_of_planned (planned : SlidePlan.ofTemplates templates data = .ok planning) :
    ∀ shown ∈ planning.plan.instances, (ContextPath.follow data.plain shown.context).isSome := by
  obtain ⟨deck, _, origins⟩ := exists_origin_of_planned planned
  intro shown member
  obtain ⟨_, _, _, _, origin, _, rfl⟩ := origins shown member
  exact origin.follow

/-- A slide whose context leads to elements of the data, which are the ones that the resolver finds
at any time. When it stands below an element, its context names the parts of its template's
collection, the last one apart. -/
structure Grounded (deck : List SlideTemplate) (root : Value) (slides : List Instance)
    (shown : Instance) : Prop where
  elements : ∀ depth ≤ shown.context.length, ∃ element,
    ContextPath.follow root (shown.context.take depth) = some element ∧
    ∀ cache, Reached root slides cache →
      (contextElement root shown.context depth cache).1 =
        (ContextPath.text (shown.context.take depth)).map fun _ => some element
  below : ∀ parent, shown.parentIndex = some parent → ∃ template ∈ deck,
    template.slide = shown.slide ∧ template.collection = shown.collection ∧
    shown.context.map (·.name) = template.chunks.dropLast ∧
    shown.context.length + 1 = template.chunks.length ∧
    shown.context.getLast?.map (·.index) = some parent

/-- Every slide of a plan is grounded in the data that the plan is made for. -/
theorem plan_grounded (templates : List SlideTemplate) (data : Value) (planning : Planning)
    (planned : SlidePlan.ofTemplates templates data = .ok planning) :
    ∃ deck, expandedDeck templates = .ok deck ∧ ∀ shown ∈ planning.plan.instances,
      Grounded deck data.plain planning.plan.instances shown := by
  obtain ⟨deck, expanded, origins⟩ := exists_origin_of_planned planned
  have leads := follow_of_planned planned
  refine ⟨deck, expanded, fun shown member => ⟨?_, ?_⟩⟩
  · intro depth inside
    obtain ⟨element, found⟩ :=
      Option.isSome_iff_exists.1 (ContextPath.follow_take_isSome (leads shown member) depth)
    refine ⟨element, found, fun cache reached => ?_⟩
    rw [(contextElement_of_sound (leads shown member) (reached.sound leads) inside).1, found]
  · intro parent below
    obtain ⟨position, template, original, there, origin, number, rfl⟩ := origins shown member
    obtain ⟨collection, names, length, last⟩ := origin.parentIndex below
    exact ⟨template, List.mem_of_getElem? there, origin.slide.symm, collection.symm, names, length,
      last⟩

/-- Slides for the elements of `p`, and for the items two levels below them. -/
def levelsDeck : List SlideTemplate :=
  [⟨1, 0, .source, [], [], some "p", some 0, 0, 0⟩,
    ⟨2, 1, .source, [], [], some "p>c>d", some 0, 0, 1⟩]

def levelsData : Value :=
  .map [(.text "p", .list [.map [(.text "c", .list [.map [(.text "d", .list [.text "x"])]])]])]

theorem plan_grounded_two_levels : ∃ planning,
    SlidePlan.ofTemplates levelsDeck levelsData = .ok planning ∧
    ∀ shown ∈ planning.plan.instances,
      Grounded levelsDeck levelsData.plain planning.plan.instances shown := by
  have expanded : expandedDeck levelsDeck = .ok levelsDeck :=
    expandedDeck_of_plain (by simp [levelsDeck]) (by decide)
  have spec := ofTemplates_spec levelsDeck levelsData
  rw [expanded] at spec
  obtain ⟨planning, planned, _⟩ := spec
  obtain ⟨deck, same, grounded⟩ := plan_grounded levelsDeck levelsData planning planned
  obtain rfl : levelsDeck = deck := Except.ok.inj (expanded.symm.trans same)
  exact ⟨planning, planned, grounded⟩

end DeckBinding
