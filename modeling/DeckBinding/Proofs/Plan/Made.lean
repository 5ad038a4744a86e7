import DeckBinding.Proofs.Plan.Expansion
import DeckBinding.Proofs.Plan.Order

set_option autoImplicit false

namespace DeckBinding

open DeckBinding.Number

def SlidePlan.madeFrom (plan : SlidePlan) (slide : Int) : List Instance :=
  plan.instances.filter (·.slide == slide)

/-- A template slide at a position, with an id that no other one has. -/
structure Sole (deck : List SlideTemplate) (position : Nat) (template : SlideTemplate) : Prop where
  there : deck[position]? = some template
  only : ∀ (place : Nat) (other : SlideTemplate),
    deck[place]? = some other → other.slide = template.slide → place = position

theorem sole_singleton (template : SlideTemplate) : Sole [template] 0 template := by
  refine ⟨rfl, fun place other there _ => ?_⟩
  have inside := (List.getElem?_eq_some_iff.1 there).1
  exact Nat.lt_one_iff.1 inside

section Lists

variable {α β : Type}

/-- Where one item alone makes something, a list makes what that item makes. -/
theorem flatMap_eq_of_only {items : List α} {item : α} {position : Nat} (make : α → List β)
    (there : items[position]? = some item)
    (others : ∀ place other, items[place]? = some other → place ≠ position → make other = []) :
    items.flatMap make = make item := by
  induction items generalizing position with
  | nil => cases there
  | cons first rest ih =>
    rw [List.flatMap_cons]
    cases position with
    | zero =>
      obtain rfl : first = item := Option.some.inj there
      have none : rest.flatMap make = [] := by
        rw [List.flatMap_eq_nil_iff]
        intro other member
        obtain ⟨place, found⟩ := List.mem_iff_getElem?.1 member
        exact others (place + 1) other found (Nat.succ_ne_zero place)
      rw [none, List.append_nil]
    | succ position =>
      have none : make first = [] := others 0 first rfl (Nat.succ_ne_zero position).symm
      rw [none, List.nil_append]
      apply ih there
      intro place other found apart
      exact others (place + 1) other found (fun same => apart (Nat.succ.inj same))

end Lists

variable {deck : List SlideTemplate} {windows : List Window} {data : Value} {position : Nat}
  {template : SlideTemplate}

/-- What some template slide makes is kept whole when it is the one with the id, and else
dropped. -/
theorem filter_slide_eq_self {instances : List Instance}
    (made : ∀ shown ∈ instances, shown.slide = template.slide) :
    instances.filter (·.slide == template.slide) = instances := by
  rw [List.filter_eq_self]
  intro shown member
  exact beq_iff_eq.2 (made shown member)

theorem slide_of_free (free : windowAt? windows position = none) :
    ∀ shown ∈ instancesOf (entriesAt deck windows data template position),
      shown.slide = template.slide := by
  intro shown member
  rcases mem_entriesAt member with ⟨window, inside, _⟩ | ⟨_, ⟨_, rfl⟩ | ⟨_, offset, rfl⟩⟩
  · rw [free] at inside
    cases inside
  · rfl
  · rfl

/-- Outside the windows a slide that shows a collection makes its pages, unless it only ends a
range. -/
theorem instancesOf_entriesAt_free (free : windowAt? windows position = none)
    (shows : template.kind ≠ .static) :
    instancesOf (entriesAt deck windows data template position) = [] ∨
      instancesOf (entriesAt deck windows data template position) =
        template.shownPages [] none (itemsAt data (template.collection.getD "")).length := by
  unfold entriesAt
  rw [free]
  cases kind : template.kind with
  | static => exact absurd kind shows
  | source => exact .inr (instancesOf_flatEntries template data [])
  | cloned => exact .inl rfl

/-- A slide of the expansion with the id of a sole template slide is made at its position, or in its
window. -/
theorem Sole.place_of_mem (sole : Sole deck position template)
    (ordered : windows.Pairwise fun left right => left.stop < right.start) {place : Nat}
    {other : SlideTemplate} (there : deck[place]? = some other) {shown : Instance}
    (member : shown ∈ instancesOf (entriesAt deck windows data other place))
    (slide : shown.slide = template.slide) :
    match windowAt? windows position with
    | some window => place = window.start
    | none => place = position := by
  rcases mem_entriesAt member with ⟨window, inside, first, below⟩ | ⟨free, own⟩
  · obtain ⟨_, _, _, _, inner, among, shows⟩ := mem_windowEntries below
    obtain ⟨_, spot, holds, placed⟩ := position_of_mem_members among
    have same := sole.only spot inner placed ((of_mem_memberEntries shows).1.symm.trans slide)
    rw [← same, windowAt?_of_covers ordered (mem_of_windowAt? inside).1 holds]
    exact first.symm
  · have id : shown.slide = other.slide := by
      rcases own with ⟨_, rfl⟩ | ⟨_, offset, rfl⟩
      · rfl
      · rfl
    have same := sole.only place other there (id.symm.trans slide)
    rw [← same, free]

theorem filter_planEntries (deck : List SlideTemplate) (windows : List Window) (data : Value)
    (slide : Int) :
    (instancesOf (planEntries deck windows data)).filter (·.slide == slide) =
      deck.zipIdx.flatMap fun entry =>
        (instancesOf (entriesAt deck windows data entry.1 entry.2)).filter (·.slide == slide) := by
  rw [instancesOf_planEntries, List.filter_flatMap]

theorem zipIdx_getElem? {α : Type} {items : List α} {place : Nat} {entry : α × Nat}
    (found : items.zipIdx[place]? = some entry) : entry.2 = place ∧ items[place]? = some entry.1 := by
  rw [List.getElem?_zipIdx, Option.map_eq_some_iff] at found
  obtain ⟨item, there, rfl⟩ := found
  exact ⟨Nat.zero_add place, there⟩

/-- Outside the windows a sole template slide makes its own slides only. -/
theorem Sole.made_of_free (sole : Sole deck position template)
    (ordered : windows.Pairwise fun left right => left.stop < right.start)
    (free : windowAt? windows position = none) (data : Value) :
    (instancesOf (planEntries deck windows data)).filter (·.slide == template.slide) =
      instancesOf (entriesAt deck windows data template position) := by
  have there : deck.zipIdx[position]? = some (template, position) := by
    rw [List.getElem?_zipIdx, sole.there, Option.map_some, Nat.zero_add]
  rw [filter_planEntries, flatMap_eq_of_only _ there, filter_slide_eq_self (slide_of_free free)]
  rintro place ⟨other, number⟩ found apart
  obtain ⟨rfl, here⟩ := zipIdx_getElem? found
  rw [List.filter_eq_nil_iff]
  intro shown member same
  have spot := sole.place_of_mem ordered here member (beq_iff_eq.1 same)
  rw [free] at spot
  exact apart spot

def Window.visited (window : Window) (data : Value) : List (Value × Nat) :=
  (itemsAt data window.collection).zipIdx.filter fun entry => window.visits entry.2

theorem members_getElem? {window : Window} (holds : window.covers position = true) :
    ((deck.drop window.start).take (window.stop + 1 - window.start))[position - window.start]? =
      deck[position]? := by
  have bounds := Window.covers_iff.1 holds
  rw [List.getElem?_take, if_pos (by omega), List.getElem?_drop]
  congr 1
  omega

/-- In a window a sole template slide makes what it shows for each visited element. -/
theorem Sole.made_of_inside (sole : Sole deck position template) (kind : template.kind ≠ .cloned)
    (ordered : windows.Pairwise fun left right => left.stop < right.start) {window : Window}
    (inside : windowAt? windows position = some window) (data : Value) :
    (instancesOf (planEntries deck windows data)).filter (·.slide == template.slide) =
      (window.visited data).flatMap fun entry =>
        instancesOf (memberEntries window data entry.2 entry.1 template) := by
  obtain ⟨known, holds⟩ := mem_of_windowAt? inside
  have bounds := Window.covers_iff.1 holds
  have among := (List.getElem?_eq_some_iff.1 sole.there).1
  have starts : deck[window.start]? = some deck[window.start] := List.getElem?_eq_getElem (by omega)
  have there : deck.zipIdx[window.start]? = some (deck[window.start], window.start) := by
    rw [List.getElem?_zipIdx, starts, Option.map_some, Nat.zero_add]
  have first : windowAt? windows window.start = some window :=
    windowAt?_of_covers ordered known (Window.covers_iff.2 ⟨Nat.le_refl _, window.start_le_stop⟩)
  rw [filter_planEntries, flatMap_eq_of_only _ there]
  · unfold entriesAt
    rw [first]
    dsimp only
    rw [if_pos rfl, instancesOf_windowEntries, List.filter_flatMap]
    apply List.flatMap_congr
    intro entry _
    unfold Window.members
    rw [List.filter_flatMap, flatMap_filter]
    have here := (members_getElem? holds).trans sole.there
    rw [flatMap_eq_of_only _ here]
    · rw [if_pos (bne_iff_ne.2 kind)]
      exact filter_slide_eq_self fun shown member => (of_mem_memberEntries member).1
    · intro place other found apart
      split
      · rw [List.filter_eq_nil_iff]
        intro shown member same
        rw [List.getElem?_take] at found
        split at found
        · rw [List.getElem?_drop] at found
          have spot := sole.only _ other found
            ((of_mem_memberEntries member).1.symm.trans (beq_iff_eq.1 same))
          omega
        · cases found
      · rfl
  · rintro place ⟨other, number⟩ found apart
    obtain ⟨rfl, here⟩ := zipIdx_getElem? found
    rw [List.filter_eq_nil_iff]
    intro shown member same
    have spot := sole.place_of_mem ordered here member (beq_iff_eq.1 same)
    rw [inside] at spot
    exact apart spot

section Plans

variable {plan : SlidePlan} {instances : List Instance} {slide : Int}

/-- Views of the slides made from a template slide that do not depend on their positions. -/
theorem map_madeFrom {α : Type} (planned : plan.instances = Instance.numbered instances)
    (view : Instance → α) (apart : ∀ shown position, view { shown with position } = view shown) :
    (plan.madeFrom slide).map view = (instances.filter (·.slide == slide)).map view := by
  have both := map_numbered (fun shown => (shown.slide, view shown))
    (fun shown position => Prod.ext rfl (apart shown position)) instances
  have kept := congrArg (fun views => (views.filter (·.1 == slide)).map Prod.snd) both
  unfold SlidePlan.madeFrom
  rw [planned]
  simpa only [List.filter_map, List.map_map, Function.comp_def] using kept

theorem mem_madeFrom (planned : plan.instances = Instance.numbered instances) {shown : Instance}
    (member : shown ∈ plan.madeFrom slide) :
    ∃ original ∈ instances.filter (·.slide == slide), ∃ number,
      shown = { original with position := number } := by
  obtain ⟨among, same⟩ := List.mem_filter.1 member
  rw [planned] at among
  obtain ⟨original, inside, number, rfl⟩ := mem_numbered among
  exact ⟨original, List.mem_filter.2 ⟨inside, same⟩, number, rfl⟩

end Plans

theorem SlideTemplate.OfParts.exists_build (built : template.OfParts) :
    ∃ analysis, SlideTemplate.build template.slide template.position template.directives
      template.expressions = .ok analysis ∧ analysis.template = template := by
  unfold SlideTemplate.OfParts at built
  cases made : SlideTemplate.build template.slide template.position template.directives
      template.expressions with
  | error error =>
    rw [made] at built
    cases built
  | ok analysis =>
    rw [made] at built
    exact ⟨analysis, rfl, Except.ok.inj built⟩

section Building

variable {slide position : Int} {directives : List Directive} {expressions : List Expression}
  {analysis : Analysis}

theorem ofParts_of_build
    (built : SlideTemplate.build slide position directives expressions = .ok analysis) :
    analysis.template.OfParts := by
  have made := built
  unfold SlideTemplate.build at made
  obtain ⟨warnings, _, further⟩ := exists_of_bind_eq_ok made
  obtain ⟨numeral, _, last⟩ := exists_of_bind_eq_ok further
  cases last
  unfold SlideTemplate.OfParts
  dsimp only
  rw [built]
  rfl

/-- A slide whose notes repeat it over a collection is not shown just once. -/
theorem slideKind_ne_static {path : String} {max offset : Nat}
    (member : .foreach path max offset ∈ directives) :
    slideKind directives expressions ≠ .static := by
  unfold slideKind
  dsimp only
  split
  · decide
  · split
    · decide
    · rename_i silent
      simp only [Bool.or_eq_true, not_or, Bool.not_eq_true] at silent
      exact absurd rfl (List.any_eq_false.1 silent.1 _ member)

theorem collection_of_build {path : String} {max offset : Nat}
    (built : SlideTemplate.build slide position directives expressions = .ok analysis)
    (kind : slideKind directives expressions ≠ .static)
    (asked : firstForeach? directives = some (path, max, offset)) :
    analysis.template.kind ≠ .static ∧ analysis.template.collection = some path ∧
      analysis.template.offset = offset := by
  unfold SlideTemplate.build at built
  rw [asked] at built
  obtain ⟨warnings, _, further⟩ := exists_of_bind_eq_ok built
  obtain ⟨numeral, _, made⟩ := exists_of_bind_eq_ok further
  cases made
  exact ⟨kind, if_neg kind, rfl⟩

end Building

theorem mem_of_firstForeach? {directives : List Directive} {path : String} {max offset : Nat}
    (asked : firstForeach? directives = some (path, max, offset)) :
    .foreach path max offset ∈ directives := by
  obtain ⟨directive, member, reads⟩ := List.exists_of_findSome?_eq_some asked
  rcases directive with ⟨_, _, _⟩ | ⟨_, _⟩ | ⟨_, _⟩
  · cases reads
    exact member
  · cases reads
  · cases reads

/-- The first `#foreach` of a slide gives it its collection and its start. -/
theorem SlideTemplate.OfParts.asked (built : template.OfParts) {path : String} {max offset : Nat}
    (asked : firstForeach? template.directives = some (path, max, offset)) :
    template.kind ≠ .static ∧ template.collection = some path ∧ template.offset = offset := by
  obtain ⟨analysis, made, same⟩ := built.exists_build
  have settled := collection_of_build made (slideKind_ne_static (mem_of_firstForeach? asked)) asked
  rwa [same] at settled

theorem SlideTemplate.OfParts.at (built : template.OfParts) (position : Int) :
    SlideTemplate.OfParts { template with position } := by
  obtain ⟨analysis, made, same⟩ := built.exists_build
  unfold SlideTemplate.OfParts
  dsimp only
  rw [build_at] at made ⊢
  cases first : SlideTemplate.build template.slide 0 template.directives template.expressions with
  | error error =>
    rw [first] at made
    cases made
  | ok start =>
    rw [first] at made
    cases made
    rw [← same]
    rfl

theorem ofParts_of_expandTemplates {table : AliasTable} {templates : List SlideTemplate}
    {expanded : List SlideTemplate × List Warning}
    (made : table.expandTemplates templates = .ok expanded) :
    ∀ template ∈ expanded.1, template.OfParts := by
  induction templates generalizing expanded with
  | nil =>
    cases made
    exact fun template member => absurd member List.not_mem_nil
  | cons first rest ih =>
    unfold AliasTable.expandTemplates at made
    obtain ⟨analysis, here, more⟩ := exists_of_bind_eq_ok made
    obtain ⟨others, behind, last⟩ := exists_of_bind_eq_ok more
    cases last
    unfold AliasTable.expandTemplate at here
    obtain ⟨directives, _, built⟩ := exists_of_bind_eq_ok here
    exact List.forall_mem_cons.2 ⟨ofParts_of_build built, ih behind⟩

/-- The deck of analyzed templates is made of analyzed templates. -/
theorem ofParts_of_mem_deck {templates : List SlideTemplate}
    (analyzed : ∀ template ∈ templates, template.OfParts)
    (expanded : expandedDeck templates = .ok deck) : ∀ template ∈ deck, template.OfParts := by
  unfold expandedDeck at expanded
  obtain ⟨aliases, _, further⟩ := exists_of_bind_eq_ok expanded
  split at further
  · cases further
    intro template member
    obtain ⟨original, among, position, rfl⟩ := mem_inOrder member
    exact (analyzed original among).at position
  · obtain ⟨expanded, done, last⟩ := exists_of_bind_eq_ok further
    cases last
    exact ofParts_of_expandTemplates done

end DeckBinding
