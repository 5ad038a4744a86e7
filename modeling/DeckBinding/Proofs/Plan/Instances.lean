import DeckBinding.Plan.Basic
import DeckBinding.Proofs.Plan.Windows

set_option autoImplicit false

namespace DeckBinding

def instancesOf (entries : List PlanEntry) : List Instance :=
  entries.filterMap PlanEntry.instance?

/-- The items a path leads to from a value; none if it leads to no collection. -/
def itemsAt (value : Value) (path : String) : List Value :=
  (collectionItems value path).toOption.getD []

namespace SlideTemplate

/-- The slide of the result for the items of a collection from an offset on. -/
def pageAt (template : SlideTemplate) (context : ContextPath)
    (parentIndex : Option Int) (offset : Nat) : Instance where
  slide := template.slide
  position := 0
  context := context
  offset := (offset : Int)
  parentIndex := parentIndex
  empty := false
  collection := template.collection

/-- The slides of the result for the items of a collection that the template shows. -/
def shownPages (template : SlideTemplate) (context : ContextPath) (parentIndex : Option Int)
    (items : Nat) : List Instance :=
  (List.range (pageCount (items - template.offset) template.itemsPerSlide)).map fun page =>
    template.pageAt context parentIndex (template.offset + page * template.itemsPerSlide)

/-- The slide of the result that stands in for a collection below an element. -/
def blankAt (template : SlideTemplate) (context : ContextPath) : Instance :=
  { template.pageAt context (context.getLast?.map (·.index)) 0 with empty := true }

/-- The slide of the result for an element of a window, when the template shows nothing below it. -/
def onceAt (template : SlideTemplate) (collection : String) (index : Nat) : Instance where
  slide := template.slide
  position := 0
  context := [⟨collection, (index : Int)⟩]
  offset := (index : Int)
  parentIndex := none
  empty := false
  collection := some collection

/-- The slide of the result for a template that shows no collection. -/
def alone (template : SlideTemplate) : Instance :=
  { template.pageAt [] none 0 with collection := none }

end SlideTemplate

section Lists

variable {α : Type}

theorem instancesOf_flatMap (items : List α) (expand : α → List PlanEntry) :
    instancesOf (items.flatMap expand) = items.flatMap fun item => instancesOf (expand item) :=
  List.filterMap_flatMap

theorem flatMap_filter {β : Type} (items : List α) (keep : α → Bool) (expand : α → List β) :
    (items.filter keep).flatMap expand =
      items.flatMap fun item => if keep item then expand item else [] := by
  induction items with
  | nil => rfl
  | cons item rest ih =>
    rw [List.filter_cons, List.flatMap_cons, ← ih]
    by_cases kept : keep item = true
    · simp [kept]
    · simp [kept]

theorem instancesOf_map_shown (items : List α) (slide : α → Instance) :
    instancesOf (items.map fun item => .shown (slide item)) = items.map slide := by
  unfold instancesOf
  rw [List.filterMap_map]
  exact congrFun (List.filterMap_eq_map (f := slide)) items

end Lists

variable {template : SlideTemplate} {data element : Value} {context : ContextPath}

theorem instancesOf_withItems (value : Value) (path : String) (slide : Int)
    (expand : List Value → List PlanEntry) :
    instancesOf (withItems value path slide expand) = instancesOf (expand (itemsAt value path)) := by
  unfold withItems itemsAt
  cases collectionItems value path with
  | ok items => rfl
  | error problem => rfl

theorem instancesOf_flatEntries (template : SlideTemplate) (data : Value) (context : ContextPath) :
    instancesOf (flatEntries template data context) =
      template.shownPages context none (itemsAt data (template.collection.getD "")).length := by
  unfold flatEntries
  rw [instancesOf_withItems]
  exact instancesOf_map_shown _ fun page =>
    template.pageAt context none (template.offset + page * template.itemsPerSlide)

theorem instancesOf_leafEntries (template : SlideTemplate) (context : ContextPath)
    (items : List Value) :
    instancesOf (leafEntries template context items) =
      if items.length ≤ template.offset then [template.blankAt context]
      else template.shownPages context (context.getLast?.map (·.index)) items.length := by
  unfold leafEntries
  dsimp only
  split
  · rfl
  · exact instancesOf_map_shown _ fun page => template.pageAt context
      (context.getLast?.map (·.index)) (template.offset + page * template.itemsPerSlide)

theorem instancesOf_nestedEntries_single (template : SlideTemplate) (context : ContextPath)
    (element : Value) (chunk : String) :
    instancesOf (nestedEntries template context element [chunk]) =
      instancesOf (leafEntries template context (itemsAt element chunk)) := by
  rw [nestedEntries, instancesOf_withItems]

theorem instancesOf_nestedEntries_cons (template : SlideTemplate) (context : ContextPath)
    (element : Value) (chunk next : String) (rest : List String) :
    instancesOf (nestedEntries template context element (chunk :: next :: rest)) =
      (itemsAt element chunk).zipIdx.flatMap fun entry =>
        instancesOf (nestedEntries template (context ++ [⟨chunk, (entry.2 : Int)⟩]) entry.1
          (next :: rest)) := by
  rw [nestedEntries, instancesOf_withItems, instancesOf_flatMap]
  · simp

/-- What a template slide shows for an element of its window: the element alone, a collection below
it, or another collection. -/
theorem instancesOf_memberEntries (window : Window) (data : Value) (index : Nat) (element : Value)
    (template : SlideTemplate) :
    instancesOf (memberEntries window data index element template) =
        [template.onceAt window.collection index] ∨
      (∃ chunk rest, template.chunks = window.collection :: chunk :: rest ∧
        instancesOf (memberEntries window data index element template) =
          instancesOf (nestedEntries template [⟨window.collection, (index : Int)⟩] element
            (chunk :: rest))) ∨
      instancesOf (memberEntries window data index element template) =
        instancesOf (flatEntries template data [⟨window.collection, (index : Int)⟩]) := by
  unfold memberEntries
  cases parts : template.chunks with
  | nil => exact .inl rfl
  | cons first rest =>
    dsimp only
    by_cases once : template.kind = .static ∨ (rest = [] ∧ first = window.collection)
    · rw [if_pos once]
      exact .inl rfl
    · rw [if_neg once]
      by_cases below : first = window.collection
      · subst below
        rw [if_pos rfl]
        cases rest with
        | nil => exact absurd (.inr ⟨rfl, rfl⟩) once
        | cons chunk rest => exact .inr (.inl ⟨chunk, rest, rfl, rfl⟩)
      · rw [if_neg below]
        exact .inr (.inr rfl)

/-- A template slide over the collection of its window shows the element. -/
theorem memberEntries_single {window : Window} (single : template.chunks = [window.collection])
    (data : Value) (index : Nat) (element : Value) :
    memberEntries window data index element template =
      [.shown (template.onceAt window.collection index)] := by
  unfold memberEntries
  rw [single]
  dsimp only
  rw [if_pos (.inr ⟨rfl, rfl⟩)]
  rfl

theorem instancesOf_windowEntries (templates : List SlideTemplate) (window : Window) (data : Value) :
    instancesOf (windowEntries templates window data) =
      ((itemsAt data window.collection).zipIdx.filter fun entry => window.visits entry.2).flatMap
        fun entry => (window.members templates).flatMap fun template =>
          instancesOf (memberEntries window data entry.2 entry.1 template) := by
  unfold windowEntries
  rw [instancesOf_withItems, instancesOf_flatMap]
  simp only [instancesOf_flatMap]

theorem instancesOf_planEntries (templates : List SlideTemplate) (windows : List Window)
    (data : Value) :
    instancesOf (planEntries templates windows data) =
      templates.zipIdx.flatMap fun entry =>
        instancesOf (entriesAt templates windows data entry.1 entry.2) := by
  unfold planEntries
  exact instancesOf_flatMap _ _

/-- The element a context segment stands for: the one at its index, in the collection that the path
of its name leads to. -/
def ContextSegment.element? (segment : ContextSegment) (value : Value) : Option Value :=
  match walk value segment.name.toList with
  | .ok (some collection) => collection.item? segment.index
  | _ => none

def ContextPath.follow (value : Value) : ContextPath → Option Value
  | [] => some value
  | segment :: rest => (segment.element? value).bind fun element => follow element rest

theorem ContextPath.follow_append (value : Value) (front back : ContextPath) :
    follow value (front ++ back) =
      (follow value front).bind fun element => follow element back := by
  induction front generalizing value with
  | nil => rfl
  | cons segment rest ih =>
    rw [List.cons_append, follow, follow]
    cases segment.element? value with
    | none => rfl
    | some element => exact ih element

/-- The elements of the items that a path leads to are the elements of the segments with its
name. -/
theorem element?_natCast (value : Value) (name : String) (index : Nat) :
    ContextSegment.element? ⟨name, (index : Int)⟩ value = (itemsAt value name)[index]? := by
  unfold ContextSegment.element? itemsAt collectionItems
  dsimp only
  cases walk value name.toList with
  | error failure => rfl
  | ok found =>
    cases found with
    | none => rfl
    | some collection =>
      dsimp only
      rw [Value.item?_natCast]
      cases collection <;> rfl

theorem ContextPath.follow_singleton (value : Value) (name : String) (index : Nat) :
    follow value [⟨name, (index : Int)⟩] = (itemsAt value name)[index]? := by
  rw [follow, element?_natCast]
  exact Option.bind_fun_some _

/-- A context that leads from an element of a window to the one below which the last collection of a
template stands. -/
structure LeadsTo (data : Value) (window : Window) (template : SlideTemplate) (context : ContextPath)
    (chunk : String) (element : Value) : Prop where
  starts : ∃ index rest, context = ⟨window.collection, index⟩ :: rest
  chunks : template.chunks = context.map (·.name) ++ [chunk]
  reached : context.follow data = some element

/-- How the template slide at a position makes a slide of the result. -/
inductive Origin (windows : List Window) (data : Value) (position : Nat) (template : SlideTemplate) :
    Instance → Prop where
  /-- It stands in no window, and shows no collection. -/
  | alone (free : windowAt? windows position = none) (kind : template.kind = .static) :
      Origin windows data position template template.alone
  /-- It stands in no window, and shows a page of its collection. -/
  | page (free : windowAt? windows position = none) (kind : template.kind = .source) (offset : Nat) :
      Origin windows data position template (template.pageAt [] none offset)
  /-- It shows an element of its window. -/
  | element {window : Window} {index : Nat} (inside : windowAt? windows position = some window)
      (kind : template.kind ≠ .cloned)
      (reached : (ContextPath.follow data [⟨window.collection, (index : Int)⟩]).isSome) :
      Origin windows data position template (template.onceAt window.collection index)
  /-- It shows a page of a collection that is not below the element of its window. -/
  | pageBeside {window : Window} {index : Nat} (inside : windowAt? windows position = some window)
      (kind : template.kind ≠ .cloned)
      (reached : (ContextPath.follow data [⟨window.collection, (index : Int)⟩]).isSome)
      (offset : Nat) :
      Origin windows data position template
        (template.pageAt [⟨window.collection, (index : Int)⟩] none offset)
  /-- It shows a page of a collection below an element of its window. -/
  | pageBelow {window : Window} {context : ContextPath} {chunk : String} {element : Value}
      (inside : windowAt? windows position = some window) (kind : template.kind ≠ .cloned)
      (leads : LeadsTo data window template context chunk element) (offset : Nat) :
      Origin windows data position template
        (template.pageAt context (context.getLast?.map (·.index)) offset)
  /-- It stands in for a collection below an element of its window that has nothing to show. -/
  | blank {window : Window} {context : ContextPath} {chunk : String} {element : Value}
      (inside : windowAt? windows position = some window) (kind : template.kind ≠ .cloned)
      (leads : LeadsTo data window template context chunk element)
      (few : (itemsAt element chunk).length ≤ template.offset) :
      Origin windows data position template (template.blankAt context)

/-- Pages of a collection below an element, or the slide that stands in for it. -/
theorem mem_leafEntries {items : List Value} {shown : Instance}
    (member : shown ∈ instancesOf (leafEntries template context items)) :
    (items.length ≤ template.offset ∧ shown = template.blankAt context) ∨
      ∃ offset, shown = template.pageAt context (context.getLast?.map (·.index)) offset := by
  rw [instancesOf_leafEntries] at member
  split at member
  · rename_i few
    exact .inl ⟨few, List.mem_singleton.1 member⟩
  · obtain ⟨page, _, rfl⟩ := List.mem_map.1 member
    exact .inr ⟨_, rfl⟩

/-- What a nested template shows below an element belongs to a last collection further down. -/
theorem mem_nestedEntries {chunks : List String} {shown : Instance}
    (member : shown ∈ instancesOf (nestedEntries template context element chunks)) :
    ∃ (more : ContextPath) (chunk : String) (inner : Value),
      chunks = more.map (·.name) ++ [chunk] ∧ more.follow element = some inner ∧
      shown ∈ instancesOf (leafEntries template (context ++ more) (itemsAt inner chunk)) := by
  induction chunks generalizing context element with
  | nil => simp [nestedEntries, instancesOf] at member
  | cons chunk rest ih =>
    cases rest with
    | nil =>
      rw [instancesOf_nestedEntries_single] at member
      exact ⟨[], chunk, element, rfl, rfl, by rwa [List.append_nil]⟩
    | cons next rest =>
      rw [instancesOf_nestedEntries_cons] at member
      obtain ⟨⟨item, index⟩, among, deeper⟩ := List.mem_flatMap.1 member
      obtain ⟨more, last, inner, chunks, reached, shows⟩ := ih deeper
      have here : (itemsAt element chunk)[index]? = some item := List.mem_zipIdx_iff_getElem?.1 among
      refine ⟨⟨chunk, (index : Int)⟩ :: more, last, inner, ?_, ?_, ?_⟩
      · rw [List.map_cons, List.cons_append, ← chunks]
      · rw [ContextPath.follow, element?_natCast, here]
        exact reached
      · rwa [List.append_assoc] at shows

theorem position_of_mem_members {window : Window} {templates : List SlideTemplate}
    (member : template ∈ window.members templates) :
    template.kind ≠ .cloned ∧
      ∃ position, window.covers position = true ∧ templates[position]? = some template := by
  obtain ⟨among, kind⟩ := List.mem_filter.1 member
  obtain ⟨number, there⟩ := List.mem_iff_getElem?.1 among
  rw [List.getElem?_take] at there
  split at there
  · rename_i inside
    rw [List.getElem?_drop] at there
    refine ⟨bne_iff_ne.1 kind, window.start + number, ?_, there⟩
    rw [Window.covers_iff]
    omega
  · cases there

theorem mem_windowEntries {window : Window} {templates : List SlideTemplate} {shown : Instance}
    (member : shown ∈ instancesOf (windowEntries templates window data)) :
    ∃ index element, (itemsAt data window.collection)[index]? = some element ∧
      window.visits index = true ∧ ∃ template ∈ window.members templates,
        shown ∈ instancesOf (memberEntries window data index element template) := by
  rw [instancesOf_windowEntries] at member
  obtain ⟨⟨element, index⟩, among, below⟩ := List.mem_flatMap.1 member
  obtain ⟨template, inside, shows⟩ := List.mem_flatMap.1 below
  obtain ⟨there, visited⟩ := List.mem_filter.1 among
  exact ⟨index, element, List.mem_zipIdx_iff_getElem?.1 there, visited, template, inside, shows⟩

variable {windows : List Window} {templates : List SlideTemplate} {position : Nat} {shown : Instance}

/-- The template slide at a position makes the slides of its window, when it is the first one of it,
or its own. -/
theorem mem_entriesAt
    (member : shown ∈ instancesOf (entriesAt templates windows data template position)) :
    (∃ window, windowAt? windows position = some window ∧ window.start = position ∧
        shown ∈ instancesOf (windowEntries templates window data)) ∨
      windowAt? windows position = none ∧
        (template.kind = .static ∧ shown = template.alone ∨
          template.kind = .source ∧ ∃ offset, shown = template.pageAt [] none offset) := by
  unfold entriesAt at member
  split at member
  · rename_i window inside
    split at member
    · rename_i first
      exact .inl ⟨window, inside, first, member⟩
    · cases member
  · rename_i free
    split at member
    · rename_i kind
      exact .inr ⟨free, .inl ⟨kind, List.mem_singleton.1 member⟩⟩
    · rename_i kind
      rw [instancesOf_flatEntries] at member
      obtain ⟨page, _, rfl⟩ := List.mem_map.1 member
      exact .inr ⟨free, .inr ⟨kind, _, rfl⟩⟩
    · cases member

theorem origin_of_mem_memberEntries {window : Window} {index : Nat}
    (inside : windowAt? windows position = some window) (kind : template.kind ≠ .cloned)
    (there : (itemsAt data window.collection)[index]? = some element)
    (member : shown ∈ instancesOf (memberEntries window data index element template)) :
    Origin windows data position template shown := by
  have step : ContextPath.follow data [⟨window.collection, (index : Int)⟩] = some element := by
    rw [ContextPath.follow_singleton, there]
  rcases instancesOf_memberEntries window data index element template with
    once | ⟨chunk, rest, chunks, nested⟩ | beside
  · rw [once] at member
    rw [List.mem_singleton.1 member]
    exact .element inside kind (Option.isSome_of_eq_some step)
  · rw [nested] at member
    obtain ⟨more, last, inner, parts, reached, leaf⟩ := mem_nestedEntries member
    have leads : LeadsTo data window template ([⟨window.collection, (index : Int)⟩] ++ more) last
        inner := by
      refine ⟨⟨_, more, rfl⟩, ?_, ?_⟩
      · rw [chunks, parts]
        rfl
      · rw [ContextPath.follow_append, step]
        exact reached
    rcases mem_leafEntries leaf with ⟨few, rfl⟩ | ⟨offset, rfl⟩
    · exact .blank inside kind leads few
    · exact .pageBelow inside kind leads offset
  · rw [beside, instancesOf_flatEntries] at member
    obtain ⟨page, _, rfl⟩ := List.mem_map.1 member
    exact .pageBeside inside kind (Option.isSome_of_eq_some step) _

/-- Every slide of the result is made by a template slide. -/
theorem exists_origin (ordered : windows.Pairwise fun left right => left.stop < right.start)
    (member : shown ∈ instancesOf (planEntries templates windows data)) :
    ∃ position template, templates[position]? = some template ∧
      Origin windows data position template shown := by
  rw [instancesOf_planEntries] at member
  obtain ⟨⟨template, position⟩, among, shows⟩ := List.mem_flatMap.1 member
  have there : templates[position]? = some template := List.mem_zipIdx_iff_getElem?.1 among
  rcases mem_entriesAt shows with ⟨window, inside, _, below⟩ | ⟨free, own⟩
  · obtain ⟨index, element, found, _, other, member, shows⟩ := mem_windowEntries below
    obtain ⟨kind, place, holds, placed⟩ := position_of_mem_members member
    have same := windowAt?_of_covers ordered (mem_of_windowAt? inside).1 holds
    exact ⟨place, other, placed, origin_of_mem_memberEntries same kind found shows⟩
  · rcases own with ⟨kind, rfl⟩ | ⟨kind, offset, rfl⟩
    · exact ⟨position, template, there, .alone free kind⟩
    · exact ⟨position, template, there, .page free kind offset⟩

/-- A slide outside the windows stands below no element, and one inside a window below an element of
the window's collection. -/
theorem Origin.head_context (origin : Origin windows data position template shown) :
    shown.context.head?.map (·.name) = (windowAt? windows position).map (·.collection) := by
  cases origin with
  | alone free => rw [free]; rfl
  | page free => rw [free]; rfl
  | element inside => rw [inside]; rfl
  | pageBeside inside => rw [inside]; rfl
  | pageBelow inside _ leads offset =>
    obtain ⟨index, rest, same⟩ := leads.starts
    rw [inside, same]
    rfl
  | blank inside _ leads =>
    obtain ⟨index, rest, same⟩ := leads.starts
    rw [inside, same]
    rfl

theorem Origin.slide (origin : Origin windows data position template shown) :
    shown.slide = template.slide := by
  cases origin <;> rfl

theorem Origin.kind (origin : Origin windows data position template shown) :
    template.kind ≠ .cloned := by
  cases origin with
  | alone _ kind => rw [kind]; decide
  | page _ kind => rw [kind]; decide
  | element _ kind => exact kind
  | pageBeside _ kind => exact kind
  | pageBelow _ kind => exact kind
  | blank _ kind => exact kind

/-- Outside the windows a template slide that shows no collection makes one slide only. -/
theorem Origin.eq_alone (origin : Origin windows data position template shown)
    (free : windowAt? windows position = none) (kind : template.kind = .static) :
    shown = template.alone := by
  cases origin with
  | alone => rfl
  | page _ source =>
    rw [kind] at source
    cases source
  | element inside =>
    rw [free] at inside
    cases inside
  | pageBeside inside =>
    rw [free] at inside
    cases inside
  | pageBelow inside =>
    rw [free] at inside
    cases inside
  | blank inside =>
    rw [free] at inside
    cases inside

end DeckBinding
