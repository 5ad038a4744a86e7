import DeckBinding.Proofs.Plan.RangeEnds
import DeckBinding.Proofs.Template.Parsed

set_option autoImplicit false

/-! A planner that stops where a step of it cannot be taken: the first part of a collection that has none,
the last element of an empty context, a page without room, a range that does not advance, a position without
a slide, or a path that cannot be read to its end. It keeps record of what it looks up and shows. On parsed
templates it is never stopped, and shows and notes what the planner does. -/

namespace DeckBinding

open DeckBinding.Number DeckBinding.Text

/-- What a planner does, in order: it looks a collection up below a value, or it shows a slide. -/
inductive PlanStep where
  | looked (value : Value) (path : String) (slide : Int)
  | shown (slide : Instance)

namespace PlanStep

def instance? : PlanStep → Option Instance
  | .looked .. => none
  | .shown slide => some slide

/-- The problem of a step: what it looked up is no collection. -/
def diagnostic? : PlanStep → Option Diagnostic
  | .looked value path slide =>
    match collectionItems value path with
    | .ok _ => none
    | .error problem => some ⟨problem, some slide⟩
  | .shown _ => none

def left? (step : PlanStep) : Option PlanEntry :=
  (step.instance?.map .shown).or (step.diagnostic?.map .noted)

/-- The steps of a plan show what its entries show. -/
theorem instances_of_entries (steps : List PlanStep) :
    (steps.filterMap left?).filterMap PlanEntry.instance? = steps.filterMap instance? := by
  rw [List.filterMap_filterMap]
  congr 1
  funext step
  cases step with
  | looked value path slide =>
    dsimp only [left?, instance?, diagnostic?]
    cases collectionItems value path <;> rfl
  | shown slide => rfl

/-- The steps of a plan note what its entries note. -/
theorem diagnostics_of_entries (steps : List PlanStep) :
    (steps.filterMap left?).filterMap PlanEntry.diagnostic? = steps.filterMap diagnostic? := by
  rw [List.filterMap_filterMap]
  congr 1
  funext step
  cases step with
  | looked value path slide =>
    dsimp only [left?, instance?, diagnostic?]
    cases collectionItems value path <;> rfl
  | shown slide => rfl

end PlanStep

theorem kind_of_collectionItems {value : Value} {path : String} {problem : Problem}
    (refused : collectionItems value path = .error problem) : problem.kind = .planning := by
  unfold collectionItems at refused
  split at refused
  · cases refused
    rfl
  · cases refused
    rfl
  · cases refused
    rfl
  · split at refused
    · cases refused
    · cases refused
      rfl

/-- The windows of the ranges that the notes mark. The slide that begins a range is looked for at
its position. -/
def rangeWindows? (templates : List SlideTemplate) (free position : Nat) :
    List SlideTemplate → Option (List Window × List Diagnostic)
  | [] => some ([], [])
  | template :: rest =>
    match template.rangeBegin? with
    | none => rangeWindows? templates free (position + 1) rest
    | some path =>
      if position < free then rangeWindows? templates free (position + 1) rest
      else do
        let first ← templates[position]?
        let (window, noted) := rangeWindow first path position (templates.drop (position + 1))
        let (windows, diagnostics) ← rangeWindows? templates (window.stop + 1) (position + 1) rest
        some (window :: windows, noted ++ diagnostics)

/-- Looks backwards for what gives elements of a collection. Each position in front has a slide. -/
def attachment? (templates : List SlideTemplate) (windows : List Window) (collection : String) :
    Nat → Option Attachment
  | 0 => some .alone
  | position + 1 =>
    match windowAt? windows position with
    | some window =>
      some (if !window.explicit && window.collection == collection then .joins position else .alone)
    | none => do
      let template ← templates[position]?
      if template.leads collection then some (.opens position)
      else attachment? templates windows collection position

/-- Gives a slide a window, when it stands in none and needs a context. Its collection has a first
part. -/
def placeInWindow? (templates : List SlideTemplate) (windows : List Window)
    (template : SlideTemplate) (position : Nat) : Option (List Window) :=
  if (windowAt? windows position).isSome || template.kind != .source
      || !(template.usesContext || template.isNested) then some windows
  else do
    let outer ← template.chunks.head?
    match ← attachment? templates windows outer position with
    | .joins member =>
      some (windows.map fun window =>
        if window.covers member then window.extend position else window)
    | .opens parent =>
      if ordered : parent ≤ position then
        some (windows ++ [.forEach parent position outer false ordered])
      else none
    | .alone => some (windows ++ [template.ownWindow position outer])

def findWindows? (templates : List SlideTemplate) : Option (List Window × List Diagnostic) := do
  let (ranges, diagnostics) ← rangeWindows? templates 0 0 templates
  let windows ← templates.zipIdx.foldlM
    (fun windows (template, position) => placeInWindow? templates windows template position) ranges
  some (windows.mergeSort fun left right => left.start ≤ right.start, diagnostics)

def stepsFor? {α : Type} (items : List α) (expand : α → Option (List PlanStep)) :
    Option (List PlanStep) :=
  match items with
  | [] => some []
  | item :: rest => do
    let here ← expand item
    let behind ← stepsFor? rest expand
    some (here ++ behind)

/-- Looks a collection up and goes on with its items; what is no collection has none. -/
def lookUp? (value : Value) (path : String) (slide : Int)
    (expand : List Value → Option (List PlanStep)) : Option (List PlanStep) :=
  match Path.read path.toList with
  | .error (.numeral _) => none
  | _ => do
    let steps ← expand (itemsAt value path)
    some (.looked value path slide :: steps)

/-- The pages that items fill. There is no dividing by a page without room. -/
def pages? (items size : Nat) : Option (List Nat) :=
  if size = 0 then none else some (List.range (pageCount items size))

def flatSteps? (template : SlideTemplate) (data : Value) (context : ContextPath) :
    Option (List PlanStep) := do
  let collection ← template.collection
  lookUp? data collection template.slide fun items => do
    let pages ← pages? (items.length - template.offset) template.itemsPerSlide
    some (pages.map fun page =>
      .shown (template.pageAt context none (template.offset + page * template.itemsPerSlide)))

def leafSteps? (template : SlideTemplate) (context : ContextPath) (items : List Value) :
    Option (List PlanStep) := do
  let parent ← context.getLast?
  if items.length ≤ template.offset then some [.shown (template.blankAt context)]
  else do
    let pages ← pages? (items.length - template.offset) template.itemsPerSlide
    some (pages.map fun page => .shown
      (template.pageAt context (some parent.index) (template.offset + page * template.itemsPerSlide)))

/-- Shows a nested template below an element, for the collections that are left; there is one. -/
def nestedSteps? (template : SlideTemplate) (context : ContextPath) (element : Value) :
    List String → Option (List PlanStep)
  | [] => none
  | [chunk] => lookUp? element chunk template.slide (leafSteps? template context)
  | chunk :: rest =>
    lookUp? element chunk template.slide fun items =>
      stepsFor? items.zipIdx fun (item, index) =>
        nestedSteps? template (context ++ [⟨chunk, index⟩]) item rest

def memberSteps? (window : Window) (data : Value) (index : Nat) (element : Value)
    (template : SlideTemplate) : Option (List PlanStep) :=
  match template.chunks with
  | [] => some [.shown (template.onceAt window.collection index)]
  | chunk :: rest =>
    if template.kind = .static ∨ (rest = [] ∧ chunk = window.collection) then
      some [.shown (template.onceAt window.collection index)]
    else if chunk = window.collection then
      nestedSteps? template [⟨window.collection, index⟩] element rest
    else flatSteps? template data [⟨window.collection, index⟩]

/-- The elements that a window visits. A range does not advance without a step. -/
def Window.elements? (window : Window) (items : List Value) : Option (List (Value × Nat)) :=
  if window.step = 0 then none
  else some (items.zipIdx.filter fun (_, index) => window.visits index)

/-- Shows the members of a window for each element it visits. There is a slide at its start. -/
def windowSteps? (templates : List SlideTemplate) (window : Window) (data : Value) :
    Option (List PlanStep) := do
  let first ← templates[window.start]?
  lookUp? data window.collection first.slide fun items => do
    let elements ← window.elements? items
    stepsFor? elements fun (element, index) =>
      stepsFor? (window.members templates) (memberSteps? window data index element)

def stepsAt? (templates : List SlideTemplate) (windows : List Window) (data : Value) (position : Nat) :
    Option (List PlanStep) := do
  let template ← templates[position]?
  match windowAt? windows position with
  | some window => if window.start = position then windowSteps? templates window data else some []
  | none =>
    match template.kind with
    | .static => some [.shown template.alone]
    | .source => flatSteps? template data []
    | .cloned => some []

def planSteps? (templates : List SlideTemplate) (windows : List Window) (data : Value) :
    Option (List PlanStep) :=
  stepsFor? (List.range templates.length) (stepsAt? templates windows data)

section Finding

variable {templates rest : List SlideTemplate} {windows : List Window} {position : Nat}

theorem rangeWindows?_eq (free : Nat) (behind : templates.drop position = rest) :
    rangeWindows? templates free position rest = some (rangeWindows free position rest) := by
  induction rest generalizing free position with
  | nil => rfl
  | cons template rest ih =>
    obtain ⟨there, further⟩ := getElem?_of_drop behind
    rw [rangeWindows?, rangeWindows]
    cases template.rangeBegin? with
    | none => exact ih free further
    | some path =>
      by_cases taken : position < free
      · simpa only [if_pos taken] using ih free further
      · dsimp only
        rw [if_neg taken, if_neg taken, there, further]
        dsimp only [bind, Option.bind]
        rw [ih _ further]

theorem attachment?_eq (windows : List Window) (collection : String)
    (inside : position ≤ templates.length) :
    attachment? templates windows collection position =
      some (attachment templates windows collection position) := by
  induction position with
  | zero => rfl
  | succ position ih =>
    rw [attachment?, attachment]
    cases windowAt? windows position with
    | some window => rfl
    | none =>
      rw [List.getElem?_eq_getElem inside]
      dsimp only [bind, Option.bind]
      by_cases leads : templates[position].leads collection = true
      · rw [if_pos leads, if_pos leads]
      · rw [if_neg leads, if_neg leads]
        exact ih (Nat.le_of_succ_le inside)

/-- A slide is given its window when the collection of slides that are shown for items has a first
part. -/
theorem placeInWindow?_eq (windows : List Window) {template : SlideTemplate}
    (sourced : template.kind = .source → template.chunks ≠ []) (inside : position ≤ templates.length) :
    placeInWindow? templates windows template position =
      some (placeInWindow templates windows template position) := by
  unfold placeInWindow? placeInWindow
  split
  · rfl
  · rename_i unsettled
    have first : template.chunks.head? = some (template.chunks.headD "") := by
      obtain ⟨outer, rest, chunks⟩ :=
        List.exists_cons_of_ne_nil (sourced (not_settled_iff.1 unsettled).2.1)
      rw [chunks]
      rfl
    have attached := attachment?_eq windows (template.chunks.headD "") inside
    rw [first]
    symm
    dsimp only [Option.bind_eq_bind, Option.bind_some]
    split
    · rename_i member found
      rw [attached.trans (congrArg some found)]
      rfl
    · rename_i parent found
      rw [attached.trans (congrArg some found), Option.bind_some]
      dsimp only
      rw [dif_pos (Nat.le_of_lt (lt_of_attachment_opens found))]
    · rename_i found
      rw [attached.trans (congrArg some found)]
      rfl

theorem foldlM_eq_some {α β : Type} {items : List α} {step? : β → α → Option β} {step : β → α → β}
    (each : ∀ item ∈ items, ∀ state, step? state item = some (step state item)) (state : β) :
    items.foldlM step? state = some (items.foldl step state) := by
  induction items generalizing state with
  | nil => rfl
  | cons item rest ih =>
    rw [List.foldlM_cons, each item List.mem_cons_self state]
    exact ih (fun other member => each other (List.mem_cons_of_mem _ member)) (step state item)

/-- The windows are found when the collection of each slide that is shown for items has a first
part. -/
theorem findWindows?_eq (sourced : ∀ template ∈ templates, template.kind = .source → template.chunks ≠ []) :
    findWindows? templates = some (findWindows templates) := by
  have placed := @foldlM_eq_some _ _ templates.zipIdx
    (fun windows entry => placeInWindow? templates windows entry.1 entry.2)
    (fun windows entry => placeInWindow templates windows entry.1 entry.2)
    (fun entry member windows => placeInWindow?_eq windows
      (sourced entry.1 (List.fst_mem_of_mem_zipIdx member))
      (Nat.le_of_lt (List.snd_lt_of_mem_zipIdx member)))
    (rangeWindows 0 0 templates).1
  have ranges := @rangeWindows?_eq templates templates 0 0 rfl
  unfold findWindows? findWindows
  rw [ranges]
  dsimp only [bind, Option.bind] at placed ⊢
  rw [placed]

end Finding

/-- Steps that are taken and make some entries. -/
def Gives (steps? : Option (List PlanStep)) (entries : List PlanEntry) : Prop :=
  ∃ steps, steps? = some steps ∧ steps.filterMap PlanStep.left? = entries

namespace Gives

theorem nil : Gives (some []) [] :=
  ⟨[], rfl, rfl⟩

theorem shown {α : Type} (items : List α) (slide : α → Instance) :
    Gives (some (items.map fun item => .shown (slide item)))
      (items.map fun item => .shown (slide item)) := by
  refine ⟨_, rfl, ?_⟩
  rw [List.filterMap_map, ← List.filterMap_eq_map]
  rfl

theorem once (slide : Instance) : Gives (some [.shown slide]) [.shown slide] :=
  ⟨_, rfl, rfl⟩

theorem stepsFor {α : Type} {items : List α} {expand? : α → Option (List PlanStep)}
    {expand : α → List PlanEntry} (each : ∀ item ∈ items, Gives (expand? item) (expand item)) :
    Gives (stepsFor? items expand?) (items.flatMap expand) := by
  induction items with
  | nil => exact nil
  | cons item rest ih =>
    obtain ⟨here, taken, entries⟩ := each item List.mem_cons_self
    obtain ⟨behind, more, others⟩ := ih fun other member => each other (List.mem_cons_of_mem _ member)
    refine ⟨here ++ behind, ?_, ?_⟩
    · rw [stepsFor?, taken]
      dsimp only [bind, Option.bind]
      rw [more]
    · rw [List.filterMap_append, entries, others, List.flatMap_cons]

/-- A collection is looked up when its path is read or refused. -/
theorem lookUp {path : String} (settled : SettledAsPath path) (value : Value) (slide : Int)
    {expand? : List Value → Option (List PlanStep)} {expand : List Value → List PlanEntry}
    (each : ∀ items, Gives (expand? items) (expand items)) :
    Gives (lookUp? value path slide expand?) (withItems value path slide expand) := by
  obtain ⟨steps, taken, entries⟩ := each (itemsAt value path)
  refine ⟨.looked value path slide :: steps, ?_, ?_⟩
  · unfold lookUp?
    split
    · rename_i error refused
      exact absurd refused (settled error)
    · rw [taken]
      rfl
  · unfold itemsAt at entries
    unfold withItems
    cases found : collectionItems value path with
    | ok items =>
      have quiet : (PlanStep.looked value path slide).left? = none := by
        simp [PlanStep.left?, PlanStep.instance?, PlanStep.diagnostic?, found]
      rw [found] at entries
      rw [List.filterMap_cons_none quiet]
      exact entries
    | error problem =>
      have noted : (PlanStep.looked value path slide).left? = some (.noted ⟨problem, some slide⟩) := by
        simp [PlanStep.left?, PlanStep.instance?, PlanStep.diagnostic?, found]
      rw [found] at entries
      rw [List.filterMap_cons_some noted]
      exact congrArg _ entries

end Gives

theorem stepsFor?_map {α β : Type} (items : List α) (view : α → β)
    (expand : β → Option (List PlanStep)) :
    stepsFor? (items.map view) expand = stepsFor? items fun item => expand (view item) := by
  induction items with
  | nil => rfl
  | cons item rest ih => rw [List.map_cons, stepsFor?, stepsFor?, ih]

theorem pages?_eq {size : Nat} (room : 0 < size) (items : Nat) :
    pages? items size = some (List.range (pageCount items size)) :=
  if_neg (Nat.ne_of_gt room)

section Templates

variable {template : SlideTemplate}

theorem gives_flatEntries (parsed : template.Parsed) {collection : String}
    (here : template.collection = some collection) (data : Value) (context : ContextPath) :
    Gives (flatSteps? template data context) (flatEntries template data context) := by
  have name : template.collection.getD "" = collection := by
    rw [here]
    rfl
  unfold flatSteps? flatEntries
  rw [name, here]
  dsimp only [Option.bind_eq_bind, Option.bind_some]
  refine Gives.lookUp (parsed.followable here).settled data template.slide fun items => ?_
  rw [pages?_eq template.itemsPerSlide_pos, ← here]
  exact Gives.shown _ fun page : Nat =>
    template.pageAt context none (template.offset + page * template.itemsPerSlide)

theorem gives_leafEntries (template : SlideTemplate) {context : ContextPath} (below : context ≠ [])
    (items : List Value) :
    Gives (leafSteps? template context items) (leafEntries template context items) := by
  obtain ⟨parent, last⟩ : ∃ parent, context.getLast? = some parent :=
    ⟨_, List.getLast?_eq_some_getLast below⟩
  unfold leafSteps? leafEntries
  rw [last]
  dsimp only [bind, Option.bind, Option.map]
  split
  · have blank : template.blankAt context =
        { template.pageAt context (some parent.index) 0 with empty := true } := by
      rw [SlideTemplate.blankAt, last]
      rfl
    rw [blank]
    exact Gives.once _
  · rw [pages?_eq template.itemsPerSlide_pos]
    exact Gives.shown _ fun page : Nat =>
      template.pageAt context (some parent.index) (template.offset + page * template.itemsPerSlide)

/-- Below an element the collections that are left are looked up one below the other. -/
theorem gives_nestedEntries (template : SlideTemplate) {context : ContextPath} (below : context ≠ [])
    (element : Value) {chunks : List String} (left : chunks ≠ [])
    (settled : ∀ chunk ∈ chunks, SettledAsPath chunk) :
    Gives (nestedSteps? template context element chunks)
      (nestedEntries template context element chunks) := by
  induction chunks generalizing context element with
  | nil => exact absurd rfl left
  | cons chunk rest ih =>
    obtain ⟨here, behind⟩ := List.forall_mem_cons.1 settled
    cases rest with
    | nil => exact Gives.lookUp here element template.slide (gives_leafEntries template below)
    | cons next rest =>
      refine Gives.lookUp here element template.slide fun items => Gives.stepsFor ?_
      rintro ⟨item, index⟩ _
      exact ih (List.append_ne_nil_of_left_ne_nil below _) item (List.cons_ne_nil _ _) behind

theorem settled_of_mem_chunks (parsed : template.Parsed) :
    ∀ chunk ∈ template.chunks, SettledAsPath chunk := by
  intro chunk member
  obtain ⟨collection, here, among⟩ := mem_collection_of_mem_chunks member
  exact (parsed.followable here).parts chunk among

theorem gives_memberEntries (parsed : template.Parsed) (window : Window) (data : Value) (index : Nat)
    (element : Value) :
    Gives (memberSteps? window data index element template)
      (memberEntries window data index element template) := by
  have settled := settled_of_mem_chunks parsed
  unfold memberSteps? memberEntries
  cases chunks : template.chunks with
  | nil => exact Gives.once _
  | cons chunk rest =>
    rw [chunks] at settled
    dsimp only
    split
    · exact Gives.once _
    · rename_i several
      split
      · rename_i outer
        refine gives_nestedEntries template (List.cons_ne_nil _ _) element ?_
          (List.forall_mem_cons.1 settled).2
        rintro rfl
        exact several (.inr ⟨rfl, outer⟩)
      · obtain ⟨collection, here, _⟩ :=
          mem_collection_of_mem_chunks (chunks ▸ List.mem_cons_self : chunk ∈ template.chunks)
        exact gives_flatEntries parsed here data _

end Templates

section Plans

variable {templates : List SlideTemplate} {windows : List Window}

/-- A window with a slide at its start and a collection that can be looked up. -/
structure Window.Ready (templates : List SlideTemplate) (window : Window) : Prop where
  inside : window.start < templates.length
  settled : SettledAsPath window.collection

theorem gives_windowEntries (parsed : ∀ template ∈ templates, template.Parsed) {window : Window}
    (ready : window.Ready templates) (data : Value) :
    Gives (windowSteps? templates window data) (windowEntries templates window data) := by
  unfold windowSteps? windowEntries
  rw [List.getElem?_eq_getElem ready.inside]
  dsimp only [Option.bind_eq_bind, Option.bind_some, Option.map_some, Option.getD_some]
  refine Gives.lookUp ready.settled data _ fun items => ?_
  have elements : window.elements? items =
      some (items.zipIdx.filter fun (_, index) => window.visits index) :=
    if_neg (Nat.ne_of_gt window.step_pos)
  rw [elements]
  refine Gives.stepsFor ?_
  rintro ⟨element, index⟩ _
  refine Gives.stepsFor fun template member => ?_
  have among : template ∈ templates :=
    List.mem_of_mem_drop (List.mem_of_mem_take (List.mem_of_mem_filter member))
  exact gives_memberEntries (parsed template among) window data index element

theorem gives_entriesAt (parsed : ∀ template ∈ templates, template.Parsed)
    (ready : ∀ window ∈ windows, window.Ready templates) (data : Value) {position : Nat}
    {template : SlideTemplate} (there : templates[position]? = some template) :
    Gives (stepsAt? templates windows data position)
      (entriesAt templates windows data template position) := by
  unfold stepsAt? entriesAt
  rw [there]
  dsimp only [bind, Option.bind]
  cases found : windowAt? windows position with
  | some window =>
    dsimp only
    split
    · exact gives_windowEntries parsed (ready window (mem_of_windowAt? found).1) data
    · exact Gives.nil
  | none =>
    cases kind : template.kind with
    | static => exact Gives.once _
    | cloned => exact Gives.nil
    | source =>
      have here := parsed template (List.mem_of_getElem? there)
      obtain ⟨collection, names⟩ := here.exists_collection kind
      exact gives_flatEntries here names data []

/-- On parsed templates every step of a plan is taken, and the steps make the entries of the
plan. -/
theorem gives_planEntries (parsed : ∀ template ∈ templates, template.Parsed)
    (ready : ∀ window ∈ windows, window.Ready templates) (data : Value) :
    Gives (planSteps? templates windows data) (planEntries templates windows data) := by
  have positions : List.range templates.length = templates.zipIdx.map Prod.snd := by
    rw [List.zipIdx_map_snd, List.range_eq_range']
  unfold planSteps? planEntries
  rw [positions, stepsFor?_map]
  refine Gives.stepsFor ?_
  rintro ⟨template, position⟩ member
  exact gives_entriesAt parsed ready data (List.mem_zipIdx_iff_getElem?.1 member)

/-- The windows of parsed templates start at slides and are over collections that can be looked
up. -/
theorem ready_of_mem_findWindows (parsed : ∀ template ∈ templates, template.Parsed) :
    ∀ window ∈ (findWindows templates).1, window.Ready templates := by
  intro window member
  have placed := findWindows_placed templates
  have inside := (findWindows_ordered templates).2 window member
  refine ⟨Nat.lt_of_le_of_lt window.start_le_stop inside, ?_⟩
  cases explicit : window.explicit with
  | true =>
    obtain ⟨template, there, begins, _⟩ :=
      rangeWindows_stop 0 rfl window (placed.marked window member explicit)
    exact ((parsed template (List.mem_of_getElem? there)).followable_path
      (path_of_rangeBegin? begins)).settled
  | false =>
    obtain ⟨opener, there, opens⟩ := placed.opened window member explicit
    have here := parsed opener (List.mem_of_getElem? there)
    cases opens with
    | leading leads =>
      simp only [SlideTemplate.leads, Bool.and_eq_true, beq_iff_eq] at leads
      exact (here.followable leads.1.2).settled
    | own needs outer =>
      obtain ⟨chunk, rest, chunks⟩ := List.exists_cons_of_ne_nil
        (here.chunks_ne_nil needs.1)
      rw [← outer, SlideTemplate.outer, chunks, List.headD_cons]
      exact settled_of_mem_chunks here chunk (chunks ▸ List.mem_cons_self)

end Plans

end DeckBinding
