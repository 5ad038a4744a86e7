import DeckBinding.Binding
import DeckBinding.Proofs.Keyed
import DeckBinding.Proofs.Paragraph.Reconciliation
import DeckBinding.Proofs.Resolution.Follow

set_option autoImplicit false

namespace DeckBinding

open DeckBinding.Number

/-- The text of a run on the slide that is made, when the template slide has another text for it. -/
def SlideOutput.runText (output : SlideOutput) (address : RunAddress) (text : List Char) :
    List Char :=
  (Keyed.get? address output.patches).getD text

def SlideOutput.shapeText (output : SlideOutput) (shape : TextShape) : List Char :=
  shape.paragraphs.zipIdx.flatMap fun (runs, paragraph) =>
    runs.zipIdx.flatMap fun (text, run) => output.runText ⟨shape.index, paragraph, run⟩ text

/-- The texts of the shapes of a slide that are not hidden, in order. -/
def SlideOutput.visibleTexts (output : SlideOutput) : List (List Char) :=
  (output.source.shapes.filter fun shape => shape.index ∉ output.hidden).map output.shapeText

variable {resolver : Resolver} {shown : Instance} {property : ContextCache → Prop}

theorem piecesOf_braced_text {path : Path} (wellFormed : path.WellFormed) :
    resolver.piecesOf (braced path.text.toList) = [.bound path.text.toList] := by
  unfold Resolver.piecesOf
  split
  · rw [withPlainQuotes_braced_text wellFormed, pieces_braced_text wellFormed]
  · exact pieces_braced_text wellFormed

/-- A run that is one expression turns into what the expression stands for. -/
theorem reconcile_braced {path : Path} (wellFormed : path.WellFormed) {state : ResolverState}
    {filling : Filling} (fills : Stands resolver shown state (.bound path.text.toList) filling) :
    ∃ reconciled other,
      (reconcile (fun text state => resolver.resolveText text shown state)
        [braced path.text.toList] state).1 = .ok reconciled ∧
      Stands resolver shown state (.bound path.text.toList) other ∧
      reconciled.texts = [other.text] ∧ reconciled.reasons.Perm (hideReasons [other]) ∧
      reconciled.deferred.Perm (deferredCalls [other]) := by
  have pieces : resolver.piecesOf [braced path.text.toList].flatten =
      [.bound path.text.toList] := by
    rw [List.flatten_singleton, piecesOf_braced_text wellFormed]
  have fill : List.Forall₂ (Stands resolver shown state)
      (resolver.piecesOf [braced path.text.toList].flatten) [filling] := by
    rw [pieces]
    exact .cons fills .nil
  obtain ⟨reconciled, done⟩ := exists_reconcile fill
  obtain ⟨shares, reconciles⟩ := reconcile_reconciles done
  obtain ⟨share, rfl⟩ := List.length_eq_one_iff.1 reconciles.count
  have stands := reconciles.stands
  rw [pieces, List.flatten_singleton] at stands
  obtain ⟨other, rest, filled, none, rfl⟩ := List.forall₂_cons_left_iff.1 stands
  obtain rfl := List.forall₂_nil_left_iff.1 none
  have texts := reconciles.texts
  rw [List.map_singleton, fillingsText_cons, fillingsText_nil, List.append_nil] at texts
  exact ⟨reconciled, other, done, filled, texts, reconciles.reasons, reconciles.deferred⟩

/-- A run that is one expression turns into the text its path leads to, or is left empty and hides
its shape. -/
theorem reconcile_expression (bare : resolver.aliases = .empty) {path : Path}
    (wellFormed : path.WellFormed) {value : Option String}
    (shows : path.Shows resolver.root shown property value) {state : ResolverState}
    (holds : property state.cache) :
    ∃ reconciled,
      (reconcile (fun text state => resolver.resolveText text shown state)
        [braced path.text.toList] state).1 = .ok reconciled ∧
      reconciled.texts = [(value.getD "").toList] ∧ reconciled.hidden = value.isNone ∧
      reconciled.deferred = [] := by
  have gives := resolve_gives bare shows holds (String.ofList (braced path.text.toList))
  have read := ofBody_text wellFormed
  obtain ⟨reconciled, filling, done, filled, texts, reasons, deferred⟩ :=
    reconcile_braced wellFormed (.value read gives.same)
  refine ⟨reconciled, done, ?_⟩
  cases filled with
  | literal other =>
    rw [read] at other
    cases other
  | value other same =>
    rw [read] at other
    cases other
    cases gives.congr same with
    | value text =>
      have empty : reconciled.reasons = [] := reasons.eq_nil
      refine ⟨texts, ?_, deferred.eq_nil⟩
      unfold Reconciled.hidden
      rw [empty]
      rfl
    | hidden reason =>
      have one : reconciled.reasons = [reason] := reasons.eq_singleton
      refine ⟨texts, ?_, deferred.eq_nil⟩
      unfold Reconciled.hidden
      rw [one]
      rfl

/-- A shape that is one run with one expression, and what the path of the expression comes to. -/
def TextShape.Shows (root : Value) (shown : Instance) (property : ContextCache → Prop)
    (shape : TextShape) (value : Option String) : Prop :=
  ∃ path : Path, path.WellFormed ∧ shape.paragraphs = [[braced path.text.toList]] ∧
    path.Shows root shown property value

/-- What changes on a shape of one run that turns into a text, or into nothing. -/
def ShapeOutput.ofValue (shape : TextShape) (value : Option String) : ShapeOutput where
  patches := changedRuns shape.index 0 shape.paragraphs.flatten [(value.getD "").toList]
  hidden := if value.isNone then [shape.index] else []
  deferred := []

theorem changedRuns_singleton (shape : Int) (run text : List Char) :
    changedRuns shape 0 [run] [text] = if run = text then [] else [(⟨shape, 0, 0⟩, text)] := by
  by_cases same : run = text
  · simp [changedRuns, same]
  · simp [changedRuns, same]

theorem ofParagraphs_eq_ofValue {shape : TextShape} {run : List Char}
    (single : shape.paragraphs = [[run]]) {reconciled : Reconciled} {value : Option String}
    (texts : reconciled.texts = [(value.getD "").toList])
    (hidden : reconciled.hidden = value.isNone) (deferred : reconciled.deferred = []) :
    ShapeOutput.ofParagraphs shape [reconciled] = .ofValue shape value := by
  unfold ShapeOutput.ofParagraphs ShapeOutput.ofValue
  rw [single]
  simp only [List.any_cons, List.any_nil, Bool.or_false, hidden, List.flatMap_cons,
    List.flatMap_nil, List.append_nil, deferred, List.map_nil, ite_self, ShapeOutput.mk.injEq,
    and_true, List.flatten_singleton]
  rw [← texts]
  exact List.append_nil _

theorem bindParagraphs_keeps (kept : KeptBy resolver.root shown.context property)
    (paragraphs : List (List (List Char))) {state : ResolverState} (holds : property state.cache) :
    property (bindParagraphs resolver shown paragraphs state).2.cache := by
  induction paragraphs generalizing state with
  | nil => exact holds
  | cons runs rest ih =>
    have after := reconcile_keeps kept runs holds
    rw [bindParagraphs]
    dsimp only
    rcases first : reconcile (fun text state => resolver.resolveText text shown state) runs state
      with ⟨reconciled, middle⟩
    rw [first] at after
    cases reconciled with
    | error error => exact after
    | ok reconciled => exact ih after

theorem bindParagraphs_shows (bare : resolver.aliases = .empty) {shape : TextShape}
    {value : Option String} (shows : shape.Shows resolver.root shown property value)
    {state : ResolverState} (holds : property state.cache) :
    ∃ resolved, (bindParagraphs resolver shown shape.paragraphs state).1 = .ok resolved ∧
      ShapeOutput.ofParagraphs shape resolved = .ofValue shape value := by
  obtain ⟨path, wellFormed, single, reads⟩ := shows
  obtain ⟨reconciled, done, texts, hidden, deferred⟩ :=
    reconcile_expression bare wellFormed reads holds
  refine ⟨[reconciled], ?_, ofParagraphs_eq_ofValue single texts hidden deferred⟩
  rw [single, bindParagraphs]
  dsimp only
  rcases first : reconcile (fun text state => resolver.resolveText text shown state)
    [braced path.text.toList] state with ⟨found, middle⟩
  rw [first] at done
  dsimp only at done
  subst done
  rfl

/-- Shapes, each with what it turns into. -/
abbrev ShownShapes := List (TextShape × Option String)

theorem bindShapes_shows (bare : resolver.aliases = .empty)
    (kept : KeptBy resolver.root shown.context property) {entries : ShownShapes}
    (shows : ∀ entry ∈ entries, entry.1.Shows resolver.root shown property entry.2)
    {state : ResolverState} (holds : property state.cache) :
    ∃ after, bindShapes resolver shown (entries.map (·.1)) state =
        (.ok (entries.map fun entry => .ofValue entry.1 entry.2), after) ∧ property after.cache := by
  induction entries generalizing state with
  | nil => exact ⟨state, rfl, holds⟩
  | cons entry rest ih =>
    obtain ⟨shape, value⟩ := entry
    obtain ⟨resolved, done, output⟩ := bindParagraphs_shows bare (shows _ List.mem_cons_self) holds
    have middleHolds := bindParagraphs_keeps kept shape.paragraphs holds
    rcases bound : bindParagraphs resolver shown shape.paragraphs state with ⟨found, middle⟩
    rw [bound] at done middleHolds
    dsimp only at done
    subst done
    obtain ⟨after, further, afterHolds⟩ :=
      ih (fun other member => shows other (List.mem_cons_of_mem _ member)) middleHolds
    refine ⟨after, ?_, afterHolds⟩
    simp only [List.map_cons, bindShapes, bound, further, output]
    rfl

def SlideOutput.ofEntries (source : TemplateSlide) (shown : Instance) (entries : ShownShapes) :
    SlideOutput :=
  let shapes := entries.map fun entry => ShapeOutput.ofValue entry.1 entry.2
  { source, shown
    patches := (Keyed.ofList (shapes.flatMap (·.patches))).mergeSort
      fun left right => left.1.before right.1
    hidden := shapes.flatMap (·.hidden)
    deferred := shapes.flatMap (·.deferred) }

section Entries

variable {source : TemplateSlide} {entries : ShownShapes}

def Single (entries : ShownShapes) : Prop :=
  ∀ entry ∈ entries, ∃ run, entry.1.paragraphs = [[run]]

theorem patches_ofValue {shape : TextShape} {run : List Char} (single : shape.paragraphs = [[run]])
    (value : Option String) :
    (ShapeOutput.ofValue shape value).patches =
      if run = (value.getD "").toList then []
      else [(⟨shape.index, 0, 0⟩, (value.getD "").toList)] := by
  unfold ShapeOutput.ofValue
  rw [single]
  exact changedRuns_singleton _ _ _

/-- The patches of the shapes, before they are put in order. -/
def gathered (entries : ShownShapes) : Patches :=
  entries.flatMap fun entry => (ShapeOutput.ofValue entry.1 entry.2).patches

theorem mem_gathered (single : Single entries) {patch : RunAddress × List Char} :
    patch ∈ gathered entries ↔ ∃ entry ∈ entries, entry.1.paragraphs ≠ [[(entry.2.getD "").toList]] ∧
      patch = (⟨entry.1.index, 0, 0⟩, (entry.2.getD "").toList) := by
  unfold gathered
  rw [List.mem_flatMap]
  apply exists_congr
  intro entry
  apply and_congr_right
  intro member
  obtain ⟨run, one⟩ := single entry member
  rw [patches_ofValue one, one]
  by_cases same : run = (entry.2.getD "").toList
  · simp [same]
  · simp [same]

theorem nodup_gathered (single : Single entries)
    (apart : (entries.map fun entry => entry.1.index).Nodup) :
    ((gathered entries).map (·.1)).Nodup := by
  have among : ((gathered entries).map (·.1)).Sublist
      (entries.map fun entry => (⟨entry.1.index, 0, 0⟩ : RunAddress)) := by
    induction entries with
    | nil => exact .slnil
    | cons entry rest ih =>
      obtain ⟨run, one⟩ := single entry List.mem_cons_self
      have behind := ih (fun other member => single other (List.mem_cons_of_mem _ member))
        (List.Nodup.of_cons apart)
      unfold gathered at behind ⊢
      rw [List.flatMap_cons, List.map_append, List.map_cons, patches_ofValue one]
      by_cases same : run = (entry.2.getD "").toList
      · rw [if_pos same]
        exact behind.cons _
      · rw [if_neg same]
        exact behind.cons_cons _
  apply among.nodup
  have addresses : (entries.map fun entry => (⟨entry.1.index, 0, 0⟩ : RunAddress)) =
      (entries.map fun entry => entry.1.index).map fun index => ⟨index, 0, 0⟩ := by
    rw [List.map_map]
    rfl
  rw [addresses]
  apply apart.map
  intro left right same
  exact congrArg RunAddress.shape same

theorem eq_of_index_eq (apart : (entries.map fun entry => entry.1.index).Nodup)
    {left right : TextShape × Option String} (first : left ∈ entries) (second : right ∈ entries)
    (same : left.1.index = right.1.index) : left = right :=
  List.inj_on_of_nodup_map apart first second same

theorem get?_patches_ofEntries (single : Single entries)
    (apart : (entries.map fun entry => entry.1.index).Nodup) (address : RunAddress) :
    Keyed.get? address (SlideOutput.ofEntries source shown entries).patches =
      Keyed.get? address (gathered entries) := by
  have nodup := nodup_gathered single apart
  have sorted : (SlideOutput.ofEntries source shown entries).patches.Perm (gathered entries) := by
    unfold SlideOutput.ofEntries
    dsimp only
    rw [List.flatMap_map]
    refine (List.mergeSort_perm _ _).trans ?_
    change (Keyed.ofList (gathered entries)).Perm _
    rw [Keyed.ofList_of_nodup nodup]
  exact (Keyed.get?_perm sorted.symm nodup address).symm

/-- The text of a shape is what the shape turns into. -/
theorem shapeText_ofEntries (single : Single entries)
    (apart : (entries.map fun entry => entry.1.index).Nodup)
    {entry : TextShape × Option String} (member : entry ∈ entries) :
    (SlideOutput.ofEntries source shown entries).shapeText entry.1 =
      (entry.2.getD "").toList := by
  obtain ⟨run, one⟩ := single entry member
  have whole : (SlideOutput.ofEntries source shown entries).shapeText entry.1 =
      (SlideOutput.ofEntries source shown entries).runText ⟨entry.1.index, 0, 0⟩ run := by
    unfold SlideOutput.shapeText
    rw [one]
    simp
  rw [whole, SlideOutput.runText, get?_patches_ofEntries single apart]
  by_cases same : run = (entry.2.getD "").toList
  · have absent : Keyed.get? ⟨entry.1.index, 0, 0⟩ (gathered entries) = none := by
      rw [Keyed.get?_eq_none_iff]
      intro found
      obtain ⟨patch, among, address⟩ := List.mem_map.1 found
      obtain ⟨other, inside, changed, rfl⟩ := (mem_gathered single).1 among
      obtain rfl := eq_of_index_eq apart inside member (congrArg RunAddress.shape address)
      exact changed (by rw [one, same])
    rw [absent, same]
    rfl
  · have present : (⟨entry.1.index, 0, 0⟩, (entry.2.getD "").toList) ∈ gathered entries := by
      refine (mem_gathered single).2 ⟨entry, member, ?_, rfl⟩
      rw [one]
      simpa using same
    rw [(Keyed.get?_eq_some_iff (nodup_gathered single apart)).2 present]
    rfl

theorem mem_hidden_ofEntries (apart : (entries.map fun entry => entry.1.index).Nodup)
    {entry : TextShape × Option String} (member : entry ∈ entries) :
    entry.1.index ∈ (SlideOutput.ofEntries source shown entries).hidden ↔ entry.2 = none := by
  unfold SlideOutput.ofEntries ShapeOutput.ofValue
  simp only [List.flatMap_map, List.mem_flatMap]
  constructor
  · rintro ⟨other, among, found⟩
    by_cases none : other.2.isNone
    · rw [if_pos none, List.mem_singleton] at found
      obtain rfl := eq_of_index_eq apart member among found
      exact Option.isNone_iff_eq_none.1 none
    · rw [if_neg none] at found
      cases found
  · intro none
    refine ⟨entry, member, ?_⟩
    rw [none]
    exact List.mem_cons_self

theorem visibleTexts_ofEntries (shapes : source.shapes = entries.map (·.1)) (single : Single entries)
    (apart : (source.shapes.map TextShape.index).Nodup) :
    (SlideOutput.ofEntries source shown entries).visibleTexts =
      (entries.filterMap (·.2)).map String.toList := by
  rw [shapes, List.map_map] at apart
  have each : ∀ entry ∈ entries,
      (entry.1.index ∈ (SlideOutput.ofEntries source shown entries).hidden ↔ entry.2 = none) ∧
      (SlideOutput.ofEntries source shown entries).shapeText entry.1 = (entry.2.getD "").toList :=
    fun entry member => ⟨mem_hidden_ofEntries apart member, shapeText_ofEntries single apart member⟩
  have whole : (SlideOutput.ofEntries source shown entries).source.shapes = entries.map (·.1) := shapes
  unfold SlideOutput.visibleTexts
  rw [whole]
  generalize SlideOutput.ofEntries source shown entries = output at each
  clear single apart shapes whole
  induction entries with
  | nil => rfl
  | cons entry rest ih =>
    have behind := ih fun other member => each other (List.mem_cons_of_mem _ member)
    obtain ⟨hidden, text⟩ := each entry List.mem_cons_self
    obtain ⟨shape, value⟩ := entry
    rw [List.map_cons]
    cases value with
    | none =>
      rw [List.filter_cons_of_neg (by simpa using hidden.2 rfl), behind, List.filterMap_cons_none rfl]
    | some found =>
      have visible : shape.index ∉ output.hidden := fun inside => by cases hidden.1 inside
      rw [List.filter_cons_of_pos (by simpa using visible), List.map_cons, behind, text]
      rfl

end Entries

/-- A slide with one shape for each number below a count. The shape is one run, which is the
expression that reads the path of the number. -/
structure TemplateSlide.Holds (slide : TemplateSlide) (count : Nat) (path : Nat → Path) : Prop where
  texts : slide.shapes.map TextShape.paragraphs =
    (List.range count).map fun number => [[braced (path number).text.toList]]
  apart : (slide.shapes.map TextShape.index).Nodup

namespace TemplateSlide.Holds

variable {slide : TemplateSlide} {count : Nat} {path : Nat → Path}

theorem length (holds : slide.Holds count path) : slide.shapes.length = count := by
  have same := congrArg List.length holds.texts
  simpa using same

theorem paragraphs (holds : slide.Holds count path) {number : Nat} {shape : TextShape}
    (there : slide.shapes[number]? = some shape) :
    number < count ∧ shape.paragraphs = [[braced (path number).text.toList]] := by
  have inside := (List.getElem?_eq_some_iff.1 there).1
  rw [holds.length] at inside
  have same := congrArg (·[number]?) holds.texts
  rw [List.getElem?_map, there, List.getElem?_map, List.getElem?_range inside] at same
  exact ⟨inside, Option.some.inj same⟩

end TemplateSlide.Holds

/-- The slide shows the texts the paths lead to, in order, and hides the other shapes. -/
theorem bindSlide_shows (bare : resolver.aliases = .empty)
    (kept : KeptBy resolver.root shown.context property) {slide : TemplateSlide} {count : Nat}
    {path : Nat → Path} {value : Nat → Option String} (holds : slide.Holds count path)
    (wellFormed : ∀ number < count, (path number).WellFormed)
    (shows : ∀ number < count, (path number).Shows resolver.root shown property (value number))
    {state : ResolverState} (start : property state.cache) :
    ∃ output after, bindSlide resolver slide shown state = (.ok output, after) ∧
      property after.cache ∧ output.source = slide ∧
      output.visibleTexts = ((List.range count).filterMap value).map String.toList := by
  have whole : slide.shapes =
      (slide.shapes.zipIdx.map fun entry => (entry.1, value entry.2)).map (·.1) := by
    rw [List.map_map]
    exact (List.zipIdx_map_fst 0 slide.shapes).symm
  have each : ∀ entry ∈ slide.shapes.zipIdx.map fun entry => (entry.1, value entry.2),
      entry.1.Shows resolver.root shown property entry.2 := by
    intro entry member
    obtain ⟨⟨shape, number⟩, among, rfl⟩ := List.mem_map.1 member
    obtain ⟨inside, single⟩ := holds.paragraphs (List.mem_zipIdx_iff_getElem?.1 among)
    exact ⟨path number, wellFormed number inside, single, shows number inside⟩
  have single : Single (slide.shapes.zipIdx.map fun entry => (entry.1, value entry.2)) := by
    intro entry member
    obtain ⟨reads, _, one, _⟩ := each entry member
    exact ⟨_, one⟩
  obtain ⟨after, bound, afterHolds⟩ := bindShapes_shows bare kept each start
  rw [← whole] at bound
  refine ⟨.ofEntries slide shown (slide.shapes.zipIdx.map fun entry => (entry.1, value entry.2)),
    after, ?_, afterHolds, rfl, ?_⟩
  · unfold bindSlide
    rw [bound]
    rfl
  · rw [visibleTexts_ofEntries whole single holds.apart, List.filterMap_map]
    have numbers : List.range count = slide.shapes.zipIdx.map Prod.snd := by
      rw [List.zipIdx_map_snd, holds.length, List.range_eq_range']
    rw [numbers, List.filterMap_map]
    rfl

/-- A slide that shows nothing hides all its shapes. -/
theorem hidden_of_visibleTexts_eq_nil {output : SlideOutput} (none : output.visibleTexts = []) :
    ∀ shape ∈ output.source.shapes, shape.index ∈ output.hidden := by
  intro shape member
  rw [SlideOutput.visibleTexts, List.map_eq_nil_iff, List.filter_eq_nil_iff] at none
  simpa using none shape member

end DeckBinding
