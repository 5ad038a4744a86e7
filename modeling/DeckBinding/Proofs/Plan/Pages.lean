import DeckBinding.Proofs.Alias.Meaning
import DeckBinding.Proofs.Generation.Flat
import DeckBinding.Proofs.Path.Keys
import DeckBinding.Proofs.Plan.Made
import DeckBinding.Proofs.Resolution.AbsoluteWalk

set_option autoImplicit false

namespace DeckBinding

open DeckBinding.Number

/-- A path leads to a value on a slide of the result, whatever was looked up before, or to nothing
for a reason that can be written. -/
def Path.Yields (path : Path) (root : Value) (shown : Instance) (value : Option Value) : Prop :=
  ∀ cache, match value with
    | some found => (resolvePath root path shown cache).1 = .ok (.ok found)
    | none => ∃ absence reason,
        (resolvePath root path shown cache).1 = .ok (.error absence) ∧ absence.reason = .ok reason

section Reasons

variable {shown : Instance}

/-- The indices that steps select have numerals, once they are shifted. -/
def Numbered (shown : Instance) (steps : List Step) : Prop :=
  ∀ step ∈ steps, ∀ index, step.segment.index = some index →
    ∃ number < writeBound, shown.shiftedIndex step.key index = ((number : Nat) : Int)

theorem Numbered.writable {steps : List Step} (numbered : Numbered shown steps) :
    Writable shown steps := by
  intro step member index selects
  obtain ⟨number, bound, shifted⟩ := numbered step member index selects
  rw [shifted]
  exact bound

/-- A path without `>` leads where its steps lead. -/
theorem yields_of_plain {path : Path} (plain : ∀ entry ∈ path.rest, entry.1 = .member)
    (numbered : Numbered shown path.steps) (root : Value) :
    path.Yields root shown (followSteps shown root path.steps) := by
  intro cache
  obtain ⟨outcome, resolved, reached⟩ := @resolvePath_absolute shown path plain root cache
  obtain rfl : path.continueFrom shown 0 root = outcome :=
    Except.ok.inj ((resolvePath_of_plain plain root cache).symm.trans resolved)
  rw [← reached]
  cases read : path.continueFrom shown 0 root with
  | error absence =>
    obtain ⟨reason, written⟩ := exists_reason_of_plain plain numbered.writable read
    rw [read] at resolved
    exact ⟨absence, reason, resolved, written⟩
  | ok value =>
    rw [read] at resolved
    exact resolved

end Reasons

section Pages

variable {base : Path} {shown : Instance} {root : Value} {items : List Value} {start : Nat}

theorem Path.Absolute.dotted (absolute : base.Absolute) (bare : Bare base.steps) : base.Dotted := by
  have index : ∀ segment ∈ base.segments, segment.index = none := by
    intro segment member
    rw [← segments_steps] at member
    obtain ⟨step, among, rfl⟩ := List.mem_map.1 member
    exact bare step among
  refine ⟨⟨absolute.wellFormed.1.1, index _ List.mem_cons_self⟩, ?_⟩
  intro entry member
  obtain ⟨join, wellFormed⟩ := absolute entry (List.mem_cons_of_mem _ member)
  exact ⟨join, wellFormed.1, index _ (List.mem_cons_of_mem _ (List.mem_map_of_mem member))⟩

/-- Where a path to a collection selects no element, an index behind it counts from the offset of
the page. -/
theorem followSteps_shifted (dotted : base.Dotted) (found : base.items? root = some items)
    (collection : shown.collection = some base.text) (offset : shown.offset = (start : Int))
    (index : Nat) :
    followSteps shown root (base.withLastIndex (some index)).steps = items[start + index]? := by
  obtain ⟨front, last, steps, key, selected⟩ := Path.exists_lastStep dotted
  have segments := Path.segments_steps base
  have bare := dotted.bare_of_segments segments
  rw [steps] at segments bare
  rw [selected, followSteps_pinned bare, segments, key, shiftedIndex_of_collection collection offset,
    Nat.add_comm]
  exact bind_item? found _

/-- The keys of a path stay when an element is selected at its end. -/
theorem keys_withLastIndex (bare : base.withLastIndex none = base) (index : Nat) :
    (base.withLastIndex (some index)).steps.map Step.key = base.steps.map Step.key := by
  obtain ⟨front, last, steps⟩ := Path.exists_steps_withLastIndex base
  have own := steps none
  rw [bare] at own
  rw [own, steps]
  simp

theorem numbered_shifted (dotted : base.Dotted) (collection : shown.collection = some base.text)
    (offset : shown.offset = (start : Int)) {index : Nat} (bound : start + index < writeBound) :
    Numbered shown (base.withLastIndex (some index)).steps := by
  obtain ⟨front, last, steps, key, selected⟩ := Path.exists_lastStep dotted
  have bare := dotted.bare_of_segments (Path.segments_steps base)
  rw [steps] at bare
  rw [selected]
  intro step member number selects
  rcases List.mem_append.1 member with earlier | final
  · rw [bare step (List.mem_append_left _ earlier)] at selects
    cases selects
  · obtain rfl : step = last.pinned index := List.mem_singleton.1 final
    obtain rfl : index = number := Option.some.inj selects
    refine ⟨index + start, by omega, ?_⟩
    change shown.shiftedIndex last.key index = _
    rw [key, shiftedIndex_of_collection collection offset]

/-- Where a path to a collection selects an element, no step behind it stands for that
collection. -/
theorem shiftedIndex_of_pinned (bare : base.withLastIndex none = base) (pinned : ¬ Bare base.steps)
    (collection : shown.collection = some base.text) {index : Nat} {step : Step}
    (member : step ∈ (base.withLastIndex (some index)).steps) (number : Nat) :
    shown.shiftedIndex step.key number = (number : Int) := by
  refine if_neg fun same => ?_
  have key : step.key ∈ base.steps.map Step.key := by
    rw [← keys_withLastIndex bare index]
    exact List.mem_map_of_mem member
  obtain ⟨other, among, equal⟩ := List.mem_map.1 key
  rw [collection] at same
  exact Path.key_ne_text pinned among (equal.trans (Option.some.inj same).symm)

/-- Where a path to a collection selects an element, an index behind it counts from the first
one. -/
theorem followSteps_unshifted (bare : base.withLastIndex none = base) (pinned : ¬ Bare base.steps)
    (found : base.items? root = some items) (collection : shown.collection = some base.text)
    (index : Nat) :
    followSteps shown root (base.withLastIndex (some index)).steps = items[index]? := by
  rw [followSteps_of_still fun step member number _ =>
    shiftedIndex_of_pinned bare pinned collection member number, Path.segments_steps]
  change (base.withLastIndex (some index)).from? root = _
  rw [Path.from?_withLastIndex, bare]
  exact bind_item? found index

theorem yields_of_page (absolute : base.Absolute) (bare : base.withLastIndex none = base)
    (found : base.items? root = some items) (collection : shown.collection = some base.text)
    (offset : shown.offset = (start : Int)) {index : Nat}
    (bound : (if Bare base.steps then start + index else index) < writeBound) :
    (base.withLastIndex (some index)).Yields root shown
      items[if Bare base.steps then start + index else index]? := by
  have small : index < writeBound := by
    split at bound
    · omega
    · exact bound
  have selected : (base.withLastIndex (some index)).Absolute := by
    apply absolute.withLastIndex
    rintro _ ⟨⟩
    exact small
  have plain : ∀ entry ∈ (base.withLastIndex (some index)).rest, entry.1 = .member :=
    fun entry member => (selected entry (List.mem_cons_of_mem _ member)).1
  by_cases names : Bare base.steps
  · have dotted := absolute.dotted names
    rw [if_pos names] at bound ⊢
    rw [← followSteps_shifted dotted found collection offset]
    exact yields_of_plain plain (numbered_shifted dotted collection offset bound) root
  · rw [if_neg names] at bound ⊢
    rw [← followSteps_unshifted bare names found collection]
    apply yields_of_plain plain
    intro step member number selects
    refine ⟨number, ?_, shiftedIndex_of_pinned bare names collection member number⟩
    exact (selected.wellFormed.segment member).2 number selects

end Pages

theorem pageCount_zero (size : Nat) : pageCount 0 size = 0 := by
  unfold pageCount Binary64.ofQuotient
  rfl

/-- What has items in a plan is a sequence of the data. -/
theorem exists_sequence {data : Value} {path : String} {items : List Value}
    (collected : collectionItems data path = .ok items) :
    ∃ sequence, walk data path.toList = .ok (some sequence) ∧ sequence.items? = some items := by
  unfold collectionItems at collected
  split at collected
  · cases collected
  · cases collected
  · cases collected
  · rename_i sequence _ reached
    split at collected
    · rename_i found
      exact ⟨sequence, reached, found.trans (congrArg some (Except.ok.inj collected))⟩
    · cases collected

/-- A page shows a collection that has items. -/
theorem collectionItems_of_page {data : Value} {path : String} {template : SlideTemplate}
    {context : ContextPath} {parentIndex : Option Int} {shown : Instance}
    (member : shown ∈ template.shownPages context parentIndex (itemsAt data path).length) :
    ∃ items, collectionItems data path = .ok items := by
  cases collected : collectionItems data path with
  | ok items => exact ⟨items, rfl⟩
  | error problem =>
    have none : itemsAt data path = [] := by
      unfold itemsAt
      rw [collected]
      rfl
    rw [none] at member
    simp [SlideTemplate.shownPages, pageCount_zero] at member

theorem nodup_offsets (template : SlideTemplate) (context : ContextPath) (parentIndex : Option Int)
    (items : Nat) : ((template.shownPages context parentIndex items).map (·.offset)).Nodup := by
  rw [List.Nodup, List.pairwise_map]
  unfold SlideTemplate.shownPages
  rw [List.pairwise_map]
  apply List.pairwise_lt_range.imp
  intro left right before same
  have further : left * template.itemsPerSlide < right * template.itemsPerSlide :=
    Nat.mul_lt_mul_of_pos_right before template.itemsPerSlide_pos
  have equal : template.offset + left * template.itemsPerSlide =
      template.offset + right * template.itemsPerSlide := Int.ofNat.inj same
  omega

variable {templates deck : List SlideTemplate} {template : SlideTemplate} {position : Nat}
  {base : Path} {data : Value}

/-- Outside the windows, a slide that `#foreach` repeats over a path makes pages with different
offsets. On each of them the path followed by an index leads to an element of the sequence that the
path leads to: to the one that far behind the offset of the page, when no element is selected inside
the path, and else to the one at the index itself, the same on all pages. -/
theorem foreach_pages_yield (templates deck : List SlideTemplate)
    (analyzed : ∀ template ∈ templates, template.OfParts)
    (expanded : expandedDeck templates = .ok deck) (position : Nat) (template : SlideTemplate)
    (sole : Sole deck position template) (free : windowAt? (findWindows deck).1 position = none)
    (base : Path) (absolute : base.Absolute) (bare : base.withLastIndex none = base) (max offset : Nat)
    (asked : firstForeach? template.directives = some (base.text, max, offset)) (data : Value) :
    ∃ planning, SlidePlan.ofTemplates templates data = .ok planning ∧
      ((planning.plan.madeFrom template.slide).map (·.offset)).Nodup ∧
      ∀ shown ∈ planning.plan.madeFrom template.slide,
        ∃ (sequence : Value) (items : List Value) (start : Nat),
          walk data.plain base.text.toList = .ok (some sequence) ∧ sequence.items? = some items ∧
          shown.offset = (start : Int) ∧
          ∀ index : Nat, (if Bare base.steps then start + index else index) < writeBound →
            (base.withLastIndex (some index)).Yields data.plain shown
              items[if Bare base.steps then start + index else index]? := by
  have built := ofParts_of_mem_deck analyzed expanded template (List.mem_of_getElem? sole.there)
  obtain ⟨kind, collection, -⟩ := built.asked asked
  have spec := ofTemplates_spec templates data
  rw [expanded] at spec
  obtain ⟨planning, planned, instances⟩ := spec
  have made := sole.made_of_free (findWindows_ordered deck).1 free data.plain
  have pages := @instancesOf_entriesAt_free deck _ data.plain position template free kind
  rw [← made, collection, Option.getD_some] at pages
  refine ⟨planning, planned, ?_, ?_⟩
  · rw [map_madeFrom instances _ fun _ _ => rfl]
    rcases pages with none | pages
    · rw [none]
      exact .nil
    · rw [pages]
      exact nodup_offsets template [] none _
  · intro shown member
    obtain ⟨original, among, number, rfl⟩ := mem_madeFrom instances member
    rcases pages with none | pages
    · rw [none] at among
      cases among
    · rw [pages] at among
      obtain ⟨items, collected⟩ := collectionItems_of_page among
      obtain ⟨sequence, walked, found⟩ := exists_sequence collected
      obtain ⟨page, _, rfl⟩ := List.mem_map.1 among
      refine ⟨sequence, items, _, walked, found, rfl, fun index bound => ?_⟩
      have reached : base.items? data.plain = some items := by
        rw [absolute.walk_text] at walked
        rw [Path.items?, Except.ok.inj walked]
        exact found
      exact yields_of_page absolute bare reached collection rfl bound

/-- A slide for each item of the sequence at `a[0].b`. -/
def pinnedTemplates : List SlideTemplate :=
  [⟨1, 0, .source, [.foreach "a[0].b" 0 0],
    [.ofPath "$\x7ba[0].b[0]\x7d" ⟨⟨"a", some 0⟩, [(.member, ⟨"b", some 0⟩)]⟩],
    some "a[0].b", none, 0, 0⟩]

def twoItems : Value :=
  .map [(.text "a", .list [.map [(.text "b", .list [.text "x", .text "y"])]])]

def pinnedPath : Path :=
  ⟨⟨"a", some 0⟩, [(.member, ⟨"b", none⟩)]⟩

theorem absolute_pinnedPath : pinnedPath.Absolute := by
  intro entry member
  rcases List.mem_cons.1 member with rfl | later
  · exact ⟨rfl, by decide, by rintro _ ⟨⟩; exact writeBound_pos⟩
  · rw [List.mem_singleton.1 later]
    exact ⟨rfl, by decide, by rintro _ ⟨⟩⟩

theorem quiet_pinnedTemplates : Quiet pinnedTemplates := by
  simp [Quiet, pinnedTemplates]

theorem findWindows_pinnedTemplates : (findWindows pinnedTemplates).1 = [] :=
  findWindows_singleton quiet_pinnedTemplates (by decide) (by decide +kernel)

theorem foreach_pages_yield_pinned : ∃ planning,
    SlidePlan.ofTemplates pinnedTemplates twoItems = .ok planning ∧
    ((planning.plan.madeFrom 1).map (·.offset)).Nodup ∧
    ∀ shown ∈ planning.plan.madeFrom 1,
      (pinnedPath.withLastIndex (some 0)).Yields twoItems.plain shown (some (.text "x")) := by
  have expanded : expandedDeck pinnedTemplates = .ok pinnedTemplates :=
    expandedDeck_of_plain (by simp [pinnedTemplates, Directive.isAlias]) (by decide)
  have analyzed : ∀ template ∈ pinnedTemplates, template.OfParts := by
    unfold SlideTemplate.OfParts
    decide +kernel
  have free : windowAt? (findWindows pinnedTemplates).1 0 = none := by
    rw [findWindows_pinnedTemplates]
    rfl
  obtain ⟨planning, planned, apart, pages⟩ := foreach_pages_yield pinnedTemplates pinnedTemplates
    analyzed expanded 0 _ (sole_singleton _) free pinnedPath absolute_pinnedPath rfl 0 0 (by decide)
    twoItems
  refine ⟨planning, planned, apart, fun shown member => ?_⟩
  obtain ⟨sequence, items, start, walked, found, _, yields⟩ := pages shown member
  have whole : walk twoItems.plain pinnedPath.text.toList =
      .ok (some (.list [.text "x", .text "y"])) := absolute_pinnedPath.walk_text _
  obtain rfl : sequence = .list [.text "x", .text "y"] :=
    Option.some.inj (Except.ok.inj (walked.symm.trans whole))
  obtain rfl : items = [.text "x", .text "y"] := (Option.some.inj found).symm
  exact yields 0 writeBound_pos

/-- The slide that is planned for the second item shows the first one. -/
theorem second_page_shows_first_item :
    ∃ templates planning shown,
      (analyzeSlides [.ofTexts 1 ["$\x7ba[0].b[0]\x7d".toList] "#foreach: a[0].b".toList]).toOption.map
          (fun analyses => analyses.map (·.template)) = some templates ∧
      (findWindows templates).1 = [] ∧
      SlidePlan.ofTemplates templates twoItems = .ok planning ∧
      shown ∈ planning.plan.instances ∧ shown.offset = 1 ∧
      walk twoItems.plain pinnedPath.text.toList = .ok (some (.list [.text "x", .text "y"])) ∧
      (resolvePath twoItems.plain (pinnedPath.withLastIndex (some 0)) shown []).1 =
        .ok (.ok (.text "x")) := by
  obtain ⟨planning, planned, instances, _⟩ :=
    ofTemplates_quiet quiet_pinnedTemplates (by decide) twoItems
  have pages : planning.plan.instances = [⟨1, 0, [], 0, none, false, some "a[0].b"⟩,
      ⟨1, 1, [], 1, none, false, some "a[0].b"⟩] := by
    rw [instances, findWindows_pinnedTemplates]
    decide +kernel
  have found : pinnedPath.items? twoItems.plain = some [.text "x", .text "y"] := rfl
  have shows : (pinnedPath.withLastIndex (some 0)).Yields twoItems.plain
      ⟨1, 1, [], 1, none, false, some "a[0].b"⟩ (some (.text "x")) :=
    yields_of_page absolute_pinnedPath rfl found rfl rfl writeBound_pos
  refine ⟨pinnedTemplates, planning, _, ?_, findWindows_pinnedTemplates, planned, ?_, rfl,
    absolute_pinnedPath.walk_text _, shows []⟩
  · decide +kernel
  · rw [pages]
    simp

end DeckBinding
