import DeckBinding.Proofs.Generation.Nested
import DeckBinding.Proofs.Path.Keys
import DeckBinding.Proofs.Plan.Context
import DeckBinding.Proofs.Resolution.Crossing

set_option autoImplicit false

namespace DeckBinding

open DeckBinding.Number DeckBinding.Text

/-- The items below the current element that a slide is made for. -/
def Instance.children (shown : Instance) (root : Value) : List Value :=
  match ContextPath.follow root shown.context, shown.collection with
  | some element, some collection => itemsAt element ((splitString '>' collection).getLastD "")
  | _, _ => []

/-- A path that selects no element in front of its last `>`. -/
def Path.OpenAhead (path : Path) : Prop :=
  ∀ part ∈ path.chunks.dropLast, Bare part

instance (path : Path) : Decidable path.OpenAhead :=
  inferInstanceAs (Decidable (∀ part ∈ path.chunks.dropLast, Bare part))

section Walks

variable {shown : Instance} {root : Value} {cache : ContextCache}

theorem followSteps_of_unshifted (unshifted : shown.offset = 0) (steps : List Step) (value : Value) :
    followSteps shown value steps = followSegments value (steps.map Step.segment) := by
  apply followSteps_of_still
  intro step _ index _
  unfold Instance.shiftedIndex
  rw [unshifted]
  simp

/-- Selecting an element at the end of steps selects it of what they lead to. -/
theorem followSegments_pinned {front : List Step} {last : Step} (bare : last.segment.index = none)
    (index : Nat) (value : Value) :
    followSegments value ((front ++ [last.pinned index]).map Step.segment) =
      (followSegments value ((front ++ [last]).map Step.segment)).bind fun found =>
        found.item? (index : Int) := by
  rw [List.map_append, List.map_append, followSegments_append, followSegments_append]
  cases followSegments value (front.map Step.segment) with
  | none => rfl
  | some reached =>
    simp only [Option.bind_some, List.map_cons, List.map_nil, followSegments, from?_of_bare bare]
    unfold Segment.from? Step.pinned
    cases reached <;> simp [Value.member?]

/-- What has items has no members. -/
theorem member?_of_item? {value element : Value} {index : Int} (item : value.item? index = some element)
    (name : String) : value.member? name = none := by
  cases value with
  | map entries => cases item
  | _ => rfl

theorem exists_first_not {α : Type} {holds : α → Prop} {items : List α}
    (fails : ¬ ∀ item ∈ items, holds item) :
    ∃ front item back, items = front ++ item :: back ∧ (∀ other ∈ front, holds other) ∧
      ¬ holds item := by
  induction items with
  | nil => exact absurd (fun item member => absurd member List.not_mem_nil) fails
  | cons first rest ih =>
    by_cases here : holds first
    · obtain ⟨front, item, back, same, before, not⟩ := ih fun all => fails fun item member => by
        rcases List.mem_cons.1 member with rfl | later
        · exact here
        · exact all item later
      refine ⟨first :: front, item, back, by rw [same]; rfl, ?_, not⟩
      intro other member
      rcases List.mem_cons.1 member with rfl | later
      · exact here
      · exact before other later
    · exact ⟨[], first, rest, rfl, fun other member => absurd member List.not_mem_nil, here⟩

variable {base : Path} {chunk : String} {element : Value} {key : String}

/-- When nothing is selected ahead, the context leads to the parts ahead, and the last part selects
one of the items below the current element. -/
theorem resolvePath_open (unshifted : shown.offset = 0) (wellFormed : base.WellFormed)
    (bare : base.withLastIndex none = base)
    (names : splitString '>' base.text = shown.context.map (·.name) ++ [chunk])
    (found : ContextPath.follow root shown.context = some element) (sound : Sound root cache)
    (written : shown.context.text = .ok key) (ahead : base.OpenAhead) (index : Nat) :
    ∃ outcome, (resolvePath root (base.withLastIndex (some index)) shown cache).1 = .ok outcome ∧
      outcome.toOption = (itemsAt element chunk)[index]? := by
  obtain ⟨front, inner, last, free, parts, selected⟩ := Path.exists_parts bare
  rw [wellFormed.splitString, parts, List.map_append, List.map_singleton] at names
  obtain ⟨namesFront, namesLast⟩ := List.append_inj' names rfl
  have allBare : ∀ part ∈ front, Bare part := by
    intro part member
    apply ahead part
    rwa [parts, List.dropLast_concat]
  have depth : sharedDepth (base.withLastIndex (some index)).chunks shown.context =
      front.length := by
    have shared := @sharedDepth_eq_length shown.context front [] (by rw [List.append_nil, namesFront])
      allBare (by simp) (inner ++ [last.pinned index])
    rw [List.append_nil] at shared
    rw [selected, shared]
  have lengths : shown.context.length = front.length := by
    simpa using (congrArg List.length namesFront).symm
  obtain ⟨outcome, resolved, reached⟩ := exists_outcome_of_sound (Option.isSome_of_eq_some found)
    sound written (Nat.le_of_eq lengths.symm) depth
  rw [List.take_of_length_le (Nat.le_of_eq lengths), found] at reached
  refine ⟨outcome, resolved, reached.trans ?_⟩
  have left : ((base.withLastIndex (some index)).chunks.drop front.length).flatten =
      inner ++ [last.pinned index] := by
    rw [selected, List.drop_left]
    exact List.append_nil _
  obtain ⟨first, rest, starts, plain⟩ := @Path.exists_cons_of_mem_chunks
    (base.withLastIndex (some index)) (inner ++ [last.pinned index]) (by
      rw [selected]
      exact List.mem_append_right _ List.mem_cons_self)
  have valid : ∀ step ∈ inner ++ [last], step.segment.WellFormed := by
    intro step among
    apply wellFormed.segment (Path.mem_steps_of_mem_chunks _ among)
    rw [parts]
    exact List.mem_append_right _ List.mem_cons_self
  have text : partText (inner ++ [last]) = chunk := (List.cons.inj namesLast).1
  rw [left, starts, Option.bind_some, crossSteps_plain none plain, ← starts]
  change followSteps shown element (inner ++ [last.pinned index]) = _
  rw [followSteps_of_unshifted unshifted, followSegments_pinned free,
    ← element?_partText (by simp) valid, text, element?_natCast]

/-- A part that selects an element leads to no element of what it stands for: at its end it reaches
a sequence, which has no members, or its key names no collection. -/
theorem crossSteps_of_pinned {select : String → Option Int} {part rest : List Step} {next last : Step}
    {value : Value} {position : Int} (unshifted : shown.offset = 0)
    (inside : ∃ first rest, part = first :: rest ∧ ∀ step ∈ rest, step.join ≠ some .context)
    (crosses : next.join = some .context) (ends : part.getLast? = some last)
    (absent : last.segment.index = none → select last.key = none)
    (item : ((followSegments value (part.map Step.segment)).bind
      fun found => found.item? position).isSome) :
    crossSteps select shown none (part ++ next :: rest) value = none := by
  obtain ⟨element, here⟩ := Option.isSome_iff_exists.1 item
  obtain ⟨sequence, reached, among⟩ := Option.bind_eq_some_iff.1 here
  have walked : crossSteps select shown none part value = some sequence := by
    obtain ⟨first, more, rfl, plain⟩ := inside
    rw [crossSteps_plain none plain]
    change followSteps shown value (first :: more) = _
    rw [followSteps_of_unshifted unshifted, reached]
  rw [crossSteps_append, walked, Option.bind_some, ends, crossSteps]
  change ((if next.join = some .context then last.cross? select sequence else some sequence).bind _) = _
  rw [if_pos crosses]
  unfold Step.cross?
  by_cases bare : last.segment.index = none
  · rw [bare, absent bare]
    rfl
  · have none : next.from? shown sequence = none := by
      unfold Step.from?
      rw [member?_of_item? among]
      cases next.segment.index <;> rfl
    rw [if_pos (Option.isSome_iff_ne_none.2 bare), Option.bind_some, none]
    rfl

/-- A context that leads to an element leads to one of each collection that it names. -/
theorem exists_item_of_part {front back : List (List Step)} {part : List Step}
    (names : shown.context.map (·.name) = (front ++ part :: back).map partText)
    (leads : (ContextPath.follow root shown.context).isSome) (full : part ≠ [])
    (valid : ∀ step ∈ part, step.segment.WellFormed) :
    ∃ value position, ContextPath.follow root (shown.context.take front.length) = some value ∧
      ((followSegments value (part.map Step.segment)).bind
        fun found => found.item? position).isSome := by
  have placed := congrArg (·[front.length]?) names
  obtain ⟨⟨name, position⟩, there, rfl⟩ : ∃ segment, shown.context[front.length]? = some segment ∧
      segment.name = partText part := by
    simpa [List.getElem?_map, Option.map_eq_some_iff] using placed
  obtain ⟨value, reached⟩ :=
    Option.isSome_iff_exists.1 (ContextPath.follow_take_isSome leads front.length)
  have item := ContextPath.follow_take_isSome leads (front.length + 1)
  rw [ContextPath.follow_take_succ there, reached, Option.bind_some] at item
  refine ⟨value, position, reached, ?_⟩
  rwa [← element?_partText full valid]

/-- The key at the end of a part that selects an element before its end marks that element. -/
theorem not_bracketsFilled_of_part {path : Path} {front back : List (List Step)} {part : List Step}
    {last : Step} (parts : path.chunks = front ++ part :: back) (ends : part.getLast? = some last)
    (bare : last.segment.index = none) (pinned : ¬ Bare part) : ¬ BracketsFilled last.key.toList := by
  obtain ⟨inner, rfl⟩ := List.getLast?_eq_some_iff.1 ends
  obtain ⟨step, among, selects⟩ : ∃ step ∈ inner ++ [last], step.segment.index ≠ none := by
    by_contra none
    exact pinned fun step member => by_contra fun selects => none ⟨step, member, selects⟩
  have earlier : step ∈ inner := by
    rcases List.mem_append.1 among with inside | same
    · exact inside
    · rw [List.mem_singleton.1 same] at selects
      exact absurd bare selects
  obtain ⟨before, after, rfl⟩ := List.append_of_mem earlier
  have steps : path.steps = (front.flatten ++ before) ++ step :: (after ++ [last] ++ back.flatten) := by
    rw [Path.steps_of_chunks parts]
    simp
  exact Path.not_bracketsFilled_key steps selects (by simp)

/-- No element is selected of the collection at the end of a part that selects one before its end:
the key marks that element, and no collection that is a path is named so. -/
theorem selectedIndex?_of_pinned {front back : List (List Step)} {part : List Step} {last : Step}
    (wellFormed : base.WellFormed) (collection : shown.collection = some base.text)
    (names : ∀ segment ∈ shown.context, ∃ other ∈ base.chunks, partText other = segment.name)
    (parts : base.chunks = front ++ part :: back) (ends : part.getLast? = some last)
    (bare : last.segment.index = none) (pinned : ¬ Bare part) :
    shown.selectedIndex? last.key = none := by
  have unfilled := not_bracketsFilled_of_part parts ends bare pinned
  have absent : (shown.context.find? fun segment => segment.name == last.key) = none := by
    rw [List.find?_eq_none]
    intro segment member same
    obtain ⟨other, among, name⟩ := names segment member
    apply unfilled
    rw [← beq_iff_eq.1 same, ← name]
    exact BracketsFilled.part fun step inside =>
      wellFormed.segment (Path.mem_steps_of_mem_chunks among inside)
  unfold Instance.selectedIndex?
  rw [absent]
  refine if_neg fun same => ?_
  rw [collection] at same
  rw [← Option.some.inj same] at unfilled
  exact unfilled (BracketsFilled.text wellFormed)

/-- When an element is selected ahead, the path does not go where the context leads. -/
theorem resolvePath_pinned (unshifted : shown.offset = 0) (wellFormed : base.WellFormed)
    (bare : base.withLastIndex none = base) (collection : shown.collection = some base.text)
    (names : splitString '>' base.text = shown.context.map (·.name) ++ [chunk])
    (found : ContextPath.follow root shown.context = some element) (sound : Sound root cache)
    (written : shown.context.text = .ok key) (ahead : ¬ base.OpenAhead) (index : Nat) :
    ∃ outcome, (resolvePath root (base.withLastIndex (some index)) shown cache).1 = .ok outcome ∧
      outcome.toOption = none := by
  obtain ⟨others, inner, last, free, parts, selected⟩ := Path.exists_parts bare
  have whole := selected index
  generalize base.withLastIndex (some index) = path at whole ⊢
  rw [wellFormed.splitString, parts, List.map_append, List.map_singleton] at names
  have namesFront := (List.append_inj' names rfl).1.symm
  unfold Path.OpenAhead at ahead
  rw [parts, List.dropLast_concat] at ahead
  obtain ⟨front, part, back, rfl, before, pinned⟩ := exists_first_not ahead
  have placed : part ∈ base.chunks := by
    rw [parts]
    exact List.mem_append_left _ (List.mem_append_right _ List.mem_cons_self)
  have full := Path.ne_nil_of_mem_chunks placed
  have leads := Option.isSome_of_eq_some found
  obtain ⟨value, position, reached, item⟩ := exists_item_of_part namesFront leads full
    fun step among => wellFormed.segment (Path.mem_steps_of_mem_chunks placed among)
  have depth : sharedDepth path.chunks shown.context = front.length := by
    rw [whole]
    exact sharedDepth_eq_length namesFront before (by simpa using pinned) _
  have inside : front.length ≤ shown.context.length := by
    have lengths := congrArg List.length namesFront
    rw [List.length_map, List.length_map, List.length_append] at lengths
    omega
  obtain ⟨outcome, resolved, walked⟩ := exists_outcome_of_sound leads sound written inside depth
  refine ⟨outcome, resolved, walked.trans ?_⟩
  -- the part behind the one that selects an element begins with a `>`
  obtain ⟨following, more, behind⟩ : ∃ following more,
      back ++ [inner ++ [last.pinned index]] = following :: more :=
    List.exists_cons_of_ne_nil (by simp)
  have split : path.chunks = front ++ part :: following :: more := by
    rw [whole, List.append_assoc, List.cons_append, behind]
  obtain ⟨next, rest, rfl, crosses⟩ := @Path.exists_crossing path (front ++ [part]) more following
    (by rw [split, List.append_assoc, List.singleton_append]) (by simp)
  obtain ⟨final, ends⟩ := Option.isSome_iff_exists.1 (List.getLast?_isSome.2 full)
  rw [split, List.drop_left, List.flatten_cons, List.flatten_cons, reached, Option.bind_some]
  refine crossSteps_of_pinned unshifted (Path.exists_cons_of_mem_chunks placed) crosses ends
    (fun bareEnd => ?_) item
  rw [List.append_assoc] at parts
  refine selectedIndex?_of_pinned wellFormed collection (fun segment member => ?_) parts ends bareEnd
    pinned
  obtain ⟨other, among, same⟩ := List.mem_map.1 (namesFront ▸ List.mem_map_of_mem member)
  refine ⟨other, ?_, same⟩
  rw [parts, ← List.append_assoc]
  exact List.mem_append_left _ among

end Walks

variable {templates : List SlideTemplate} {data : Value} {planning : Planning} {shown : Instance}

/-- A blank slide of a plan stands below an element with no more items than its template skips. -/
theorem exists_blank (planned : SlidePlan.ofTemplates templates data = .ok planning)
    (member : shown ∈ planning.plan.instances) (blank : shown.empty = true) :
    ∃ deck, expandedDeck templates = .ok deck ∧ ∃ template ∈ deck,
      template.slide = shown.slide ∧ template.collection = shown.collection ∧ shown.offset = 0 ∧
      ∃ chunk element, template.chunks = shown.context.map (·.name) ++ [chunk] ∧
        ContextPath.follow data.plain shown.context = some element ∧
        (itemsAt element chunk).length ≤ template.offset := by
  obtain ⟨deck, expanded, origins⟩ := exists_origin_of_planned planned
  obtain ⟨position, template, original, there, origin, number, rfl⟩ := origins shown member
  refine ⟨deck, expanded, template, List.mem_of_getElem? there, ?_⟩
  cases origin with
  | alone => cases blank
  | page => cases blank
  | element => cases blank
  | pageBeside => cases blank
  | pageBelow => cases blank
  | blank _ _ leads few => exact ⟨rfl, rfl, rfl, _, _, leads.chunks, leads.reached, few⟩

theorem children_eq {root element : Value} {collection chunk : String}
    (found : ContextPath.follow root shown.context = some element)
    (here : shown.collection = some collection)
    (names : splitString '>' collection = shown.context.map (·.name) ++ [chunk]) :
    shown.children root = itemsAt element chunk := by
  unfold Instance.children
  rw [found, here]
  dsimp only
  rw [names, List.getLastD_concat]

/-- A blank slide hides an element of its collection when there is none with the index, or when the
path of the collection selects an element ahead. The items that its template skips are shown. -/
theorem blank_hides_iff (templates : List SlideTemplate) (data : Value) (planning : Planning)
    (planned : SlidePlan.ofTemplates templates data = .ok planning) (shown : Instance)
    (member : shown ∈ planning.plan.instances) (blank : shown.empty = true) (base : Path)
    (wellFormed : base.WellFormed) (bare : base.withLastIndex none = base)
    (collection : shown.collection = some base.text) (cache : ContextCache)
    (reached : Reached data.plain planning.plan.instances cache) (key : String)
    (written : shown.context.text = .ok key) :
    ∃ deck, expandedDeck templates = .ok deck ∧ ∃ template ∈ deck, template.slide = shown.slide ∧
      (shown.children data.plain).length ≤ template.offset ∧
      ∀ index : Nat,
        (∀ value, (resolvePath data.plain (base.withLastIndex (some index)) shown cache).1 ≠
          .ok (.ok value)) ↔
        (base.OpenAhead → (shown.children data.plain).length ≤ index) := by
  obtain ⟨deck, expanded, template, among, slide, same, unshifted, chunk, element, chunks, found, few⟩ :=
    exists_blank planned member blank
  have names : splitString '>' base.text = shown.context.map (·.name) ++ [chunk] := by
    rw [← chunks, chunks_of_collection (same.trans collection) (Path.toList_text_ne_nil wellFormed)]
  have sound := reached.sound (follow_of_planned planned)
  rw [children_eq found collection names]
  refine ⟨deck, expanded, template, among, slide, few, fun index => ?_⟩
  have absent {outcome : Except Absence Value} {found : Option Value}
      (resolved : (resolvePath data.plain (base.withLastIndex (some index)) shown cache).1 = .ok outcome)
      (leads : outcome.toOption = found) :
      (∀ value, (resolvePath data.plain (base.withLastIndex (some index)) shown cache).1 ≠
        .ok (.ok value)) ↔ found = none := by
    rw [resolved, ← leads]
    cases outcome with
    | error absence => simp [Except.toOption]
    | ok value => simp [Except.toOption]
  by_cases ahead : base.OpenAhead
  · obtain ⟨outcome, resolved, leads⟩ :=
      resolvePath_open unshifted wellFormed bare names found sound written ahead index
    rw [absent resolved leads, List.getElem?_eq_none_iff]
    exact ⟨fun outside _ => outside, fun outside => outside ahead⟩
  · obtain ⟨outcome, resolved, leads⟩ :=
      resolvePath_pinned unshifted wellFormed bare collection names found sound written ahead index
    rw [absent resolved leads]
    exact ⟨fun _ inside => absurd inside ahead, fun _ => rfl⟩

/-- The elements of `p`, and below each of them the items of its `c` but the first one. -/
def skippingTemplates : List SlideTemplate :=
  [⟨1, 0, .source, [], [.ofPath "$\x7bp[0].n\x7d" ⟨⟨"p", some 0⟩, [(.member, ⟨"n", none⟩)]⟩],
      some "p", some 0, 0, 0⟩,
    ⟨2, 1, .source, [.foreach "p>c" 0 1],
      [.ofPath "$\x7bp>c[0]\x7d" ⟨⟨"p", none⟩, [(.context, ⟨"c", some 0⟩)]⟩],
      some "p>c", some 0, 0, 1⟩]

def singleItem : Value :=
  .map [(.text "p", .list [.map [(.text "n", .text "a"), (.text "c", .list [.text "x"])]])]

def skippedItem : Instance :=
  ⟨2, 1, [⟨"p", 0⟩], 0, some 0, true, some "p>c"⟩

theorem planning_skipping : ∃ planning,
    SlidePlan.ofTemplates skippingTemplates singleItem = .ok planning ∧
    planning.plan.instances = [⟨1, 0, [⟨"p", 0⟩], 0, none, false, some "p"⟩, skippedItem] := by
  have quiet : Quiet skippingTemplates := by simp [Quiet, skippingTemplates]
  obtain ⟨planning, planned, instances, _⟩ := ofTemplates_quiet quiet (by decide) singleItem
  have windows : (findWindows skippingTemplates).1 = [pairWindow "p"] :=
    findWindows_pair quiet (by decide) (by decide) rfl (by decide) (by decide)
  refine ⟨planning, planned, ?_⟩
  rw [instances, windows]
  decide +kernel

theorem wellFormed_skipped :
    Path.WellFormed ⟨⟨"p", none⟩, [(.context, ⟨"c", none⟩)]⟩ := by
  refine ⟨⟨by decide, by simp⟩, ?_⟩
  intro entry member
  rw [List.mem_singleton.1 member]
  exact ⟨by decide, by simp⟩

theorem blank_hides_iff_single_item :
    ∃ (planning : Planning) (deck : List SlideTemplate),
      SlidePlan.ofTemplates skippingTemplates singleItem = .ok planning ∧
      ∃ template ∈ deck, template.slide = 2 ∧
        (skippedItem.children singleItem.plain).length ≤ template.offset ∧
        ∀ index : Nat,
          (∀ value, (resolvePath singleItem.plain ⟨⟨"p", none⟩, [(.context, ⟨"c", some index⟩)]⟩
            skippedItem []).1 ≠ .ok (.ok value)) ↔
          (Path.OpenAhead ⟨⟨"p", none⟩, [(.context, ⟨"c", none⟩)]⟩ →
            (skippedItem.children singleItem.plain).length ≤ index) := by
  obtain ⟨planning, planned, instances⟩ := planning_skipping
  obtain ⟨deck, _, template, among, slide, few, hides⟩ := blank_hides_iff _ _ planning planned
    skippedItem (by simp [instances]) rfl _ wellFormed_skipped rfl rfl [] .start _
    (contextText_singleton "p" writeBound_pos)
  exact ⟨planning, deck, planned, template, among, slide, few, hides⟩

/-- The item that the slides of its collection skip is shown on the slide that stands in for it. -/
theorem blank_shows_skipped_item :
    ∃ templates planning shown,
      (analyzeSlides [.ofTexts 1 ["$\x7bp[0].n\x7d".toList] [],
        .ofTexts 2 ["$\x7bp>c[0]\x7d".toList] "#foreach: p>c, offset: 1".toList]).toOption.map
          (fun analyses => analyses.map (·.template)) = some templates ∧
      SlidePlan.ofTemplates templates singleItem = .ok planning ∧
      shown ∈ planning.plan.instances ∧ shown.empty = true ∧
      shown.collection = some (Path.text ⟨⟨"p", none⟩, [(.context, ⟨"c", none⟩)]⟩) ∧
      (resolvePath singleItem.plain ⟨⟨"p", none⟩, [(.context, ⟨"c", some 0⟩)]⟩ shown []).1 =
        .ok (.ok (.text "x")) := by
  obtain ⟨planning, planned, instances⟩ := planning_skipping
  obtain ⟨outcome, resolved, found⟩ := @resolvePath_open skippedItem singleItem.plain []
    ⟨⟨"p", none⟩, [(.context, ⟨"c", none⟩)]⟩ "c" _ _ rfl wellFormed_skipped rfl rfl rfl
    (sound_nil _) (contextText_singleton "p" writeBound_pos) (by decide) 0
  have shows : outcome = .ok (.text "x") := by
    cases outcome with
    | error absence => cases found
    | ok value => exact congrArg Except.ok (Option.some.inj found)
  refine ⟨skippingTemplates, planning, skippedItem, ?_, planned, by simp [instances], rfl, rfl, ?_⟩
  · decide +kernel
  · rw [← shows]
    exact resolved

end DeckBinding
