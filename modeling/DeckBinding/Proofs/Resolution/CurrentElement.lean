import DeckBinding.Proofs.Alias.Idempotence
import DeckBinding.Proofs.Path.Spelling
import DeckBinding.Proofs.Resolution.AbsoluteWalk
import DeckBinding.Proofs.Resolution.Trusted

set_option autoImplicit false

namespace DeckBinding

open DeckBinding.Number DeckBinding.Text

/-- What a path leads to from an element of the collection at another path. -/
def Path.fromElement? (path collection : Path) (index : Int) (root : Value) : Option Value :=
  ((collection.from? root).bind fun found => found.item? index).bind path.from?

/-- The value that the walk of a text leads to, if the text is a path and leads to one. -/
def walked? (root : Value) (text : String) : Option Value :=
  (walk root text.toList).toOption.join

/-- On a slide of the result a path has a value, or it has none and hides for a reason. -/
inductive Resolver.Finds (resolver : Resolver) (path : Path) (shown : Instance) (cache : ContextCache) :
    Option Value → Prop
  | value {value : Value} (found : (resolver.valueOf path shown cache).1 = .ok value) :
      Finds resolver path shown cache (some value)
  | hidden {reason : String} (hides : (resolver.valueOf path shown cache).1 = .error (.absent reason)) :
      Finds resolver path shown cache none

namespace Path

variable {path collection : Path}

theorem from?_append (join : Join) (other : Path) (value : Value) :
    (path.append join other).from? value = (path.from? value).bind other.from? := by
  have segments : (path.append join other).segments = path.segments ++ other.segments := by
    simp [segments, append]
  unfold from?
  rw [segments]
  exact followSegments_append value _ _

theorem Absolute.append {other : Path} (front : path.Absolute) (back : other.Absolute) :
    (path.append .member other).Absolute := by
  intro entry member
  rcases List.mem_cons.1 member with rfl | later
  · exact front _ List.mem_cons_self
  · rcases List.mem_append.1 later with inside | behind
    · exact front entry (List.mem_cons_of_mem _ inside)
    · exact back entry behind

theorem Dotted.absolute (dotted : path.Dotted) : path.Absolute :=
  List.forall_mem_cons.2 ⟨⟨rfl, dotted.wellFormed.1⟩, fun entry member =>
    ⟨(dotted.rest entry member).1, dotted.wellFormed.2 entry member⟩⟩

theorem Dotted.withLastIndex_none (dotted : path.Dotted) : path.withLastIndex none = path := by
  have same {segment : Segment} (bare : segment.index = none) : ⟨segment.name, none⟩ = segment := by
    rw [← bare]
  obtain ⟨first, rest⟩ := path
  rcases List.eq_nil_or_concat rest with rfl | ⟨front, ⟨join, segment⟩, rfl⟩
  · have bare : first.index = none := dotted.first.2
    simp [withLastIndex, same bare]
  · have bare : segment.index = none := dotted.bare (join, segment) (by simp)
    simp [withLastIndex, same bare]

theorem root_withLastIndex (path : Path) (index : Option Nat) :
    (path.withLastIndex index).root = path.root := by
  unfold withLastIndex root
  split <;> rfl

/-- The text of a path from an element of a collection that is selected by its index. -/
theorem text_fromElement (dotted : collection.Dotted) (index : Nat) (path : Path) :
    ((collection.withLastIndex (some index)).append .member path).text =
      s!"{collection.text}[{index}].{path.text}" := by
  have bracket : "]" ++ String.singleton Join.member.symbol = "]." := rfl
  rw [text_append, text_withLastIndex dotted, @String.append_assoc _ "]", bracket]
  rfl

theorem from?_fromElement (dotted : collection.Dotted) (index : Nat) (path : Path) (root : Value) :
    ((collection.withLastIndex (some index)).append .member path).from? root =
      path.fromElement? collection index root := by
  rw [from?_append, from?_withLastIndex, dotted.withLastIndex_none]
  rfl

theorem read_behind (dotted : collection.Dotted) (wellFormed : path.WellFormed) :
    Path.read s!"{collection.text}>{path.text}".toList = .ok (collection.append .context path) := by
  rw [← read_text (wellFormed_append dotted.wellFormed wellFormed .context), text_append]
  rfl

theorem read_fromFirst (dotted : collection.Dotted) (wellFormed : path.WellFormed) :
    Path.read s!"{collection.text}[0].{path.text}".toList =
      .ok ((collection.withLastIndex (some 0)).append .member path) := by
  have pinned := wellFormed_withLastIndex dotted.wellFormed writeBound_pos
  have zero : "[0]." = "[" ++ toString 0 ++ "]." := rfl
  rw [← read_text (wellFormed_append pinned wellFormed .member), text_fromElement dotted, zero]
  simp only [String.append_assoc]
  rfl

end Path

/-- No text with a sign is read as a path. -/
theorem walked?_of_sign {root : Value} {text : String} (sign : '-' ∈ text.toList) :
    walked? root text = none := by
  have unread (path : Path) : Path.readAbsolute text.toList ≠ .ok path := by
    intro read
    have char := Path.isSpelledChar_of_read (Path.absolute_of_readAbsolute read).1 '-' sign
    exact absurd char (by decide)
  unfold walked? walk
  cases read : Path.readAbsolute text.toList with
  | error failure => rfl
  | ok path => exact absurd read (unread path)

variable {resolver : Resolver} {shown : Instance} {cache : ContextCache} {collection path : Path}
  {root : Value}

/-- The walk selects the element by its position. At no negative position there is one. -/
theorem walked?_fromElement (dotted : collection.Dotted) (absolute : path.Absolute) {index : Int}
    (bound : index.natAbs < writeBound) :
    walked? root s!"{collection.text}[{index}].{path.text}" = path.fromElement? collection index root := by
  cases index with
  | ofNat number =>
    have pinned : (collection.withLastIndex (some number)).Absolute :=
      dotted.absolute.withLastIndex (by simpa using bound)
    have walked := (pinned.append absolute).walk_text root
    rw [Path.text_fromElement dotted] at walked
    have outcome := congrArg (fun result => Option.join (Except.toOption result)) walked
    exact outcome.trans (Path.from?_fromElement dotted number path root)
  | negSucc number =>
    have none : path.fromElement? collection (.negSucc number) root = none := by
      unfold Path.fromElement?
      cases collection.from? root with
      | none => rfl
      | some found =>
        rw [Option.bind_some, found.item?_of_neg (Int.negSucc_lt_zero number)]
        rfl
    rw [none]
    apply walked?_of_sign
    have sign : (Int.negSucc number).repr = "-" ++ (number + 1).repr := rfl
    simp [sign]

section Behind

variable (home : shown.collection = none ∨ shown.collection = some collection.text)

include home

theorem shiftedIndex_of_longer {key : String} (longer : collection.text.length < key.length) (index : Nat) :
    shown.shiftedIndex key index = index := by
  unfold Instance.shiftedIndex
  rw [if_neg]
  intro same
  rcases home with none | some
  · rw [none] at same
    cases same
  · rw [some] at same
    rw [Option.some.inj same] at longer
    exact Nat.lt_irrefl _ longer

variable {stem : String} (longer : collection.text.length ≤ stem.length) (join : Join)

include longer

theorem still_behind {step : Step} {rest : List (Join × Segment)} (member : step ∈ Path.stepsFrom stem rest)
    (index : Nat) : shown.shiftedIndex step.key index = index :=
  shiftedIndex_of_longer home (Nat.lt_of_le_of_lt longer (Path.length_lt_key member)) index

/-- Behind the element no index is shifted, and the steps lead where the path leads. -/
theorem followSteps_behind (value : Value) :
    followSteps shown value (Path.stepsFrom stem ((join, path.first) :: path.rest)) = path.from? value := by
  rw [followSteps_of_still fun step member index _ => still_behind home longer member index,
    Path.segments_stepsFrom]
  rfl

theorem writable_behind (absolute : path.Absolute) :
    Writable shown (Path.stepsFrom stem ((join, path.first) :: path.rest)) := by
  intro step member index selects
  have segment : step.segment ∈ path.segments := by
    rw [← show _ = path.segments from Path.segments_stepsFrom stem ((join, path.first) :: path.rest)]
    exact List.mem_map_of_mem member
  rw [still_behind home longer member index, Int.natAbs_natCast]
  exact (Path.wellFormed_iff.1 absolute.wellFormed _ segment).2 index selects

end Behind

/-- The steps below an element start from the element itself. -/
theorem crossSteps_stepsBelow (home : shown.collection = none ∨ shown.collection = some collection.text)
    (plain : ∀ entry ∈ path.rest, entry.1 = .member) (select : String → Option Int) (value : Value) :
    crossSteps select shown none (collection.stepsBelow path) value = path.from? value :=
  (crossSteps_plain none (Path.join_of_mem_stepsFrom plain) value).trans
    (followSteps_behind home (Nat.le_refl _) .context value)

/-- From the root the steps go to the collection, on to the element selected of it and along the
path. -/
theorem crossSteps_fromElement (dotted : collection.Dotted)
    (home : shown.collection = none ∨ shown.collection = some collection.text)
    (plain : ∀ entry ∈ path.rest, entry.1 = .member) {select : String → Option Int} {index : Int}
    (selected : select collection.text = some index) (value : Value) :
    crossSteps select shown none (collection.steps ++ collection.stepsBelow path) value =
      path.fromElement? collection index value := by
  obtain ⟨front, last, steps, key, _⟩ := Path.exists_lastStep dotted
  have ends : collection.steps.getLast? = some last := by
    rw [steps, List.getLast?_concat]
  have bare : Bare collection.steps := dotted.bare_of_segments (Path.segments_steps collection)
  have valid : ∀ step ∈ collection.steps, step.segment.WellFormed :=
    fun step member => dotted.wellFormed.segment member
  have full : collection.steps ≠ [] := List.cons_ne_nil _ _
  have inside : ∃ first rest, collection.steps = first :: rest ∧
      ∀ step ∈ rest, step.join ≠ some .context :=
    ⟨_, _, rfl, Path.join_of_mem_stepsFrom fun entry member => (dotted.rest entry member).1⟩
  refine (crossSteps_part bare valid inside rfl ends (key ▸ selected) value).trans ?_
  rw [element?_partText full valid, Path.segments_steps]
  exact Option.bind_congr fun element _ => crossSteps_stepsBelow home plain select element

theorem finds_of_resolved {outcome : Except Absence Value}
    (resolved : (resolvePath resolver.root path shown cache).1 = .ok outcome)
    (reasons : ∀ absence, outcome = .error absence → ∃ reason, absence.reason = .ok reason) :
    resolver.Finds path shown cache outcome.toOption := by
  have value := valueOf_of_resolved resolved
  cases outcome with
  | ok found => exact .value value
  | error absence =>
    obtain ⟨reason, written⟩ := reasons absence rfl
    apply Resolver.Finds.hidden
    rw [value]
    simp only [Except.mapError, Absence.obstacle, written]
    rfl

theorem finds_shiftedWalk (plain : ∀ entry ∈ path.rest, entry.1 = .member)
    (writable : Writable shown path.steps) :
    resolver.Finds path shown cache (path.shiftedWalk shown resolver.root) := by
  have outcome := @valueOf_eq_walk shown path resolver cache plain writable
  cases walked : path.shiftedWalk shown resolver.root with
  | none =>
    rw [walked] at outcome
    obtain ⟨reason, hides⟩ := outcome
    exact .hidden hides
  | some value =>
    rw [walked] at outcome
    exact .value outcome

/-- The first segment of a context leads to the element, whatever trusted cache it is looked up
in. -/
theorem contextElement_of_head (dotted : collection.Dotted) (trusted : Trusted root cache) {index : Int}
    (bound : index.natAbs < writeBound) (others : ContextPath) :
    (contextElement root (⟨collection.text, index⟩ :: others) 1 cache).1 =
      .ok ((collection.from? root).bind fun found => found.item? index) := by
  have separable : ContextPath.Separable [⟨collection.text, index⟩] :=
    List.forall_mem_singleton.2 dotted.not_mem_text
  rw [← contextElement_take (Nat.le_refl 1), List.take_succ_cons, List.take_zero,
    trusted _ separable 1]
  exact contextElement_one dotted bound

/-- The first segment of the context selects the element. -/
theorem finds_of_context (dotted : collection.Dotted) (absolute : path.Absolute)
    (home : shown.collection = none ∨ shown.collection = some collection.text)
    (trusted : Trusted resolver.root cache) {index : Int} (bound : index.natAbs < writeBound)
    (context : shown.context.head? = some ⟨collection.text, index⟩) :
    resolver.Finds (collection.append .context path) shown cache
      (path.fromElement? collection index resolver.root) := by
  have plain : ∀ entry ∈ path.rest, entry.1 = .member :=
    Path.join_of_mem_rest absolute.usesContext
  obtain ⟨others, whole⟩ := List.head?_eq_some_iff.1 context
  have depth : sharedDepth (collection.append .context path).chunks shown.context = 1 := by
    rw [whole]
    exact sharedDepth_behind dotted plain index others
  have left : ((collection.append .context path).chunks.drop 1).flatten = collection.stepsBelow path := by
    rw [Path.chunks_behind dotted plain]
    exact List.append_nil _
  have resolved := @resolvePath_of_element shown resolver.root (collection.append .context path) cache _ (by
    rw [depth, whole]
    exact contextElement_of_head dotted trusted bound others)
  rw [depth] at resolved
  unfold Path.fromElement?
  cases found : (collection.from? resolver.root).bind fun found => found.item? index with
  | none =>
    -- the reason names the context, so its index has to be written
    rw [found, whole, List.take_succ_cons, List.take_zero] at resolved
    refine finds_of_resolved resolved ?_
    rintro absence ⟨⟩
    unfold Absence.reason
    dsimp only
    rw [contextText_of_bound bound]
    exact ⟨_, rfl⟩
  | some element =>
    rw [found] at resolved
    have reached : (Path.continueFrom (collection.append .context path) shown 1 element).toOption =
        path.from? element := by
      rw [continueFrom_eq_crossSteps, left]
      exact crossSteps_stepsBelow home plain _ element
    rw [Option.bind_some, ← reached]
    refine finds_of_resolved resolved fun absence absent => ?_
    refine exists_reason_of_continueFrom ?_ (fun step member crosses => ?_) absent
    · rw [left]
      exact writable_behind home (Nat.le_refl _) .context absolute
    · rw [left] at member
      exact absurd crosses (Path.join_of_mem_stepsFrom plain step member)

theorem selectsWritable_of_lt (offset : shown.offset.natAbs < writeBound)
    (indices : ∀ segment ∈ shown.context, segment.index.natAbs < writeBound) : shown.SelectsWritable := by
  intro name index selected
  unfold Instance.selectedIndex? at selected
  split at selected
  · rename_i segment found
    cases selected
    exact indices segment (List.mem_of_find?_eq_some found)
  · split at selected
    · cases selected
      exact offset
    · cases selected

/-- Without an element of the collection in the context, the offset of the slide selects one. -/
theorem finds_of_offset (dotted : collection.Dotted) (absolute : path.Absolute)
    (home : shown.collection = some collection.text) (selects : shown.SelectsWritable)
    (apart : ∀ segment ∈ shown.context, segment.name ≠ collection.text) :
    resolver.Finds (collection.append .context path) shown cache
      (path.fromElement? collection shown.offset resolver.root) := by
  have plain : ∀ entry ∈ path.rest, entry.1 = .member :=
    Path.join_of_mem_rest absolute.usesContext
  have depth := sharedDepth_of_apart dotted plain apart
  have whole : ((collection.append .context path).chunks.drop 0).flatten =
      collection.steps ++ collection.stepsBelow path := by
    rw [Path.chunks_behind dotted plain]
    simp
  have selected : shown.selectedIndex? collection.text = some shown.offset := by
    unfold Instance.selectedIndex?
    rw [List.find?_eq_none.2 (by simpa using apart), home]
    exact if_pos rfl
  have resolved := @resolvePath_of_element shown resolver.root (collection.append .context path) cache
    (some resolver.root) (by
      rw [depth]
      rfl)
  rw [depth] at resolved
  have reached : (Path.continueFrom (collection.append .context path) shown 0 resolver.root).toOption =
      path.fromElement? collection shown.offset resolver.root := by
    rw [continueFrom_eq_crossSteps, whole]
    exact crossSteps_fromElement dotted (.inr home) plain selected resolver.root
  rw [← reached]
  refine finds_of_resolved resolved fun absence absent => ?_
  refine exists_reason_of_continueFrom ?_ (fun _ _ _ => selects) absent
  rw [whole]
  exact writable_append.2 ⟨writable_of_bare (dotted.bare_of_segments (Path.segments_steps collection)),
    writable_behind (.inr home) (Nat.le_refl _) .context absolute⟩

/-- An index of the collection is shifted by the offset of the slide. -/
theorem finds_of_index (dotted : collection.Dotted) (absolute : path.Absolute)
    (home : shown.collection = some collection.text) (index : Nat)
    (bound : (index + shown.offset).natAbs < writeBound) :
    resolver.Finds ((collection.withLastIndex (some index)).append .member path) shown cache
      (path.fromElement? collection (index + shown.offset) resolver.root) := by
  obtain ⟨front, last, steps, key, selected⟩ := Path.exists_steps_fromElement dotted path
  have bare : ∀ step ∈ front ++ [last], step.segment.index = none :=
    dotted.bare_of_segments (steps ▸ Path.segments_steps collection)
  have longer : collection.text.length ≤ (collection.text ++ "[]").length := by simp
  have shifted : shown.shiftedIndex last.key index = index + shown.offset := by
    rw [Instance.shiftedIndex, key, home, if_pos rfl]
  have here : Writable shown [last.pinned index] := by
    refine List.forall_mem_singleton.2 fun number pinned => ?_
    obtain rfl : index = number := Option.some.inj pinned
    exact shifted ▸ bound
  have writable : Writable shown ((collection.withLastIndex (some index)).append .member path).steps := by
    rw [selected]
    exact writable_append.2 ⟨writable_append.2
      ⟨writable_of_bare fun step member => bare step (List.mem_append_left _ member), here⟩,
      writable_behind (.inr home) longer .member absolute⟩
  have walked : ((collection.withLastIndex (some index)).append .member path).shiftedWalk shown
      resolver.root = path.fromElement? collection (index + shown.offset) resolver.root := by
    rw [← followSteps_eq_shiftedWalk, selected, followSteps_append, followSteps_pinned bare, ← steps,
      Path.segments_steps, shifted]
    exact Option.bind_congr fun element _ => followSteps_behind (.inr home) longer .member element
  rw [← walked]
  exact finds_shiftedWalk (Path.join_of_mem_rest_fromElement dotted
    (Path.join_of_mem_rest absolute.usesContext) index) writable

/-- What an expression turns into whose path leads to a value, or to none. -/
inductive Resolution.Shows (format : Option String) : Option Value → Resolution → Prop
  | written {value : Value} {text : String} (same : value.format format = .ok text) :
      Shows format (some value) (.value text)
  | unwritten {value : Value} {error : FormatError} (failed : value.format format = .error error)
      (reason : String) : Shows format (some value) (.hidden reason)
  | absent (reason : String) : Shows format none (.hidden reason)

/-- Two expressions turn into the same text, or both hide their shapes. -/
inductive Resolution.SameOrHidden : Resolution → Resolution → Prop
  | value (text : String) : SameOrHidden (.value text) (.value text)
  | hidden (first second : String) : SameOrHidden (.hidden first) (.hidden second)

theorem Resolution.Shows.sameOrHidden {format : Option String} {value : Option Value}
    {left right : Resolution} (first : left.Shows format value) (second : right.Shows format value) :
    left.SameOrHidden right := by
  cases first with
  | absent reason =>
    cases second
    exact .hidden _ _
  | written same =>
    cases second with
    | written other =>
      cases same.symm.trans other
      exact .value _
    | unwritten failed reason => cases same.symm.trans failed
  | unwritten failed reason =>
    cases second with
    | written other => cases failed.symm.trans other
    | unwritten again other => exact .hidden _ _

theorem resolve_shows {value : Option Value} {state : ResolverState}
    (finds : resolver.Finds path shown state.cache value)
    (bare : resolver.aliases.find? path.root = none) (text : String) (format : Option String)
    (references : List (String × Nat)) :
    (resolver.resolve ⟨text, .path path, format, references⟩ shown state).1.Shows format value := by
  unfold Resolver.resolve Resolver.resolveExpanded
  rw [AliasTable.expandExpression_of_absent rfl bare]
  dsimp only
  cases finds with
  | hidden hides =>
    rw [hides]
    exact .absent _
  | @value value found =>
    rw [found]
    dsimp only
    cases written : value.format format with
    | ok text => exact .written written
    | error error => exact .unwritten written _

/-- A path behind the `>` of a collection leads where the walk from the root leads that selects an
element of the collection: the one of the first segment of the context or, if no segment of the
context has the name of the collection, the one at the offset of a slide that shows the collection.
Where no such walk leads to a value, the path hides. On a slide that shows the element its context
stands below, the path therefore comes to the same as the one that selects the first element, which
the offset shifts. What was resolved before does not count. -/
theorem currentElement_forms (resolver : Resolver) (shown : Instance) (cache : ContextCache)
    (remembered : Remembered resolver.root cache) (collection : Path) (dotted : collection.Dotted)
    (path : Path) (absolute : path.Absolute)
    (home : shown.collection = none ∨ shown.collection = some collection.text)
    (offset : shown.offset.natAbs < writeBound)
    (indices : ∀ segment ∈ shown.context, segment.index.natAbs < writeBound) :
    ∃ below first,
      Path.read s!"{collection.text}>{path.text}".toList = .ok below ∧
      Path.read s!"{collection.text}[0].{path.text}".toList = .ok first ∧
      (∀ index, shown.context.head? = some ⟨collection.text, index⟩ →
        resolver.Finds below shown cache
          (walked? resolver.root s!"{collection.text}[{index}].{path.text}")) ∧
      ((∀ segment ∈ shown.context, segment.name ≠ collection.text) →
        shown.collection = some collection.text →
        resolver.Finds below shown cache
          (walked? resolver.root s!"{collection.text}[{shown.offset}].{path.text}")) ∧
      ∀ index, shown.context = [⟨collection.text, index⟩] → shown.offset = index →
        shown.collection = some collection.text →
        (∃ value, resolver.Finds below shown cache value ∧ resolver.Finds first shown cache value) ∧
        (resolver.aliases.find? collection.root = none →
          ∀ text other format here there state later, Remembered resolver.root state.cache →
            (resolver.resolve ⟨text, .path below, format, here⟩ shown state).1.SameOrHidden
              (resolver.resolve ⟨other, .path first, format, there⟩ shown later).1) := by
  have selects := selectsWritable_of_lt offset indices
  have byContext {cache : ContextCache} (remembered : Remembered resolver.root cache) (index : Int)
      (context : shown.context.head? = some ⟨collection.text, index⟩) :=
    finds_of_context dotted absolute home remembered.trusted (indices _ (List.mem_of_head? context)) context
  refine ⟨_, _, Path.read_behind dotted absolute.wellFormed, Path.read_fromFirst dotted absolute.wellFormed,
    ?_, ?_, ?_⟩
  · intro index context
    rw [walked?_fromElement dotted absolute (indices _ (List.mem_of_head? context))]
    exact byContext remembered index context
  · intro apart here
    rw [walked?_fromElement dotted absolute offset]
    exact finds_of_offset dotted absolute here selects apart
  · rintro index context rfl here
    have head : shown.context.head? = some ⟨collection.text, shown.offset⟩ := by rw [context]; rfl
    have first (cache : ContextCache) := @finds_of_index resolver shown cache collection path dotted
      absolute here 0 (by simpa using offset)
    simp only [Int.natCast_zero, Int.zero_add] at first
    refine ⟨⟨_, byContext remembered _ head, first cache⟩, ?_⟩
    intro bare text other format here there state later kept
    have below := resolve_shows (byContext kept _ head) bare text format here
    have root := Path.root_withLastIndex collection (some 0)
    have front := resolve_shows (first later.cache) (root ▸ bare) other format there
    exact below.sameOrHidden front

/-- A page of `w` that stands below its own first element. -/
def pageBelow (index : Int) : Instance :=
  ⟨1, 0, [⟨"w", index⟩], index, none, false, some "w"⟩

theorem currentElement_forms_page :
    ∃ below first, Path.read "w>n".toList = .ok below ∧ Path.read "w[0].n".toList = .ok first ∧
      namedItems.Finds below (pageBelow 1) [] (some (.text "b")) ∧
      namedItems.Finds below (pageBelow (-1)) [] none ∧
      namedItems.Finds below (pageFrom 1) [] (some (.text "b")) ∧
      (namedItems.resolve ⟨"", .path below, none, below.references⟩ (pageBelow 1) .start).1.SameOrHidden
        (namedItems.resolve ⟨"", .path first, none, first.references⟩ (pageBelow 1) .start).1 := by
  have named {name : String} (valid : isName name = true) : (Path.ofName name).Dotted :=
    ⟨⟨valid, rfl⟩, fun _ inside => nomatch inside⟩
  have dotted : (Path.ofName "w").Dotted := named (by decide)
  have absolute : (Path.ofName "n").Absolute := (named (by decide)).absolute
  have small (index : Int) (few : index.natAbs < 2 ^ 53) := lt_writeBound_of_lt few
  have forms (shown : Instance) (home : shown.collection = some (Path.ofName "w").text)
      (offset : shown.offset.natAbs < 2 ^ 53)
      (indices : ∀ segment ∈ shown.context, segment.index.natAbs < 2 ^ 53) :=
    currentElement_forms namedItems shown [] .start (Path.ofName "w") dotted (Path.ofName "n")
      absolute (.inr home) (small _ offset) fun segment member => small _ (indices segment member)
  have walked (index : Int) (few : index.natAbs < 2 ^ 53) :=
    @walked?_fromElement (Path.ofName "w") (Path.ofName "n") namedItems.root dotted absolute index
      (small index few)
  obtain ⟨below, first, readBelow, readFirst, context, _, agree⟩ :=
    forms (pageBelow 1) rfl (by decide) (by decide)
  obtain ⟨_, _, again, _, before, _⟩ := forms (pageBelow (-1)) rfl (by decide) (by decide)
  obtain ⟨_, _, further, _, _, offset, _⟩ := forms (pageFrom 1) rfl (by decide) (by decide)
  obtain rfl := Except.ok.inj (again.symm.trans readBelow)
  obtain rfl := Except.ok.inj (further.symm.trans again)
  have second := context 1 rfl
  have outside := before (-1) rfl
  have shifted := offset (by decide) rfl
  rw [walked _ (by decide)] at second outside shifted
  exact ⟨_, first, readBelow, readFirst, second, outside, shifted,
    (agree 1 rfl rfl rfl).2 rfl _ _ _ _ _ _ _ .start⟩

end DeckBinding
