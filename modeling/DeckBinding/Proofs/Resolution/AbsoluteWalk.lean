import DeckBinding.Proofs.Alias.Meaning
import DeckBinding.Proofs.Path.Selection
import DeckBinding.Proofs.Resolution.Follow

set_option autoImplicit false

namespace DeckBinding

open DeckBinding.Number

/-- The value a segment leads to when its index is shifted: a member, then an element of it. An
absent value has no members. -/
def Segment.shiftedFrom? (segment : Segment) (shift : Int) (value : Value) : Option Value :=
  match value with
  | .null => none
  | value =>
    match segment.index with
    | none => value.member? segment.name
    | some index => (value.member? segment.name).bind fun found => found.item? (index + shift)

def followShifted (value : Value) : List (Segment × Int) → Option Value
  | [] => some value
  | (segment, shift) :: rest =>
    (segment.shiftedFrom? shift value).bind fun next => followShifted next rest

namespace Path

/-- The shift of the index at a position: the offset of a slide, if the collection there is that of
the slide. -/
def shiftAt (path : Path) (shown : Instance) (position : Nat) : Int :=
  if shown.collection = some (path.collectionKey position) then shown.offset else 0

def shifts (path : Path) (shown : Instance) : List (Segment × Int) :=
  path.segments.zipIdx.map fun (segment, position) => (segment, path.shiftAt shown position)

def shiftedWalk (path : Path) (shown : Instance) (value : Value) : Option Value :=
  followShifted value (path.shifts shown)

end Path

variable {shown : Instance} {path : Path}

theorem shiftedFrom?_zero (segment : Segment) (value : Value) :
    segment.shiftedFrom? 0 value = segment.from? value := by
  unfold Segment.shiftedFrom? Segment.from?
  cases value with
  | null => rfl
  | _ =>
    cases segment.index with
    | none => rfl
    | some index =>
      dsimp only
      rw [Int.add_zero]

theorem followShifted_append (value : Value) (front back : List (Segment × Int)) :
    followShifted value (front ++ back) =
      (followShifted value front).bind fun next => followShifted next back := by
  induction front generalizing value with
  | nil => rfl
  | cons entry front ih =>
    obtain ⟨segment, shift⟩ := entry
    rw [List.cons_append, followShifted, followShifted, Option.bind_assoc]
    exact Option.bind_congr fun next _ => ih next

/-- Without shifts the segments are followed as they stand. -/
theorem followShifted_zero {entries : List (Segment × Int)} (still : ∀ entry ∈ entries, entry.2 = 0)
    (value : Value) : followShifted value entries = followSegments value (entries.map Prod.fst) := by
  induction entries generalizing value with
  | nil => rfl
  | cons entry rest ih =>
    obtain ⟨here, behind⟩ := List.forall_mem_cons.1 still
    obtain ⟨segment, shift⟩ := entry
    obtain rfl : shift = 0 := here
    rw [followShifted, shiftedFrom?_zero, List.map_cons, followSegments]
    exact Option.bind_congr fun next _ => ih behind next

/-- A step is taken as its segment is followed with the shift for the key of the step. -/
theorem Step.from?_eq (step : Step) (value : Value) :
    step.from? shown value =
      step.segment.shiftedFrom? (if shown.collection = some step.key then shown.offset else 0) value := by
  unfold Step.from? Segment.shiftedFrom? Instance.shiftedIndex
  cases step.segment.index with
  | none => cases value <;> rfl
  | some index =>
    have same : (if shown.collection = some step.key then (index : Int) + shown.offset else index) =
        (index : Int) + if shown.collection = some step.key then shown.offset else 0 := by
      split
      · rfl
      · rw [Int.add_zero]
    dsimp only
    rw [same]
    cases value <;> rfl

theorem shifts_eq_steps (path : Path) (shown : Instance) :
    path.shifts shown = path.steps.map fun step =>
      (step.segment, if shown.collection = some step.key then shown.offset else 0) := by
  apply List.ext_getElem?
  intro position
  unfold Path.shifts
  rw [← Path.segments_steps, List.getElem?_map, List.getElem?_map, List.getElem?_zipIdx,
    List.getElem?_map, Option.map_map, Option.map_map]
  cases there : path.steps[position]? with
  | none => rfl
  | some step =>
    have key : path.collectionKey position = step.key := by
      unfold Path.collectionKey
      rw [there]
    simp [Path.shiftAt, key]

theorem followSteps_eq_followShifted (steps : List Step) (value : Value) :
    followSteps shown value steps = followShifted value (steps.map fun step =>
      (step.segment, if shown.collection = some step.key then shown.offset else 0)) := by
  induction steps generalizing value with
  | nil => rfl
  | cons step rest ih =>
    rw [followSteps, List.map_cons, followShifted, Step.from?_eq]
    exact Option.bind_congr fun next _ => ih next

/-- The steps of a path are followed as the shifted walk goes. -/
theorem followSteps_eq_shiftedWalk (path : Path) (shown : Instance) (value : Value) :
    followSteps shown value path.steps = path.shiftedWalk shown value := by
  unfold Path.shiftedWalk
  rw [shifts_eq_steps, followSteps_eq_followShifted]

theorem shiftedWalk_of_still {value : Value}
    (still : ∀ position < path.length, path.shiftAt shown position = 0) :
    path.shiftedWalk shown value = path.from? value := by
  unfold Path.shiftedWalk Path.from?
  have segments : (path.shifts shown).map Prod.fst = path.segments := by
    unfold Path.shifts
    rw [List.map_map]
    exact List.zipIdx_map_fst 0 path.segments
  rw [followShifted_zero, segments]
  intro entry member
  obtain ⟨⟨segment, position⟩, among, rfl⟩ := List.mem_map.1 member
  apply still
  have inside := List.snd_lt_of_mem_zipIdx among
  rwa [← Path.segments_steps, List.length_map, Path.length_steps, Nat.add_zero] at inside

theorem Value.item?_of_outside (value : Value) {items : List Value} (found : value.items? = some items)
    {index : Int} (outside : index < 0 ∨ (items.length : Int) ≤ index) : value.item? index = none := by
  unfold Value.item?
  rw [found]
  dsimp only
  split
  · rfl
  · exact List.getElem?_eq_none (by omega)

/-- An index outside the collection that the walk has reached leads to nothing. -/
theorem shiftedWalk_of_outside {value reached : Value} {items : List Value} {position index : Nat}
    {segment : Segment} (there : path.segments[position]? = some segment)
    (selects : segment.index = some index)
    (front : followShifted value ((path.shifts shown).take position) = some reached)
    (found : (reached.member? segment.name).bind Value.items? = some items)
    (outside : (index : Int) + path.shiftAt shown position < 0 ∨
      (items.length : Int) ≤ index + path.shiftAt shown position) :
    path.shiftedWalk shown value = none := by
  have here : (path.shifts shown)[position]? = some (segment, path.shiftAt shown position) := by
    unfold Path.shifts
    rw [List.getElem?_map, List.getElem?_zipIdx, there, Option.map_some, Option.map_some, Nat.zero_add]
  have inside := (List.getElem?_eq_some_iff.1 here).1
  have whole : path.shifts shown = (path.shifts shown).take position ++
      (segment, path.shiftAt shown position) :: (path.shifts shown).drop (position + 1) := by
    rw [← (List.getElem?_eq_some_iff.1 here).2, ← List.drop_eq_getElem_cons inside,
      List.take_append_drop]
  obtain ⟨collection, member, all⟩ := Option.bind_eq_some_iff.1 found
  have none : segment.shiftedFrom? (path.shiftAt shown position) reached = none := by
    unfold Segment.shiftedFrom?
    cases reached with
    | map entries =>
      dsimp only
      rw [selects, member]
      exact collection.item?_of_outside all outside
    | _ => cases member
  unfold Path.shiftedWalk
  rw [whole, followShifted_append, front, Option.bind_some, followShifted, none, Option.bind_none]

/-- The indices that steps select can be written, once they are shifted. -/
def Writable (shown : Instance) (steps : List Step) : Prop :=
  ∀ step ∈ steps, ∀ index, step.segment.index = some index →
    (shown.shiftedIndex step.key index).natAbs < writeBound

theorem writable_append {front back : List Step} :
    Writable shown (front ++ back) ↔ Writable shown front ∧ Writable shown back :=
  List.forall_mem_append

theorem writable_of_bare {steps : List Step} (bare : ∀ step ∈ steps, step.segment.index = none) :
    Writable shown steps := by
  intro step member index selects
  rw [bare step member] at selects
  cases selects

/-- The indices by which a slide of the result selects the elements behind a `>` can be written. -/
def Instance.SelectsWritable (shown : Instance) : Prop :=
  ∀ collection index, shown.selectedIndex? collection = some index → index.natAbs < writeBound

section Reasons

variable {steps : List Step} {step before : Step} {text behind : String} {value : Value}
  {absence : Absence}

theorem exists_reason_of_takeStep (writable : Writable shown [step])
    (absent : takeStep shown text behind step value = .error absence) :
    ∃ reason, absence.reason = .ok reason := by
  unfold takeStep at absent
  split at absent
  · cases absent
    exact ⟨_, rfl⟩
  · split at absent
    · cases absent
      exact ⟨_, rfl⟩
    · split at absent
      · cases absent
      · rename_i index selects
        dsimp only at absent
        split at absent
        · cases absent
          have bound := writable step List.mem_cons_self index selects
          unfold Absence.reason write
          dsimp only
          rw [if_pos bound]
          exact ⟨_, rfl⟩
        · cases absent

theorem exists_reason_of_crossContext (selects : shown.SelectsWritable)
    (absent : crossContext shown step value = .error absence) :
    ∃ reason, absence.reason = .ok reason := by
  unfold crossContext at absent
  split at absent
  · cases absent
  · split at absent
    · cases absent
      exact ⟨_, rfl⟩
    · rename_i index selected
      split at absent
      · cases absent
        unfold Absence.reason write
        dsimp only
        rw [if_pos (selects step.key index selected)]
        exact ⟨_, rfl⟩
      · cases absent

/-- What stops one after the other stops for a reason that can be written, if both do. -/
theorem exists_reason_of_bind {first : Except Absence Value} {next : Value → Except Absence Value}
    (here : ∀ other, first = .error other → ∃ reason, other.reason = .ok reason)
    (behind : ∀ start, next start = .error absence → ∃ reason, absence.reason = .ok reason)
    (absent : (first >>= next) = .error absence) : ∃ reason, absence.reason = .ok reason := by
  cases first with
  | error other =>
    cases absent
    exact here absence rfl
  | ok start => exact behind start absent

theorem exists_reason_of_takeSteps (writable : Writable shown steps)
    (selects : ∀ step ∈ steps, step.join = some .context → shown.SelectsWritable)
    (absent : takeSteps shown text before steps value = .error absence) :
    ∃ reason, absence.reason = .ok reason := by
  induction steps generalizing before value with
  | nil => cases absent
  | cons step rest ih =>
    obtain ⟨here, behind⟩ := List.forall_mem_cons.1 writable
    obtain ⟨crosses, further⟩ := List.forall_mem_cons.1 selects
    have taken (start : Value)
        (stuck : (takeStep shown text before.key step start >>= takeSteps shown text step rest) =
          .error absence) : ∃ reason, absence.reason = .ok reason :=
      exists_reason_of_bind (fun _ => exists_reason_of_takeStep (List.forall_mem_singleton.2 here))
        (fun _ => ih behind further) stuck
    rw [takeSteps] at absent
    split at absent
    · rename_i joined
      exact exists_reason_of_bind (fun _ => exists_reason_of_crossContext (crosses joined)) taken absent
    · exact taken value absent

/-- Going on with a path stops for a reason that can be written. -/
theorem exists_reason_of_continueFrom {depth : Nat}
    (writable : Writable shown (path.chunks.drop depth).flatten)
    (selects : ∀ step ∈ (path.chunks.drop depth).flatten.tail, step.join = some .context →
      shown.SelectsWritable)
    (absent : path.continueFrom shown depth value = .error absence) :
    ∃ reason, absence.reason = .ok reason := by
  unfold Path.continueFrom at absent
  cases left : (path.chunks.drop depth).flatten with
  | nil =>
    rw [left] at absent
    cases absent
  | cons step rest =>
    rw [left] at absent writable selects
    obtain ⟨here, behind⟩ := List.forall_mem_cons.1 writable
    exact exists_reason_of_bind
      (fun _ => exists_reason_of_takeStep (List.forall_mem_singleton.2 here))
      (fun _ => exists_reason_of_takeSteps behind selects) absent

theorem exists_reason_of_plain (plain : ∀ entry ∈ path.rest, entry.1 = .member)
    (writable : Writable shown path.steps) (absent : path.continueFrom shown 0 value = .error absence) :
    ∃ reason, absence.reason = .ok reason := by
  have whole : (path.chunks.drop 0).flatten = path.steps := Path.flatten_chunkSteps path.steps
  refine exists_reason_of_continueFrom (whole ▸ writable) (fun step member crosses => ?_) absent
  rw [whole] at member
  exact absurd crosses (Path.join_of_mem_steps plain step (List.mem_of_mem_tail member))

/-- A path without `>` is taken step by step from the root. -/
theorem continueFrom_of_plain (plain : ∀ entry ∈ path.rest, entry.1 = .member) (value : Value) :
    path.continueFrom shown 0 value = takeSteps shown path.text default path.steps value := by
  have whole : (path.chunks.drop 0).flatten = path.steps := by
    rw [chunks_of_plain plain]
    exact List.append_nil _
  unfold Path.continueFrom
  rw [whole, Path.steps, takeSteps]
  rfl

/-- Steps without `>` are taken whatever elements a slide stands below. -/
theorem takeSteps_context (plain : ∀ step ∈ steps, step.join ≠ some .context) (context : ContextPath) :
    takeSteps { shown with context } text before steps value =
      takeSteps shown text before steps value := by
  induction steps generalizing before value with
  | nil => rfl
  | cons step rest ih =>
    have here := plain step List.mem_cons_self
    have same (next : Value) := @ih step next fun other member => plain other (List.mem_cons_of_mem _ member)
    rw [takeSteps, takeSteps, if_neg here, if_neg here]
    simp only [same]
    rfl

end Reasons

section Resolving

variable {resolver : Resolver} {cache : ContextCache}

theorem valueOf_of_plain (plain : ∀ entry ∈ path.rest, entry.1 = .member) :
    (resolver.valueOf path shown cache).1 =
      (path.continueFrom shown 0 resolver.root).mapError Absence.obstacle :=
  valueOf_of_resolved (resolvePath_of_plain plain resolver.root cache)

theorem valueOf_context (plain : ∀ entry ∈ path.rest, entry.1 = .member) (context : ContextPath)
    (other : ContextCache) :
    (resolver.valueOf path { shown with context } other).1 = (resolver.valueOf path shown cache).1 := by
  rw [valueOf_of_plain plain, valueOf_of_plain plain, continueFrom_of_plain plain,
    continueFrom_of_plain plain, takeSteps_context (Path.join_of_mem_steps plain)]

/-- A path without `>` has the value that the shifted walk leads to, and hides when it leads to
nothing. -/
theorem valueOf_eq_walk (plain : ∀ entry ∈ path.rest, entry.1 = .member)
    (writable : Writable shown path.steps) :
    match path.shiftedWalk shown resolver.root with
    | some value => (resolver.valueOf path shown cache).1 = .ok value
    | none => ∃ reason, (resolver.valueOf path shown cache).1 = .error (.absent reason) := by
  obtain ⟨outcome, resolved, reached⟩ := @resolvePath_absolute shown path plain resolver.root cache
  obtain rfl : path.continueFrom shown 0 resolver.root = outcome :=
    Except.ok.inj ((resolvePath_of_plain plain resolver.root cache).symm.trans resolved)
  rw [← followSteps_eq_shiftedWalk, ← reached, valueOf_of_plain plain]
  cases taken : path.continueFrom shown 0 resolver.root with
  | ok value => rfl
  | error absence =>
    obtain ⟨reason, written⟩ := exists_reason_of_plain plain writable taken
    refine ⟨reason, ?_⟩
    simp only [Except.mapError, Absence.obstacle, written]

theorem writable_of_lt (offset : shown.offset.natAbs < tenTo 4299)
    (indices : ∀ segment ∈ path.segments, ∀ index, segment.index = some index → index < tenTo 4299) :
    Writable shown path.steps := by
  intro step member index selects
  have bound : writeBound = tenTo 4299 * 10 := tenTo_succ 4299
  have small : index < tenTo 4299 := by
    apply indices step.segment ?_ index selects
    rw [← Path.segments_steps]
    exact List.mem_map_of_mem member
  rw [bound]
  unfold Instance.shiftedIndex
  split <;> omega

/-- On every slide of the result a path without `>` has the value that its shifted walk leads to,
and hides when that walk leads to nothing, as it does when a shifted index lies outside the
collection reached there. The elements that the slide stands below do not count, and without shifts
the walk is the plain one. -/
theorem valueOf_iff_walk (text : List Char) (path : Path) (read : Path.read text = .ok path)
    (plain : path.usesContext = false) (resolver : Resolver) (shown : Instance)
    (offset : shown.offset.natAbs < tenTo 4299)
    (indices : ∀ segment ∈ path.segments, ∀ index, segment.index = some index → index < tenTo 4299)
    (cache : ContextCache) :
    (∀ value, (resolver.valueOf path shown cache).1 = .ok value ↔
      path.shiftedWalk shown resolver.root = some value) ∧
    ((∃ reason, (resolver.valueOf path shown cache).1 = .error (.absent reason)) ↔
      path.shiftedWalk shown resolver.root = none) ∧
    (∀ context other, (resolver.valueOf path { shown with context } other).1 =
      (resolver.valueOf path shown cache).1) ∧
    ((∀ position < path.length, path.shiftAt shown position = 0) →
      walk resolver.root text = .ok (path.shiftedWalk shown resolver.root)) ∧
    ∀ (position : Nat) (segment : Segment) (index : Nat) (reached : Value) (items : List Value),
      path.segments[position]? = some segment → segment.index = some index →
      followShifted resolver.root ((path.shifts shown).take position) = some reached →
      (reached.member? segment.name).bind Value.items? = some items →
      (index : Int) + path.shiftAt shown position < 0 ∨
        (items.length : Int) ≤ index + path.shiftAt shown position →
      ∃ reason, (resolver.valueOf path shown cache).1 = .error (.absent reason) := by
  have alone : Path.readAbsolute text = .ok path := by
    unfold Path.readAbsolute
    rw [read]
    change (if path.usesContext then _ else _) = _
    rw [plain]
    rfl
  have members := Path.join_of_mem_rest plain
  have outcome := @valueOf_eq_walk shown path resolver cache members (writable_of_lt offset indices)
  refine ⟨?_, ?_, valueOf_context members, fun still => ?_, ?_⟩
  · intro value
    cases walked : path.shiftedWalk shown resolver.root with
    | some found =>
      rw [walked] at outcome
      rw [outcome, Except.ok.injEq, Option.some.injEq]
    | none =>
      rw [walked] at outcome
      obtain ⟨reason, hides⟩ := outcome
      simp [hides]
  · cases walked : path.shiftedWalk shown resolver.root with
    | some found =>
      rw [walked] at outcome
      simp [outcome]
    | none =>
      rw [walked] at outcome
      simp [outcome]
  · rw [shiftedWalk_of_still still]
    exact Path.walk_of_read alone resolver.root
  · intro position segment index reached items there selects front found outside
    rw [shiftedWalk_of_outside there selects front found outside] at outcome
    exact outcome

def namedItems : Resolver :=
  ⟨.map [(.text "w", .list [.map [(.text "n", .text "a")], .map [(.text "n", .text "b")]])], .empty, false⟩

/-- A page of `w` from an offset on, below an element of another collection. -/
def pageFrom (offset : Int) : Instance :=
  ⟨1, 0, [⟨"v", 3⟩], offset, none, false, some "w"⟩

def pageName : Path :=
  ⟨⟨"w", some 0⟩, [(.member, ⟨"n", none⟩)]⟩

theorem valueOf_iff_walk_name :
    (namedItems.valueOf pageName (pageFrom 1) []).1 = .ok (.text "b") ∧
      ∃ reason, (namedItems.valueOf pageName (pageFrom (-1)) []).1 = .error (.absent reason) := by
  have read : Path.read "w[0].n".toList = .ok pageName := by decide +kernel
  have one : 1 < tenTo 4299 := by
    have positive := tenTo_pos 4298
    have next : tenTo 4299 = tenTo 4298 * 10 := tenTo_succ 4298
    omega
  have indices : ∀ segment ∈ pageName.segments, ∀ index, segment.index = some index →
      index < tenTo 4299 := by
    simp [Path.segments, pageName]
    omega
  have below : (pageFrom (-1)).offset.natAbs < tenTo 4299 := by simpa [pageFrom] using one
  have second := valueOf_iff_walk _ _ read (by decide) namedItems (pageFrom 1) one indices []
  have before := valueOf_iff_walk _ _ read (by decide) namedItems (pageFrom (-1)) below indices []
  exact ⟨(second.1 _).2 rfl, before.2.1.2 rfl⟩

end Resolving

end DeckBinding
