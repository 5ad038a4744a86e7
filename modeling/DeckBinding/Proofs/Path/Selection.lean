import DeckBinding.Path.Walk
import DeckBinding.Proofs.Path.Steps

set_option autoImplicit false

namespace DeckBinding

open DeckBinding.Number DeckBinding.Text

namespace Path

def ofName (name : String) : Path :=
  ⟨⟨name, none⟩, []⟩

/-- The member of an element of the collection at a path. -/
def elementMember (path : Path) (member : String) (index : Nat) : Path :=
  (path.withLastIndex (some index)).append .member (ofName member)

/-- An element of a collection below the current element of the one at a path. -/
def elementBelow (path other : Path) (index : Nat) : Path :=
  path.append .context (other.withLastIndex (some index))

theorem wellFormed_ofName {name : String} (valid : isName name = true) : (ofName name).WellFormed := by
  refine ⟨⟨valid, ?_⟩, ?_⟩
  · simp [ofName]
  · simp [ofName]

theorem text_elementMember {path : Path} (dotted : path.Dotted) (member : String) (index : Nat) :
    (path.elementMember member index).text =
      path.text ++ "[" ++ toString index ++ "]" ++ "." ++ member := by
  have last : (ofName member).text = member := String.append_empty
  rw [elementMember, text_append, text_withLastIndex dotted, last]
  rfl

theorem text_elementBelow {path other : Path} (below : other.Dotted) (index : Nat) :
    (path.elementBelow other index).text =
      path.text ++ ">" ++ other.text ++ "[" ++ toString index ++ "]" := by
  rw [elementBelow, text_append, text_withLastIndex below]
  simp only [String.append_assoc]
  rfl

theorem wellFormed_elementMember {path : Path} (dotted : path.Dotted) {member : String}
    (valid : isName member = true) {index : Nat} (bound : index < writeBound) :
    (path.elementMember member index).WellFormed :=
  wellFormed_append (wellFormed_withLastIndex dotted.wellFormed bound) (wellFormed_ofName valid) _

theorem wellFormed_elementBelow {path other : Path} (dotted : path.Dotted) (below : other.Dotted)
    {index : Nat} (bound : index < writeBound) : (path.elementBelow other index).WellFormed :=
  wellFormed_append dotted.wellFormed (wellFormed_withLastIndex below.wellFormed bound) _

theorem segments_stepsFrom (stem : String) (rest : List (Join × Segment)) :
    (stepsFrom stem rest).map Step.segment = rest.map (·.2) := by
  induction rest generalizing stem with
  | nil => rfl
  | cons entry rest ih =>
    obtain ⟨join, segment⟩ := entry
    rw [stepsFrom, List.map_cons, List.map_cons, ih]

theorem segments_steps (path : Path) : path.steps.map Step.segment = path.segments := by
  rw [steps, List.map_cons, segments_stepsFrom, segments]

theorem Dotted.index_of_mem_segments {path : Path} (dotted : path.Dotted) :
    ∀ segment ∈ path.segments, segment.index = none := by
  intro segment member
  rcases List.mem_cons.1 member with rfl | later
  · exact dotted.first.2
  · obtain ⟨entry, among, rfl⟩ := List.mem_map.1 later
    exact dotted.bare entry among

theorem Dotted.bare_of_segments {path : Path} (dotted : path.Dotted) {steps : List Step}
    (same : steps.map Step.segment = path.segments) : ∀ step ∈ steps, step.segment.index = none := by
  intro step member
  apply dotted.index_of_mem_segments
  rw [← same]
  exact List.mem_map_of_mem member

theorem join_of_mem_rest_withLastIndex {path : Path} (dotted : path.Dotted) (index : Option Nat) :
    ∀ entry ∈ (path.withLastIndex index).rest, entry.1 = .member := by
  obtain ⟨first, rest⟩ := path
  rcases List.eq_nil_or_concat rest with rfl | ⟨front, ⟨join, segment⟩, rfl⟩
  · exact fun entry member => absurd member List.not_mem_nil
  · rw [List.concat_eq_append] at dotted ⊢
    simp only [withLastIndex, List.getLast?_concat, List.dropLast_concat]
    intro entry member
    rcases List.mem_append.1 member with earlier | last
    · exact (dotted.rest entry (List.mem_append_left _ earlier)).1
    · rw [List.mem_singleton.1 last]
      exact (dotted.rest (join, segment) (by simp)).1

theorem join_of_mem_rest_fromElement {path other : Path} (dotted : path.Dotted)
    (plain : ∀ entry ∈ other.rest, entry.1 = .member) (index : Nat) :
    ∀ entry ∈ ((path.withLastIndex (some index)).append .member other).rest, entry.1 = .member := by
  intro entry among
  rcases List.mem_append.1 among with earlier | behind
  · exact join_of_mem_rest_withLastIndex dotted _ entry earlier
  · rcases List.mem_cons.1 behind with rfl | later
    · rfl
    · exact plain entry later

theorem join_of_mem_rest_elementMember {path : Path} (dotted : path.Dotted) (member : String)
    (index : Nat) : ∀ entry ∈ (path.elementMember member index).rest, entry.1 = .member :=
  join_of_mem_rest_fromElement dotted (by simp [ofName]) index

/-- Behind a selected element the keys go on from the marked key of its collection. -/
theorem Dotted.stem_withLastIndex {path : Path} (dotted : path.Dotted) (index : Nat) :
    stemFrom ((path.withLastIndex (some index)).first.name ++ (path.withLastIndex (some index)).first.pin)
      (path.withLastIndex (some index)).rest = path.text ++ "[]" := by
  obtain ⟨first, rest⟩ := path
  have bareFirst : first.index = none := dotted.first.2
  rcases List.eq_nil_or_concat rest with rfl | ⟨front, ⟨join, segment⟩, rfl⟩
  · simp [withLastIndex, stemFrom, text, restText, Segment.text, Segment.pin, bareFirst]
  · rw [List.concat_eq_append] at dotted
    have bare : segment.index = none := dotted.bare (join, segment) (by simp)
    have bareFront : ∀ entry ∈ front, entry.2.index = none :=
      fun entry member => dotted.bare entry (List.mem_append_left _ member)
    simp only [withLastIndex, List.concat_eq_append, List.getLast?_concat, List.dropLast_concat,
      stemFrom_append, stemFrom_of_bare bareFront, stemFrom, text, restText_append, restText,
      Segment.text, Segment.pin, bareFirst, bare, Option.isSome_none, Option.isSome_some,
      Bool.false_eq_true, if_false, if_true, String.append_empty, String.append_assoc]

/-- The steps of a path from an element of a collection that is selected by its index. -/
theorem exists_steps_fromElement {path : Path} (dotted : path.Dotted) (other : Path) :
    ∃ front last, path.steps = front ++ [last] ∧ last.key = path.text ∧
      ∀ index, ((path.withLastIndex (some index)).append .member other).steps =
        front ++ [last.pinned index] ++
          stepsFrom (path.text ++ "[]") ((.member, other.first) :: other.rest) := by
  obtain ⟨front, last, steps, key, pinned⟩ := exists_lastStep dotted
  refine ⟨front, last, steps, key, fun index => ?_⟩
  rw [steps_append, pinned, dotted.stem_withLastIndex]

theorem exists_steps_elementMember {path : Path} (dotted : path.Dotted) (member : String) :
    ∃ front last, path.steps = front ++ [last] ∧ last.key = path.text ∧
      ∀ index, ∃ key, (path.elementMember member index).steps =
        front ++ [last.pinned index] ++ [⟨some .member, ⟨member, none⟩, key⟩] := by
  obtain ⟨front, last, steps, key, selected⟩ := exists_steps_fromElement dotted (ofName member)
  exact ⟨front, last, steps, key, fun index => ⟨_, selected index⟩⟩

/-- The steps of a path behind the current element of another one. -/
def stepsBelow (path other : Path) : List Step :=
  stepsFrom path.text ((.context, other.first) :: other.rest)

theorem segments_stepsBelow (path other : Path) :
    (path.stepsBelow other).map Step.segment = other.segments := by
  rw [stepsBelow, segments_stepsFrom]
  rfl

theorem steps_behind {path : Path} (dotted : path.Dotted) (other : Path) :
    (path.append .context other).steps = path.steps ++ path.stepsBelow other := by
  rw [steps_append, dotted.stem, stepsBelow]

theorem steps_elementBelow {path : Path} (dotted : path.Dotted) (other : Path) (index : Nat) :
    (path.elementBelow other index).steps =
      path.steps ++ path.stepsBelow (other.withLastIndex (some index)) :=
  steps_behind dotted _

theorem exists_stepsBelow (path : Path) {other : Path} (below : other.Dotted) :
    ∃ front last, path.stepsBelow other = front ++ [last] ∧
      last.key = path.text ++ ">" ++ other.text ∧
      ∀ index, path.stepsBelow (other.withLastIndex (some index)) = front ++ [last.pinned index] :=
  exists_lastStep_behind below path.text .context

/-- Steps of which one selects an element refer to its collection. -/
theorem references_of_steps {path : Path} {front back : List Step} {last : Step} {index : Nat}
    (steps : path.steps = front ++ [last.pinned index] ++ back)
    (bare : ∀ step ∈ front ++ back, step.segment.index = none) :
    path.references = [(last.key, index)] := by
  have none (part : List Step) (within : ∀ step ∈ part, step ∈ front ++ back) :
      part.filterMap (fun step => step.segment.index.map fun index => (step.key, index)) = [] := by
    rw [List.filterMap_eq_nil_iff]
    intro step member
    rw [bare step (within step member)]
    rfl
  have first := none front fun step member => List.mem_append_left _ member
  have second := none back fun step member => List.mem_append_right _ member
  rw [references, steps, List.filterMap_append, List.filterMap_append, first, second]
  rfl

theorem references_elementMember {path : Path} (dotted : path.Dotted) (member : String)
    (index : Nat) : (path.elementMember member index).references = [(path.text, index)] := by
  obtain ⟨front, last, steps, key, selected⟩ := exists_steps_elementMember dotted member
  obtain ⟨_, whole⟩ := selected index
  rw [← key]
  apply references_of_steps whole
  intro step among
  rcases List.mem_append.1 among with earlier | behind
  · apply dotted.bare_of_segments (segments_steps path) step
    rw [steps]
    exact List.mem_append_left _ earlier
  · rw [List.mem_singleton.1 behind]

theorem references_elementBelow {path other : Path} (dotted : path.Dotted) (below : other.Dotted)
    (index : Nat) :
    (path.elementBelow other index).references = [(path.text ++ ">" ++ other.text, index)] := by
  obtain ⟨front, last, steps, key, selected⟩ := exists_stepsBelow path below
  have whole : (path.elementBelow other index).steps =
      (path.steps ++ front) ++ [last.pinned index] ++ [] := by
    rw [steps_elementBelow dotted, selected, List.append_nil, List.append_assoc]
  rw [← key]
  apply references_of_steps whole
  intro step among
  rw [List.append_nil] at among
  rcases List.mem_append.1 among with earlier | later
  · exact dotted.bare_of_segments (segments_steps path) step earlier
  · apply below.bare_of_segments (segments_stepsBelow path other) step
    rw [steps]
    exact List.mem_append_left _ later

theorem usesContext_elementMember {path : Path} (dotted : path.Dotted) (member : String)
    (index : Nat) : (path.elementMember member index).usesContext = false := by
  rw [usesContext, List.any_eq_false]
  intro entry among
  rw [join_of_mem_rest_elementMember dotted member index entry among]
  decide

theorem usesContext_elementBelow (path other : Path) (index : Nat) :
    (path.elementBelow other index).usesContext = true := by
  rw [usesContext, List.any_eq_true]
  exact ⟨(.context, (other.withLastIndex (some index)).first),
    List.mem_append_right _ List.mem_cons_self, rfl⟩

theorem exists_chunkSteps_cons (step : Step) (rest : List Step) :
    ∃ chunk more, chunkSteps (step :: rest) = (step :: chunk) :: more := by
  rw [chunkSteps]
  split
  · exact ⟨_, _, rfl⟩
  · exact ⟨_, _, rfl⟩
  · split
    · exact ⟨_, _, rfl⟩
    · exact ⟨_, _, rfl⟩

/-- A step behind a `>` begins a new part. -/
theorem chunkSteps_append {step : Step} (crosses : step.join = some .context)
    (front back : List Step) :
    chunkSteps (front ++ step :: back) = chunkSteps front ++ chunkSteps (step :: back) := by
  induction front with
  | nil => rfl
  | cons first rest ih =>
    rw [List.cons_append, chunkSteps, ih]
    cases rest with
    | nil =>
      obtain ⟨chunk, more, starts⟩ := exists_chunkSteps_cons step back
      rw [starts]
      simp [chunkSteps, crosses]
    | cons second rest =>
      obtain ⟨chunk, more, starts⟩ := exists_chunkSteps_cons second rest
      rw [starts]
      conv => rhs; rw [chunkSteps, starts]
      by_cases cut : second.join = some .context
      · simp [cut]
      · simp [cut]

theorem Dotted.chunkSteps_steps {path : Path} (dotted : path.Dotted) :
    chunkSteps path.steps = [path.steps] :=
  chunkSteps_of_plain (join_of_mem_stepsFrom fun entry member => (dotted.rest entry member).1)

/-- A path behind a `>` is a part of its own. -/
theorem chunks_behind {path other : Path} (dotted : path.Dotted)
    (plain : ∀ entry ∈ other.rest, entry.1 = .member) :
    (path.append .context other).chunks = [path.steps, path.stepsBelow other] := by
  have second : chunkSteps (path.stepsBelow other) = [path.stepsBelow other] :=
    chunkSteps_of_plain (join_of_mem_stepsFrom plain)
  rw [chunks, steps_behind dotted, ← List.singleton_append, ← second]
  conv => rhs; lhs; rw [← dotted.chunkSteps_steps]
  exact chunkSteps_append rfl _ _

theorem chunks_elementBelow {path other : Path} (dotted : path.Dotted) (below : other.Dotted)
    (index : Nat) :
    (path.elementBelow other index).chunks =
      [path.steps, path.stepsBelow (other.withLastIndex (some index))] :=
  chunks_behind dotted (join_of_mem_rest_withLastIndex below _)

end Path

end DeckBinding
