import DeckBinding.Proofs.Path.Selection
import DeckBinding.Proofs.Text.Cut
import DeckBinding.Resolution.Walk

set_option autoImplicit false

namespace DeckBinding

open DeckBinding.Number DeckBinding.Text

def partText (part : List Step) : String :=
  ".".intercalate (part.map fun step => step.segment.text)

/-- Steps that select no element. -/
def Bare (part : List Step) : Prop :=
  ∀ step ∈ part, step.segment.index = none

instance (part : List Step) : Decidable (Bare part) :=
  inferInstanceAs (Decidable (∀ step ∈ part, step.segment.index = none))

namespace Path

/-- Parts of a path: a `>` stands in front of each one but the first, and none inside. -/
structure Parted (parts : List (List Step)) : Prop where
  inside : ∀ part ∈ parts, ∃ first rest, part = first :: rest ∧ ∀ step ∈ rest, step.join ≠ some .context
  between : ∀ part ∈ parts.tail, ∃ first rest, part = first :: rest ∧ first.join = some .context

theorem exists_chunkSteps_cons_cons (step next : Step) (rest : List Step) :
    ∃ part more, chunkSteps (next :: rest) = (next :: part) :: more ∧
      chunkSteps (step :: next :: rest) =
        if next.join = some .context then [step] :: (next :: part) :: more
        else (step :: next :: part) :: more := by
  obtain ⟨part, more, starts⟩ := exists_chunkSteps_cons next rest
  refine ⟨part, more, starts, ?_⟩
  conv => lhs; rw [chunkSteps, starts]

theorem parted_chunkSteps (steps : List Step) : Parted (chunkSteps steps) := by
  induction steps with
  | nil => exact ⟨fun part member => absurd member List.not_mem_nil,
      fun part member => absurd member List.not_mem_nil⟩
  | cons step rest ih =>
    cases rest with
    | nil =>
      refine ⟨fun part member => ?_, fun part member => absurd member List.not_mem_nil⟩
      rw [List.mem_singleton.1 member]
      exact ⟨step, [], rfl, fun other among => absurd among List.not_mem_nil⟩
    | cons next rest =>
      obtain ⟨part, more, starts, whole⟩ := exists_chunkSteps_cons_cons step next rest
      rw [starts] at ih
      rw [whole]
      split
      · rename_i crosses
        refine ⟨fun other member => ?_, fun other member => ?_⟩
        · rcases List.mem_cons.1 member with rfl | later
          · exact ⟨step, [], rfl, fun other among => absurd among List.not_mem_nil⟩
          · exact ih.inside other later
        · rcases List.mem_cons.1 member with rfl | later
          · exact ⟨next, part, rfl, crosses⟩
          · exact ih.between other later
      · rename_i stays
        refine ⟨fun other member => ?_, ih.between⟩
        rcases List.mem_cons.1 member with rfl | later
        · refine ⟨step, next :: part, rfl, ?_⟩
          intro inner among
          rcases List.mem_cons.1 among with rfl | behind
          · exact stays
          · obtain ⟨first, others, same, plain⟩ := ih.inside _ List.mem_cons_self
            cases same
            exact plain inner behind
        · exact ih.inside other (List.mem_cons_of_mem _ later)

section Cuts

variable {path : Path} {front back : List (List Step)} {part : List Step}

theorem flatten_chunks (path : Path) : path.chunks.flatten = path.steps :=
  flatten_chunkSteps path.steps

theorem steps_of_chunks (split : path.chunks = front ++ part :: back) :
    path.steps = front.flatten ++ (part ++ back.flatten) := by
  rw [← flatten_chunks, split, List.flatten_append, List.flatten_cons]

theorem exists_cons_of_mem_chunks (member : part ∈ path.chunks) :
    ∃ first rest, part = first :: rest ∧ ∀ step ∈ rest, step.join ≠ some .context :=
  (parted_chunkSteps path.steps).inside part member

theorem ne_nil_of_mem_chunks (member : part ∈ path.chunks) : part ≠ [] := by
  obtain ⟨first, rest, rfl, _⟩ := exists_cons_of_mem_chunks member
  exact List.cons_ne_nil first rest

/-- A `>` stands in front of a part behind other ones. -/
theorem exists_crossing (split : path.chunks = front ++ part :: back) (behind : front ≠ []) :
    ∃ first rest, part = first :: rest ∧ first.join = some .context := by
  apply (parted_chunkSteps path.steps).between part
  change part ∈ path.chunks.tail
  rw [split, List.tail_append_of_ne_nil behind]
  exact List.mem_append_right _ List.mem_cons_self

end Cuts

/-- Where steps are cut does not depend on what the last one selects. -/
theorem exists_chunkSteps_concat (front : List Step) (join : Option Join) :
    ∃ ahead inner, ∀ last : Step, last.join = join →
      chunkSteps (front ++ [last]) = ahead ++ [inner ++ [last]] := by
  induction front with
  | nil => exact ⟨[], [], fun last _ => rfl⟩
  | cons step rest ih =>
    obtain ⟨ahead, inner, parts⟩ := ih
    cases rest with
    | nil =>
      by_cases crosses : join = some .context
      · refine ⟨[[step]], [], fun last same => ?_⟩
        simp [chunkSteps, same, crosses]
      · refine ⟨[], [step], fun last same => ?_⟩
        simp [chunkSteps, same, crosses]
    | cons next rest =>
      by_cases crosses : next.join = some .context
      · refine ⟨[step] :: ahead, inner, fun last same => ?_⟩
        obtain ⟨part, more, starts, whole⟩ := exists_chunkSteps_cons_cons step next (rest ++ [last])
        rw [List.cons_append, List.cons_append, whole, if_pos crosses, ← starts]
        exact congrArg ([step] :: ·) (parts last same)
      · cases ahead with
        | nil =>
          refine ⟨[], step :: inner, fun last same => ?_⟩
          obtain ⟨part, more, starts, whole⟩ := exists_chunkSteps_cons_cons step next (rest ++ [last])
          have here := starts.symm.trans (parts last same)
          rw [List.cons_append, List.cons_append, whole, if_neg crosses]
          obtain ⟨same, none⟩ := List.cons.inj here
          rw [same, none]
          rfl
        | cons first ahead =>
          refine ⟨(step :: first) :: ahead, inner, fun last same => ?_⟩
          obtain ⟨part, more, starts, whole⟩ := exists_chunkSteps_cons_cons step next (rest ++ [last])
          have here := starts.symm.trans (parts last same)
          rw [List.cons_append, List.cons_append, whole, if_neg crosses]
          obtain ⟨same, others⟩ := List.cons.inj here
          rw [same, others]
          rfl

/-- Another index on the last segment changes the last step alone. -/
theorem exists_steps_withLastIndex (path : Path) :
    ∃ (front : List Step) (last : Step), ∀ index, (path.withLastIndex index).steps =
      front ++ [{ last with segment := ⟨last.segment.name, index⟩ }] := by
  obtain ⟨first, rest⟩ := path
  rcases List.eq_nil_or_concat rest with rfl | ⟨front, ⟨join, segment⟩, rfl⟩
  · exact ⟨[], ⟨none, first, first.name⟩, fun index => rfl⟩
  · refine ⟨⟨none, first, first.name⟩ :: stepsFrom (first.name ++ first.pin) front,
      ⟨some join, segment, stemFrom (first.name ++ first.pin) front ++
        String.singleton join.symbol ++ segment.name⟩, fun index => ?_⟩
    simp [withLastIndex, steps, stepsFrom_append, stepsFrom]

/-- The parts of a path that selects no element at its end, and those of the path that selects
one. -/
theorem exists_parts {path : Path} (bare : path.withLastIndex none = path) :
    ∃ ahead inner last, last.segment.index = none ∧ path.chunks = ahead ++ [inner ++ [last]] ∧
      ∀ index, (path.withLastIndex (some index)).chunks = ahead ++ [inner ++ [last.pinned index]] := by
  obtain ⟨front, last, steps⟩ := exists_steps_withLastIndex path
  obtain ⟨ahead, inner, parts⟩ := exists_chunkSteps_concat front last.join
  refine ⟨ahead, inner, { last with segment := ⟨last.segment.name, none⟩ }, rfl, ?_, fun index => ?_⟩
  · have own := steps none
    rw [bare] at own
    rw [chunks, own]
    exact parts _ rfl
  · rw [chunks, steps]
    exact parts _ rfl

theorem partText_cons_cons (step next : Step) (rest : List Step) :
    partText (step :: next :: rest) = step.segment.text ++ "." ++ partText (next :: rest) :=
  String.intercalate_cons_cons

theorem text_chunkSteps (stem : String) (rest : List (Join × Segment)) (first : Step) :
    ">".intercalate ((chunkSteps (first :: stepsFrom stem rest)).map partText) =
      first.segment.text ++ restText rest := by
  induction rest generalizing stem first with
  | nil => simp [stepsFrom, chunkSteps, partText, restText]
  | cons entry rest ih =>
    obtain ⟨join, segment⟩ := entry
    have behind := ih (stem ++ String.singleton join.symbol ++ segment.name ++ segment.pin)
      ⟨some join, segment, stem ++ String.singleton join.symbol ++ segment.name⟩
    obtain ⟨part, more, starts, whole⟩ := exists_chunkSteps_cons_cons first
      ⟨some join, segment, stem ++ String.singleton join.symbol ++ segment.name⟩
      (stepsFrom (stem ++ String.singleton join.symbol ++ segment.name ++ segment.pin) rest)
    rw [starts] at behind
    rw [stepsFrom, whole, restText]
    cases join with
    | context =>
      rw [if_pos rfl, List.map_cons, List.map_cons, String.intercalate_cons_cons]
      rw [List.map_cons] at behind
      rw [behind]
      simp only [String.append_assoc]
      rfl
    | member =>
      rw [if_neg (by simp), List.map_cons, partText_cons_cons, String.intercalate_cons_append]
      rw [List.map_cons] at behind
      rw [behind]
      simp only [String.append_assoc]
      rfl

theorem text_eq_parts (path : Path) : path.text = ">".intercalate (path.chunks.map partText) :=
  (text_chunkSteps _ path.rest ⟨none, path.first, path.first.name⟩).symm

theorem WellFormed.segment {path : Path} (wellFormed : path.WellFormed) {step : Step}
    (member : step ∈ path.steps) : step.segment.WellFormed := by
  have among : step.segment ∈ path.segments := by
    rw [← segments_steps]
    exact List.mem_map_of_mem member
  rcases List.mem_cons.1 among with same | later
  · rw [same]
    exact wellFormed.1
  · obtain ⟨entry, inside, same⟩ := List.mem_map.1 later
    rw [← same]
    exact wellFormed.2 entry inside

theorem mem_steps_of_mem_chunks {path : Path} {part : List Step} (member : part ∈ path.chunks)
    {step : Step} (among : step ∈ part) : step ∈ path.steps := by
  rw [← flatten_chunks]
  exact List.mem_flatten_of_mem member among

def ofPart (first : Step) (rest : List Step) : Path :=
  ⟨first.segment, rest.map fun step => (.member, step.segment)⟩

theorem wellFormed_ofPart {first : Step} {rest : List Step}
    (wellFormed : ∀ step ∈ first :: rest, step.segment.WellFormed) : (ofPart first rest).WellFormed := by
  refine ⟨wellFormed first List.mem_cons_self, ?_⟩
  intro entry member
  obtain ⟨step, among, rfl⟩ := List.mem_map.1 member
  exact wellFormed step (List.mem_cons_of_mem _ among)

theorem text_ofPart (first : Step) (rest : List Step) :
    (ofPart first rest).text = partText (first :: rest) := by
  induction rest generalizing first with
  | nil => simp [ofPart, text, restText, partText]
  | cons next rest ih =>
    rw [partText_cons_cons, ← ih]
    simp only [ofPart, text, List.map_cons, restText, String.append_assoc]
    rfl

/-- A part of a path reads as a path of its own. -/
theorem exists_of_partText {part : List Step} (full : part ≠ [])
    (wellFormed : ∀ step ∈ part, step.segment.WellFormed) :
    ∃ path, readAbsolute (partText part).toList = .ok path ∧
      path.segments = part.map Step.segment := by
  cases part with
  | nil => exact absurd rfl full
  | cons first rest =>
    have valid := wellFormed_ofPart wellFormed
    have plain : (ofPart first rest).usesContext = false := by
      rw [usesContext, List.any_eq_false]
      intro entry member
      obtain ⟨step, _, rfl⟩ := List.mem_map.1 member
      exact Bool.false_ne_true
    refine ⟨ofPart first rest, ?_, ?_⟩
    · rw [← text_ofPart, readAbsolute, read_text valid]
      change (if (ofPart first rest).usesContext then _ else _) = _
      rw [plain]
      rfl
    · simp [ofPart, segments]

theorem not_mem_partText {part : List Step} (wellFormed : ∀ step ∈ part, step.segment.WellFormed) :
    '>' ∉ (partText part).toList := by
  cases part with
  | nil => simp [partText]
  | cons first rest =>
    induction rest generalizing first with
    | nil =>
      intro member
      rw [partText, List.map_singleton, String.intercalate_singleton] at member
      exact ne_of_isSegmentChar (isSegmentChar_of_mem (wellFormed first List.mem_cons_self).1 _ member)
        (by decide) rfl
    | cons next rest ih =>
      intro member
      rw [partText_cons_cons, String.toList_append, String.toList_append] at member
      rcases List.mem_append.1 member with here | later
      · rcases List.mem_append.1 here with name | point
        · exact ne_of_isSegmentChar (isSegmentChar_of_mem (wellFormed first List.mem_cons_self).1 _ name)
            (by decide) rfl
        · exact absurd point (by decide)
      · exact ih next (fun step among => wellFormed step (List.mem_cons_of_mem _ among)) later

theorem chunks_ne_nil (path : Path) : path.chunks ≠ [] := by
  obtain ⟨part, more, starts⟩ := exists_chunkSteps_cons ⟨none, path.first, path.first.name⟩
    (stepsFrom (path.first.name ++ path.first.pin) path.rest)
  unfold chunks steps
  rw [starts]
  exact List.cons_ne_nil _ _

/-- The text of a path, cut at its `>`. -/
theorem WellFormed.splitString {path : Path} (wellFormed : path.WellFormed) :
    splitString '>' path.text = path.chunks.map partText := by
  rw [text_eq_parts]
  apply splitString_intercalate
  · simpa using chunks_ne_nil path
  · intro text member
    obtain ⟨part, among, rfl⟩ := List.mem_map.1 member
    exact not_mem_partText fun step inside =>
      wellFormed.segment (mem_steps_of_mem_chunks among inside)

theorem stepNames_of_bare {part : List Step} (bare : Bare part) : stepNames part = partText part := by
  have texts : (part.map fun step => step.segment.name) = part.map fun step => step.segment.text := by
    apply List.map_congr_left
    intro step member
    rw [Segment.text, bare step member]
  rw [stepNames, partText, texts]

theorem length_partText (part : List Step) :
    (stepNames part).length + (part.filter fun step => step.segment.index.isSome).length ≤
      (partText part).length := by
  have segment (step : Step) : step.segment.name.length +
      ([step].filter fun step => step.segment.index.isSome).length ≤ step.segment.text.length := by
    unfold Segment.text
    cases index : step.segment.index with
    | none => simp [index]
    | some number =>
      have opening : "[".length = 1 := rfl
      simp only [index, List.filter_cons, Option.isSome_some, if_true, List.filter_nil,
        List.length_singleton, String.length_append]
      omega
  cases part with
  | nil => simp [stepNames, partText]
  | cons first rest =>
    induction rest generalizing first with
    | nil => simpa [stepNames, partText] using segment first
    | cons next rest ih =>
      have here := segment first
      have behind := ih next
      have names : stepNames (first :: next :: rest) =
          first.segment.name ++ "." ++ stepNames (next :: rest) := String.intercalate_cons_cons
      have both : ((first :: next :: rest).filter fun step => step.segment.index.isSome).length =
          ([first].filter fun step => step.segment.index.isSome).length +
            ((next :: rest).filter fun step => step.segment.index.isSome).length := by
        rw [← List.length_append, ← List.filter_append]
        rfl
      rw [names, partText_cons_cons, both]
      simp only [String.length_append]
      omega

/-- A part that its names make up selects no element. -/
theorem bare_of_stepNames {part : List Step} (same : stepNames part = partText part) : Bare part := by
  intro step member
  have bound := length_partText part
  rw [same] at bound
  have none : part.filter (fun step => step.segment.index.isSome) = [] :=
    List.eq_nil_of_length_eq_zero (by omega)
  have absent := List.filter_eq_nil_iff.1 none step member
  simpa using absent

end Path

end DeckBinding
