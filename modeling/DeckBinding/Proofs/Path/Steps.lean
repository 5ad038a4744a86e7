import DeckBinding.Proofs.Path.RoundTrip

set_option autoImplicit false

namespace DeckBinding

open DeckBinding.Number DeckBinding.Text

/-- A path of names with points between them. -/
structure Path.Dotted (path : Path) : Prop where
  first : isName path.first.name = true ∧ path.first.index = none
  rest : ∀ entry ∈ path.rest,
    entry.1 = .member ∧ isName entry.2.name = true ∧ entry.2.index = none

def Path.append (path : Path) (join : Join) (other : Path) : Path :=
  ⟨path.first, path.rest ++ (join, other.first) :: other.rest⟩

def Step.pinned (step : Step) (index : Nat) : Step :=
  { step with segment := ⟨step.segment.name, some index⟩ }

namespace Path

theorem restText_append (front back : List (Join × Segment)) :
    restText (front ++ back) = restText front ++ restText back := by
  induction front with
  | nil => simp [restText]
  | cons entry rest ih =>
    simp only [List.cons_append, restText, ih, String.append_assoc]

theorem text_append (path : Path) (join : Join) (other : Path) :
    (path.append join other).text = path.text ++ String.singleton join.symbol ++ other.text := by
  simp only [append, text, restText_append, restText, String.append_assoc]

/-- The key of what stands behind further segments, their pins included. -/
def stemFrom (stem : String) : List (Join × Segment) → String
  | [] => stem
  | (join, segment) :: rest =>
    stemFrom (stem ++ String.singleton join.symbol ++ segment.name ++ segment.pin) rest

theorem stepsFrom_append (stem : String) (front back : List (Join × Segment)) :
    stepsFrom stem (front ++ back) = stepsFrom stem front ++ stepsFrom (stemFrom stem front) back := by
  induction front generalizing stem with
  | nil => rfl
  | cons entry rest ih => simp only [List.cons_append, stepsFrom, stemFrom, ih]

theorem stemFrom_append (stem : String) (front back : List (Join × Segment)) :
    stemFrom stem (front ++ back) = stemFrom (stemFrom stem front) back := by
  induction front generalizing stem with
  | nil => rfl
  | cons entry rest ih =>
    obtain ⟨join, segment⟩ := entry
    exact ih _

theorem steps_append (path : Path) (join : Join) (other : Path) :
    (path.append join other).steps =
      path.steps ++ stepsFrom (stemFrom (path.first.name ++ path.first.pin) path.rest)
        ((join, other.first) :: other.rest) := by
  rw [steps, steps, append, stepsFrom_append, List.cons_append]

theorem chunkSteps_of_plain {first : Step} {rest : List Step}
    (plain : ∀ step ∈ rest, step.join ≠ some .context) :
    chunkSteps (first :: rest) = [first :: rest] := by
  induction rest generalizing first with
  | nil => rfl
  | cons step rest ih =>
    rw [chunkSteps, ih fun other member => plain other (List.mem_cons_of_mem _ member)]
    dsimp only
    rw [if_neg (plain step List.mem_cons_self)]

theorem join_of_mem_stepsFrom {stem : String} {rest : List (Join × Segment)}
    (plain : ∀ entry ∈ rest, entry.1 = .member) :
    ∀ step ∈ stepsFrom stem rest, step.join ≠ some .context := by
  induction rest generalizing stem with
  | nil => simp [stepsFrom]
  | cons entry rest ih =>
    obtain ⟨join, segment⟩ := entry
    obtain rfl : join = .member := plain (join, segment) List.mem_cons_self
    intro step member
    rcases List.mem_cons.1 member with rfl | later
    · simp
    · exact ih (fun entry among => plain entry (List.mem_cons_of_mem _ among)) step later

theorem join_of_mem_steps {path : Path} (plain : ∀ entry ∈ path.rest, entry.1 = .member) :
    ∀ step ∈ path.steps, step.join ≠ some .context :=
  List.forall_mem_cons.2 ⟨nofun, join_of_mem_stepsFrom plain⟩

theorem join_of_mem_rest {path : Path} (plain : path.usesContext = false) :
    ∀ entry ∈ path.rest, entry.1 = .member := by
  intro entry member
  have other := List.any_eq_false.1 plain entry member
  cases join : entry.1 with
  | member => rfl
  | context => simp [join] at other

/-- Without indices the key of a path is its text. -/
theorem stemFrom_of_bare {rest : List (Join × Segment)} (bare : ∀ entry ∈ rest, entry.2.index = none)
    (stem : String) : stemFrom stem rest = stem ++ restText rest := by
  induction rest generalizing stem with
  | nil => simp [stemFrom, restText]
  | cons entry rest ih =>
    obtain ⟨join, segment⟩ := entry
    have here : segment.index = none := bare (join, segment) List.mem_cons_self
    rw [stemFrom, ih fun entry member => bare entry (List.mem_cons_of_mem _ member)]
    simp only [restText, Segment.pin, Segment.text, here, Option.isSome_none, Bool.false_eq_true,
      if_false, String.append_empty, String.append_assoc]

theorem Dotted.bare {path : Path} (dotted : path.Dotted) :
    ∀ entry ∈ path.rest, entry.2.index = none :=
  fun entry member => (dotted.rest entry member).2.2

theorem Dotted.stem {path : Path} (dotted : path.Dotted) :
    stemFrom (path.first.name ++ path.first.pin) path.rest = path.text := by
  rw [stemFrom_of_bare dotted.bare, text, Segment.pin, Segment.text, dotted.first.2]
  simp

theorem Dotted.wellFormed {path : Path} (dotted : path.Dotted) : path.WellFormed := by
  refine ⟨⟨dotted.first.1, ?_⟩, ?_⟩
  · rw [dotted.first.2]
    simp
  · intro entry member
    obtain ⟨_, valid, bare⟩ := dotted.rest entry member
    refine ⟨valid, ?_⟩
    rw [bare]
    simp

theorem Dotted.usesContext {path : Path} (dotted : path.Dotted) : path.usesContext = false := by
  rw [Path.usesContext, List.any_eq_false]
  intro entry member
  rw [(dotted.rest entry member).1]
  decide

theorem not_mem_restText {rest : List (Join × Segment)}
    (plain : ∀ entry ∈ rest, entry.1 = .member ∧ isName entry.2.name = true) :
    '>' ∉ (restText rest).toList := by
  induction rest with
  | nil => simp [restText]
  | cons entry rest ih =>
    obtain ⟨join, segment⟩ := entry
    obtain ⟨rfl, valid⟩ : join = .member ∧ isName segment.name = true :=
      plain (join, segment) List.mem_cons_self
    intro member
    rw [toList_restText_cons] at member
    rcases List.mem_cons.1 member with point | later
    · cases point
    · rcases List.mem_append.1 later with here | behind
      · exact ne_of_isSegmentChar (isSegmentChar_of_mem valid _ here) (by decide) rfl
      · exact ih (fun other among => plain other (List.mem_cons_of_mem _ among)) behind

theorem Dotted.not_mem_text {path : Path} (dotted : path.Dotted) : '>' ∉ path.text.toList := by
  intro member
  rw [text, String.toList_append] at member
  rcases List.mem_append.1 member with here | behind
  · exact ne_of_isSegmentChar (isSegmentChar_of_mem dotted.first.1 _ here) (by decide) rfl
  · exact not_mem_restText (fun entry among => ⟨(dotted.rest entry among).1,
      (dotted.rest entry among).2.1⟩) behind

/-- Without `>` the text of a path names a value below a given one. -/
theorem Dotted.readAbsolute_text {path : Path} (dotted : path.Dotted) :
    readAbsolute path.text.toList = .ok path := by
  unfold readAbsolute
  rw [read_text dotted.wellFormed]
  change (if path.usesContext then _ else _) = _
  rw [dotted.usesContext]
  rfl

/-- Further segments with another index on the last one. -/
theorem exists_lastEntry (path : Path) (join : Join) :
    ∃ front last segment,
      (join, path.first) :: path.rest = front ++ [(last, segment)] ∧
      ∀ index, (join, (path.withLastIndex index).first) :: (path.withLastIndex index).rest =
        front ++ [(last, ⟨segment.name, index⟩)] := by
  obtain ⟨first, rest⟩ := path
  rcases List.eq_nil_or_concat rest with rfl | ⟨front, ⟨last, segment⟩, rfl⟩
  · exact ⟨[], join, first, rfl, fun index => rfl⟩
  · refine ⟨(join, first) :: front, last, segment, by simp, ?_⟩
    intro index
    simp [withLastIndex]

/-- Selecting an element at the end of a path changes its last step. -/
theorem exists_lastStep {path : Path} (dotted : path.Dotted) :
    ∃ front last, path.steps = front ++ [last] ∧ last.key = path.text ∧
      ∀ index, (path.withLastIndex (some index)).steps = front ++ [last.pinned index] := by
  obtain ⟨first, rest⟩ := path
  have bareFirst : first.index = none := dotted.first.2
  rcases List.eq_nil_or_concat rest with rfl | ⟨front, ⟨join, segment⟩, rfl⟩
  · refine ⟨[], ⟨none, first, first.name⟩, rfl, ?_, fun index => rfl⟩
    simp [text, restText, Segment.text, bareFirst]
  · rw [List.concat_eq_append] at dotted
    have bare : segment.index = none := dotted.bare (join, segment) (by simp)
    have bareFront : ∀ entry ∈ front, entry.2.index = none :=
      fun entry member => dotted.bare entry (List.mem_append_left _ member)
    refine ⟨⟨none, first, first.name⟩ :: stepsFrom (first.name ++ first.pin) front,
      ⟨some join, segment, stemFrom (first.name ++ first.pin) front ++
        String.singleton join.symbol ++ segment.name⟩, ?_, ?_, ?_⟩
    · simp [steps, stepsFrom_append, stepsFrom]
    · dsimp only
      rw [stemFrom_of_bare bareFront, List.concat_eq_append]
      simp only [text, restText_append, restText, Segment.text, Segment.pin, bare, bareFirst,
        Option.isSome_none, Bool.false_eq_true, if_false, String.append_empty, String.append_assoc]
    · intro index
      simp [withLastIndex, steps, stepsFrom_append, stepsFrom, Step.pinned]

/-- Selecting an element at the end of a path that stands behind another one. -/
theorem exists_lastStep_behind {path : Path} (dotted : path.Dotted) (stem : String) (join : Join) :
    ∃ front last, stepsFrom stem ((join, path.first) :: path.rest) = front ++ [last] ∧
      last.key = stem ++ String.singleton join.symbol ++ path.text ∧
      ∀ index, stepsFrom stem ((join, (path.withLastIndex (some index)).first) ::
        (path.withLastIndex (some index)).rest) = front ++ [last.pinned index] := by
  obtain ⟨front, last, segment, entries, pinned⟩ := exists_lastEntry path join
  have bare : ∀ entry ∈ front ++ [(last, segment)], entry.2.index = none := by
    rw [← entries]
    intro entry member
    rcases List.mem_cons.1 member with rfl | later
    · exact dotted.first.2
    · exact dotted.bare entry later
  have bareLast : segment.index = none := bare (last, segment) (by simp)
  have whole : restText (front ++ [(last, segment)]) = String.singleton join.symbol ++ path.text := by
    rw [← entries, restText, text, String.append_assoc]
  refine ⟨stepsFrom stem front, ⟨some last, segment,
    stemFrom stem front ++ String.singleton last.symbol ++ segment.name⟩, ?_, ?_, ?_⟩
  · rw [entries, stepsFrom_append]
    rfl
  · rw [restText_append, restText, restText, Segment.text, bareLast] at whole
    simp only [String.append_empty] at whole
    rw [stemFrom_of_bare fun entry member => bare entry (List.mem_append_left _ member)]
    simp only [String.append_assoc] at whole ⊢
    rw [whole]
  · intro index
    rw [pinned, stepsFrom_append]
    rfl

theorem text_withLastIndex {path : Path} (dotted : path.Dotted) (index : Nat) :
    (path.withLastIndex (some index)).text = path.text ++ "[" ++ toString index ++ "]" := by
  obtain ⟨first, rest⟩ := path
  rcases List.eq_nil_or_concat rest with rfl | ⟨front, ⟨join, segment⟩, rfl⟩
  · have bare : first.index = none := dotted.first.2
    simp [withLastIndex, text, restText, Segment.text, bare]
  · have bare : segment.index = none := dotted.bare (join, segment) (by simp)
    simp [withLastIndex, text, restText_append, restText, Segment.text, bare, String.append_assoc]

theorem wellFormed_withLastIndex {path : Path} (wellFormed : path.WellFormed) {index : Nat}
    (bound : index < writeBound) : (path.withLastIndex (some index)).WellFormed := by
  obtain ⟨first, rest⟩ := path
  rcases List.eq_nil_or_concat rest with rfl | ⟨front, ⟨join, segment⟩, rfl⟩
  · exact ⟨⟨wellFormed.1.1, by rintro _ ⟨⟩; exact bound⟩, wellFormed.2⟩
  · rw [List.concat_eq_append] at wellFormed ⊢
    simp only [withLastIndex, List.getLast?_concat, List.dropLast_concat]
    refine ⟨wellFormed.1, ?_⟩
    intro entry member
    rcases List.mem_append.1 member with earlier | last
    · exact wellFormed.2 entry (List.mem_append_left _ earlier)
    · rw [List.mem_singleton.1 last]
      exact ⟨(wellFormed.2 (join, segment) (by simp)).1, by rintro _ ⟨⟩; exact bound⟩

theorem wellFormed_append {path other : Path} (first : path.WellFormed) (second : other.WellFormed)
    (join : Join) : (path.append join other).WellFormed := by
  refine ⟨first.1, ?_⟩
  intro entry member
  rcases List.mem_append.1 member with earlier | later
  · exact first.2 entry earlier
  · rcases List.mem_cons.1 later with rfl | behind
    · exact second.1
    · exact second.2 entry behind

end Path

end DeckBinding
