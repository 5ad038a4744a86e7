import DeckBinding.Proofs.Path.Keys
import DeckBinding.Proofs.Path.Spelling

set_option autoImplicit false

namespace DeckBinding

open DeckBinding.Number DeckBinding.Text

namespace BracketsFilled

theorem of_blank {cs : List Char} (blank : Blanks cs) : BracketsFilled cs := by
  apply of_not_mem
  intro member
  exact absurd (blank _ member) (by decide)

theorem of_bracketed_index {digits : Option (List Char)} {behind : List Char}
    (index : Bracketed digits behind) : BracketsFilled behind := by
  cases index with
  | none blank => exact of_blank blank
  | @some before inside digits between after ahead opened filled decimal closing ends =>
    have full : inside ++ (digits ++ between) ≠ [] := by simp [filled]
    have plain : ∀ c ∈ inside ++ (digits ++ between), c ≠ '[' ∧ c ≠ ']' := by
      intro c member
      apply @ne_bracket (fun c => isBlank c || isDecimalDigit c) (by decide) (by decide)
      rw [Bool.or_eq_true]
      rcases List.mem_append.1 member with blank | further
      · exact .inl (opened c blank)
      · exact (List.mem_append.1 further).symm.imp (closing c) (decimal c)
    have whole := (of_blank ahead).append ((of_bracketed full plain).append (of_blank ends))
    simpa using whole

theorem of_segment {segment : Segment} {token : List Char} (spelled : segment.SpelledBy token) :
    BracketsFilled token := by
  obtain ⟨blank, valid, index⟩ := spelled
  refine (of_blank blank).append (BracketsFilled.append ?_ (of_bracketed_index index))
  apply of_not_mem
  intro member
  exact absurd (isWord_of_isName valid _ member) (by decide)

theorem of_rest {rest : List (Join × Segment)} {more : List Char}
    (spelled : Path.RestSpelledBy rest more) : BracketsFilled more := by
  induction spelled with
  | nil => exact of_not_mem List.not_mem_nil
  | cons here _ ih =>
    rw [← List.singleton_append]
    exact (join _).append ((of_segment here).append ih)

end BracketsFilled

/-- The brackets hold something in a text that reads as a path. -/
theorem bracketsFilled_of_read {text : List Char} {path : Path} (read : Path.read text = .ok path) :
    BracketsFilled text := by
  obtain ⟨here, behind⟩ := Path.spelledBy_of_read read
  exact (BracketsFilled.of_segment here).append (BracketsFilled.of_rest behind)

namespace Path

/-- The steps in front of the first `>`. -/
def front (path : Path) : List Step :=
  path.steps.takeWhile fun step => step.join != some .context

/-- The steps behind the first `>`. -/
def behind (path : Path) : List Step :=
  path.steps.dropWhile fun step => step.join != some .context

variable {path : Path}

theorem text_ofName (name : String) : (ofName name).text = name :=
  String.append_empty

/-- Behind a path, the key of a step is the text of a path too when no step on the way to it selects
an element. -/
theorem exists_text_of_stem {rest : List (Join × Segment)} {ahead later : List Step} {step : Step}
    (wellFormed : path.WellFormed) (valid : ∀ entry ∈ rest, entry.2.WellFormed)
    (split : stepsFrom path.text rest = ahead ++ step :: later) (bare : Bare ahead) :
    ∃ other : Path, other.WellFormed ∧ other.text = step.key := by
  induction rest generalizing path ahead with
  | nil => simp [stepsFrom] at split
  | cons entry rest ih =>
    obtain ⟨join, segment⟩ := entry
    obtain ⟨here, further⟩ := List.forall_mem_cons.1 valid
    have longer := wellFormed_append wellFormed (wellFormed_ofName here.1) join
    have text : (path.append join (ofName segment.name)).text =
        path.text ++ String.singleton join.symbol ++ segment.name := by
      rw [text_append, text_ofName]
    rw [stepsFrom, ← text] at split
    cases ahead with
    | nil =>
      obtain ⟨rfl, _⟩ := List.cons.inj split
      exact ⟨_, longer, rfl⟩
    | cons first ahead =>
      obtain ⟨rfl, behind⟩ := List.cons.inj split
      obtain ⟨free, others⟩ := List.forall_mem_cons.1 bare
      have pin : segment.pin = "" := by
        rw [Segment.pin, show segment.index = none from free]
        rfl
      rw [pin, String.append_empty] at behind
      exact ih longer further behind others

/-- The key of a step is the text of a path when no step in front of it selects an element. -/
theorem exists_text_of_bare {ahead later : List Step} {step : Step} (wellFormed : path.WellFormed)
    (split : path.steps = ahead ++ step :: later) (bare : Bare ahead) :
    ∃ other : Path, other.WellFormed ∧ other.text = step.key := by
  rw [steps] at split
  cases ahead with
  | nil =>
    obtain ⟨rfl, _⟩ := List.cons.inj split
    exact ⟨_, wellFormed_ofName wellFormed.1.1, text_ofName _⟩
  | cons first ahead =>
    obtain ⟨rfl, behind⟩ := List.cons.inj split
    obtain ⟨free, others⟩ := List.forall_mem_cons.1 bare
    have pin : path.first.name ++ path.first.pin = (ofName path.first.name).text := by
      rw [text_ofName, Segment.pin, show path.first.index = none from free]
      exact String.append_empty
    rw [pin] at behind
    exact exists_text_of_stem (wellFormed_ofName wellFormed.1.1) wellFormed.2 behind others

theorem not_mem_name {segment : Segment} (wellFormed : segment.WellFormed) :
    '>' ∉ segment.name.toList := by
  intro member
  exact absurd (isWord_of_isName wellFormed.1 _ member) (by decide)

theorem not_mem_pin (segment : Segment) : '>' ∉ segment.pin.toList := by
  unfold Segment.pin
  split <;> decide

/-- Behind a stem without `>`, a key holds `>` exactly from the first join by `>` on. -/
theorem keys_stepsFrom {stem : String} {rest : List (Join × Segment)}
    (valid : ∀ entry ∈ rest, entry.2.WellFormed) (plain : '>' ∉ stem.toList) :
    (∀ step ∈ (stepsFrom stem rest).takeWhile fun step => step.join != some .context,
        '>' ∉ step.key.toList) ∧
      ∀ step ∈ (stepsFrom stem rest).dropWhile fun step => step.join != some .context,
        '>' ∈ step.key.toList := by
  induction rest generalizing stem with
  | nil => simp [stepsFrom]
  | cons entry rest ih =>
    obtain ⟨join, segment⟩ := entry
    obtain ⟨here, further⟩ := List.forall_mem_cons.1 valid
    rw [stepsFrom]
    cases join with
    | member =>
      have key : '>' ∉ (stem ++ String.singleton Join.member.symbol ++ segment.name).toList := by
        simp [String.toList_append, plain, not_mem_name here, Join.symbol]
      have deeper := @ih (stem ++ String.singleton Join.member.symbol ++ segment.name ++ segment.pin)
        further (by
          rw [String.toList_append, List.mem_append, not_or]
          exact ⟨key, not_mem_pin segment⟩)
      rw [List.takeWhile_cons_of_pos (by simp), List.dropWhile_cons_of_pos (by simp)]
      exact ⟨List.forall_mem_cons.2 ⟨key, deeper.1⟩, deeper.2⟩
    | context =>
      have key : '>' ∈ (stem ++ String.singleton Join.context.symbol ++ segment.name).toList := by
        simp [String.toList_append, Join.symbol]
      rw [List.takeWhile_cons_of_neg (by simp), List.dropWhile_cons_of_neg (by simp)]
      refine ⟨fun _ member => absurd member List.not_mem_nil, List.forall_mem_cons.2 ⟨key, ?_⟩⟩
      intro step member
      apply (prefix_of_mem_stepsFrom member).subset
      rw [String.toList_append]
      exact List.mem_append_left _ key

theorem not_mem_key_front (wellFormed : path.WellFormed) : ∀ step ∈ path.front, '>' ∉ step.key.toList := by
  have first := not_mem_name wellFormed.1
  have plain : '>' ∉ (path.first.name ++ path.first.pin).toList := by
    rw [String.toList_append, List.mem_append, not_or]
    exact ⟨first, not_mem_pin path.first⟩
  unfold front
  rw [steps, List.takeWhile_cons_of_pos (by simp)]
  exact List.forall_mem_cons.2 ⟨first, (keys_stepsFrom wellFormed.2 plain).1⟩

theorem mem_key_behind (wellFormed : path.WellFormed) : ∀ step ∈ path.behind, '>' ∈ step.key.toList := by
  have plain : '>' ∉ (path.first.name ++ path.first.pin).toList := by
    rw [String.toList_append, List.mem_append, not_or]
    exact ⟨not_mem_name wellFormed.1, not_mem_pin path.first⟩
  unfold behind
  rw [steps, List.dropWhile_cons_of_pos (by simp)]
  exact (keys_stepsFrom wellFormed.2 plain).2

theorem front_append_behind (path : Path) : path.front ++ path.behind = path.steps :=
  List.takeWhile_append_dropWhile

theorem bare_iff_of_references {steps : List Step} :
    (steps.filterMap fun step => step.segment.index.map fun index => (step.key, index)) = [] ↔
      Bare steps := by
  rw [List.filterMap_eq_nil_iff]
  simp only [Option.map_eq_none_iff]
  rfl

/-- The first reference among steps belongs to the first one that selects an element. -/
theorem exists_first_reference {steps : List Step} {key : String} {index : Nat}
    {rest : List (String × Nat)}
    (references : (steps.filterMap fun step => step.segment.index.map fun index => (step.key, index)) =
      (key, index) :: rest) :
    ∃ ahead step later, steps = ahead ++ step :: later ∧ Bare ahead ∧ step.key = key := by
  obtain ⟨ahead, step, later, split, none, selects, _⟩ := List.filterMap_eq_cons_iff.1 references
  obtain ⟨number, _, same⟩ := Option.map_eq_some_iff.1 selects
  refine ⟨ahead, step, later, split, fun other member => ?_, congrArg Prod.fst same⟩
  exact Option.map_eq_none_iff.1 (none other member)

/-- The first reference whose key holds `>` belongs to the first step that selects an element behind
the first `>`. -/
theorem find?_references (wellFormed : path.WellFormed) :
    match path.references.find? fun reference => decide ('>' ∈ reference.1.toList) with
    | none => Bare path.behind
    | some reference => ¬ Bare path.behind ∧ ∃ ahead step later,
        path.behind = ahead ++ step :: later ∧ Bare ahead ∧ step.key = reference.1 := by
  have inFront : (path.front.filterMap fun step =>
      step.segment.index.map fun index => (step.key, index)).find?
        (fun reference => decide ('>' ∈ reference.1.toList)) = none := by
    rw [List.find?_eq_none]
    intro reference member
    obtain ⟨step, among, selects⟩ := List.mem_filterMap.1 member
    obtain ⟨index, _, rfl⟩ := Option.map_eq_some_iff.1 selects
    simpa using not_mem_key_front wellFormed step among
  unfold references
  rw [← front_append_behind, List.filterMap_append, List.find?_append, inFront, Option.none_or]
  cases behind : path.behind.filterMap fun step =>
      step.segment.index.map fun index => (step.key, index) with
  | nil => exact bare_iff_of_references.1 behind
  | cons reference rest =>
    obtain ⟨ahead, step, later, split, bare, same⟩ := exists_first_reference behind
    have key : '>' ∈ reference.1.toList := by
      rw [← same]
      apply mem_key_behind wellFormed
      rw [split]
      exact List.mem_append_right _ List.mem_cons_self
    rw [List.find?_cons_of_pos (by simpa using key)]
    refine ⟨fun none => ?_, ahead, step, later, split, bare, same⟩
    rw [bare_iff_of_references.2 none] at behind
    cases behind

/-- The key of the first step that selects an element behind the first `>` is the text of a path
when no step in front of it does, and else the text of none. -/
theorem text_of_reference (wellFormed : path.WellFormed) {ahead later : List Step} {step : Step}
    (split : path.behind = ahead ++ step :: later) (bare : Bare ahead) :
    (Bare path.front → ∃ other : Path, other.WellFormed ∧ other.text = step.key) ∧
      (¬ Bare path.front → ¬ BracketsFilled step.key.toList) := by
  have whole : path.steps = (path.front ++ ahead) ++ step :: later := by
    rw [← front_append_behind, split, List.append_assoc]
  constructor
  · intro free
    exact exists_text_of_bare wellFormed whole (List.forall_mem_append.2 ⟨free, bare⟩)
  · intro pinned
    obtain ⟨early, member, selects⟩ : ∃ early ∈ path.front, early.segment.index ≠ none := by
      simpa only [Bare, not_forall, exists_prop] using pinned
    obtain ⟨before, after, parts⟩ := List.append_of_mem member
    apply @not_bracketsFilled_key path before (after ++ ahead ++ step :: later) early step ?_ selects
    · simp
    · rw [whole, parts]
      simp

end Path

end DeckBinding
