import DeckBinding.Proofs.Path.Parts
import Mathlib.Data.List.Chain

set_option autoImplicit false

namespace DeckBinding

open DeckBinding.Number DeckBinding.Text

/-- Letters among which no bracket is empty or left open at the end. -/
structure BracketsFilled (cs : List Char) : Prop where
  chain : cs.IsChain fun left right => left = '[' → right ≠ ']'
  closed : cs.getLast? ≠ some '['

namespace BracketsFilled

theorem append {front back : List Char} (left : BracketsFilled front) (right : BracketsFilled back) :
    BracketsFilled (front ++ back) := by
  constructor
  · rw [List.isChain_append]
    refine ⟨left.chain, right.chain, ?_⟩
    intro c last d _ opening
    rw [Option.mem_def, opening] at last
    exact absurd last left.closed
  · rw [List.getLast?_append]
    cases last : back.getLast? with
    | none => exact left.closed
    | some c =>
      intro opening
      apply right.closed
      rw [last]
      exact opening

theorem of_not_mem {cs : List Char} (absent : '[' ∉ cs) : BracketsFilled cs := by
  constructor
  · apply List.Pairwise.isChain
    apply List.pairwise_of_forall_mem_list
    intro c member d _ opening
    exact absurd (opening ▸ member) absent
  · intro last
    exact absent (List.mem_of_getLast? last)

theorem of_bracketed {inner : List Char} (full : inner ≠ [])
    (plain : ∀ c ∈ inner, c ≠ '[' ∧ c ≠ ']') : BracketsFilled ('[' :: inner ++ [']']) := by
  have free : '[' ∉ inner ++ [']'] := by
    intro member
    rcases List.mem_append.1 member with inside | closing
    · exact (plain _ inside).1 rfl
    · cases List.mem_singleton.1 closing
  constructor
  · obtain ⟨first, rest, rfl⟩ := List.exists_cons_of_ne_nil full
    exact List.isChain_cons_cons.2 ⟨fun _ => (plain first List.mem_cons_self).2,
      (of_not_mem free).chain⟩
  · rw [List.getLast?_concat]
    decide

theorem ne_bracket {holds : Char → Bool} (left : holds '[' = false) (right : holds ']' = false) {c : Char}
    (char : holds c = true) : c ≠ '[' ∧ c ≠ ']' := by
  constructor
  · rintro rfl
    rw [left] at char
    cases char
  · rintro rfl
    rw [right] at char
    cases char

theorem segment {segment : Segment} (wellFormed : segment.WellFormed) :
    BracketsFilled segment.text.toList := by
  have name : BracketsFilled segment.name.toList := by
    apply of_not_mem
    intro member
    have word := isWord_of_isName wellFormed.1 _ member
    revert word
    decide
  rw [Segment.toList_text]
  cases segment.index with
  | none => exact name.append (of_not_mem List.not_mem_nil)
  | some index =>
    refine name.append (of_bracketed Nat.toDigits_ne_nil fun c member => ?_)
    exact ne_bracket (by decide) (by decide) (isDigit_of_mem_numeral member)

theorem join (join : Join) : BracketsFilled [join.symbol] := by
  cases join <;> exact of_not_mem (by decide)

/-- The brackets in the text of a path hold numerals. -/
theorem text {path : Path} (wellFormed : path.WellFormed) : BracketsFilled path.text.toList := by
  obtain ⟨first, rest⟩ := path
  have behind : ∀ {rest : List (Join × Segment)}, (∀ entry ∈ rest, entry.2.WellFormed) →
      BracketsFilled (Path.restText rest).toList := by
    intro rest valid
    induction rest with
    | nil => exact of_not_mem List.not_mem_nil
    | cons entry rest ih =>
      obtain ⟨symbol, name⟩ := entry
      rw [Path.toList_restText_cons, ← List.singleton_append]
      exact (join symbol).append ((segment (valid _ List.mem_cons_self)).append
        (ih fun other member => valid other (List.mem_cons_of_mem _ member)))
  rw [Path.text, String.toList_append]
  exact (segment wellFormed.1).append (behind wellFormed.2)

theorem part {part : List Step} (wellFormed : ∀ step ∈ part, step.segment.WellFormed) :
    BracketsFilled (partText part).toList := by
  cases part with
  | nil => exact of_not_mem (by simp [partText])
  | cons first rest =>
    rw [← Path.text_ofPart]
    exact text (Path.wellFormed_ofPart wellFormed)

end BracketsFilled

namespace Path

/-- The key of a step starts the keys of the later ones. -/
theorem prefix_of_mem_stepsFrom {stem : String} {rest : List (Join × Segment)} {step : Step}
    (member : step ∈ stepsFrom stem rest) : stem.toList <+: step.key.toList := by
  induction rest generalizing stem with
  | nil => cases member
  | cons entry rest ih =>
    obtain ⟨join, segment⟩ := entry
    rcases List.mem_cons.1 member with rfl | later
    · simp [String.toList_append]
    · refine List.IsPrefix.trans ?_ (ih later)
      simp [String.toList_append]

theorem length_lt_key {stem : String} {rest : List (Join × Segment)} {step : Step}
    (member : step ∈ stepsFrom stem rest) : stem.length < step.key.length := by
  cases rest with
  | nil => cases member
  | cons entry rest =>
    obtain ⟨join, segment⟩ := entry
    have longer : stem.length < (stem ++ String.singleton join.symbol ++ segment.name).length := by
      simp only [String.length_append, String.length_singleton]
      omega
    rcases List.mem_cons.1 member with rfl | later
    · exact longer
    · have further := (prefix_of_mem_stepsFrom later).length_le
      rw [String.length_toList, String.length_toList, String.length_append] at further
      omega

theorem stepsFrom_split {stem : String} {rest : List (Join × Segment)} {front back : List Step}
    {step : Step} (split : stepsFrom stem rest = front ++ step :: back) :
    ∃ behind, back = stepsFrom (step.key ++ step.segment.pin) behind := by
  induction rest generalizing stem front with
  | nil => simp [stepsFrom] at split
  | cons entry rest ih =>
    obtain ⟨join, segment⟩ := entry
    rw [stepsFrom] at split
    cases front with
    | nil =>
      obtain ⟨rfl, rfl⟩ := List.cons.inj split
      exact ⟨rest, rfl⟩
    | cons first front => exact ih (List.cons.inj split).2

theorem steps_split {path : Path} {front back : List Step} {step : Step}
    (split : path.steps = front ++ step :: back) :
    ∃ behind, back = stepsFrom (step.key ++ step.segment.pin) behind := by
  rw [steps] at split
  cases front with
  | nil =>
    obtain ⟨rfl, rfl⟩ := List.cons.inj split
    exact ⟨path.rest, rfl⟩
  | cons first front => exact stepsFrom_split (List.cons.inj split).2

/-- Behind a step that selects an element, keys hold an empty bracket. -/
theorem not_bracketsFilled_key {path : Path} {front back : List Step} {step later : Step}
    (split : path.steps = front ++ step :: back) (pinned : step.segment.index ≠ none)
    (member : later ∈ back) : ¬ BracketsFilled later.key.toList := by
  intro filled
  obtain ⟨behind, same⟩ := steps_split split
  rw [same] at member
  obtain ⟨more, whole⟩ := prefix_of_mem_stepsFrom member
  have pin : step.segment.pin = "[]" := by
    rw [Segment.pin, if_pos (Option.isSome_iff_ne_none.2 pinned)]
  have letters : later.key.toList = step.key.toList ++ '[' :: ']' :: more := by
    rw [← whole, pin, String.toList_append, List.append_assoc]
    rfl
  have chain := filled.chain
  rw [letters, List.isChain_append] at chain
  exact (List.isChain_cons_cons.1 chain.2.1).1 rfl rfl

theorem partText_of_bare {step : Step} (bare : step.segment.index = none) :
    partText [step] = step.segment.name := by
  rw [partText, List.map_singleton, String.intercalate_singleton, Segment.text, bare]

/-- The key of a step goes on from the key of the step before. -/
theorem key_of_next {path : Path} {front back : List Step} {step next : Step}
    (split : path.steps = front ++ step :: next :: back) :
    ∃ join, next.join = some join ∧
      next.key = step.key ++ step.segment.pin ++ String.singleton join.symbol ++ next.segment.name := by
  obtain ⟨behind, same⟩ := steps_split split
  cases behind with
  | nil => cases same
  | cons entry rest =>
    obtain ⟨join, segment⟩ := entry
    obtain ⟨rfl, _⟩ := List.cons.inj same
    exact ⟨join, rfl, rfl⟩

/-- Over a part that selects no element the key goes on by the text of the part. -/
theorem key_of_part {path : Path} {front back rest : List Step} {first last : Step} {ahead : String}
    (split : path.steps = front ++ (first :: rest ++ back))
    (plain : ∀ step ∈ rest, step.join ≠ some .context) (bare : Bare (first :: rest))
    (ends : (first :: rest).getLast? = some last) (key : first.key = ahead ++ first.segment.name) :
    last.key = ahead ++ partText (first :: rest) := by
  have free := bare first List.mem_cons_self
  induction rest generalizing front first ahead with
  | nil =>
    obtain rfl : first = last := by simpa using ends
    rw [key, partText_of_bare free]
  | cons next rest ih =>
    obtain ⟨join, joined, further⟩ := key_of_next split
    obtain rfl : join = .member := by
      cases join with
      | member => rfl
      | context => exact absurd joined (plain next List.mem_cons_self)
    have behind : Bare (next :: rest) := fun step member => bare step (List.mem_cons_of_mem _ member)
    have goesOn : next.key = (ahead ++ first.segment.text ++ ".") ++ next.segment.name := by
      rw [further, Segment.pin, free, key, Segment.text, free]
      simp only [Option.isSome_none, Bool.false_eq_true, if_false, String.append_empty]
      rfl
    have deeper := @ih (front ++ [first]) _ _ (by rw [split]; simp)
      (fun step member => plain step (List.mem_cons_of_mem _ member)) behind
      (by rwa [List.getLast?_cons_cons] at ends) goesOn (behind next List.mem_cons_self)
    rw [deeper, partText_cons_cons]
    simp only [String.append_assoc]

/-- The key at the end of parts that select no element is their text. -/
theorem key_of_parts {path : Path} {front back : List (List Step)} {last : Step}
    (parts : path.chunks = front ++ back) (bare : ∀ part ∈ front, Bare part)
    (ends : front.flatten.getLast? = some last) :
    last.key = ">".intercalate (front.map partText) := by
  -- the last part is taken off, and its first key goes on from the key at the end of the others
  induction front using List.reverseRecOn generalizing back last with
  | nil => cases ends
  | append_singleton front part ih =>
    have here := bare part (List.mem_append_right _ List.mem_cons_self)
    rw [List.append_assoc, List.singleton_append] at parts
    obtain ⟨first, rest, rfl, plain⟩ := @exists_cons_of_mem_chunks path part (by simp [parts])
    have split := steps_of_chunks parts
    have final : (first :: rest).getLast? = some last := by
      simpa [List.getLast?_append] using ends
    cases front with
    | nil =>
      obtain rfl : first = ⟨none, path.first, path.first.name⟩ := (List.cons.inj split).1.symm
      rw [key_of_part split plain here final String.empty_append.symm]
      simp
    | cons start others =>
      obtain ⟨before, ended⟩ : ∃ before, (start :: others).flatten.getLast? = some before := by
        obtain ⟨step, more, rfl, _⟩ := @exists_cons_of_mem_chunks path start (by simp [parts])
        exact Option.isSome_iff_exists.1 (by simp)
      obtain ⟨inner, whole⟩ := List.getLast?_eq_some_iff.1 ended
      have key := ih parts (fun other member => bare other (List.mem_append_left _ member)) ended
      obtain ⟨next, _, same, crosses⟩ := exists_crossing parts (List.cons_ne_nil start others)
      obtain ⟨rfl, _⟩ := List.cons.inj same
      obtain ⟨part, member, among⟩ := List.mem_flatten.1 (List.mem_of_getLast? ended)
      have free : before.segment.index = none :=
        bare part (List.mem_append_left _ member) before among
      obtain ⟨join, joined, further⟩ := @key_of_next path inner (rest ++ back.flatten) before first (by
        rw [split, whole]
        simp)
      obtain rfl : .context = join := Option.some.inj (crosses.symm.trans joined)
      have goesOn : first.key = before.key ++ ">" ++ first.segment.name := by
        rw [further, Segment.pin, free]
        simp only [Option.isSome_none, Bool.false_eq_true, if_false, String.append_empty]
        rfl
      rw [key_of_part split plain here final goesOn, key, List.map_append,
        String.intercalate_append_of_ne_nil (by simp) (by simp)]
      simp [String.append_assoc]

/-- The index in brackets is longer than the empty brackets that mark it. -/
theorem length_text (segment : Segment) :
    segment.name.length + segment.pin.length + segment.index.isSome.toNat ≤ segment.text.length := by
  unfold Segment.text Segment.pin
  cases segment.index with
  | none => simp
  | some index =>
    have pin : "[]".length = 2 := rfl
    have opening : "[".length = 1 := rfl
    have closing : "]".length = 1 := rfl
    have digits : (toString index).length ≠ 0 := by
      rw [← String.length_toList, Nat.toString_eq_repr, Nat.toList_repr]
      exact fun none => Nat.toDigits_ne_nil (List.eq_nil_of_length_eq_zero none)
    simp only [Option.isSome_some, if_true, Bool.toNat_true, String.length_append]
    omega

theorem countP_le_length_restText (rest : List (Join × Segment)) :
    rest.countP (·.2.index.isSome) ≤ (restText rest).length := by
  induction rest with
  | nil => exact Nat.zero_le _
  | cons entry rest ih =>
    have here := length_text entry.2
    rw [List.countP_cons, restText]
    simp only [String.length_append]
    cases selects : entry.2.index.isSome with
    | false =>
      simp only [Bool.false_eq_true, if_false]
      omega
    | true =>
      rw [selects, Bool.toNat_true] at here
      simp only [if_true]
      omega

theorem length_key {stem : String} {rest : List (Join × Segment)} {step : Step}
    (member : step ∈ stepsFrom stem rest) :
    step.key.length + rest.countP (·.2.index.isSome) ≤ stem.length + (restText rest).length := by
  induction rest generalizing stem with
  | nil => cases member
  | cons entry rest ih =>
    obtain ⟨join, segment⟩ := entry
    have here := length_text segment
    have behind := countP_le_length_restText rest
    have counted : ((join, segment) :: rest).countP (·.2.index.isSome) =
        rest.countP (·.2.index.isSome) + segment.index.isSome.toNat := by
      rw [List.countP_cons]
      cases segment.index <;> rfl
    rw [counted, restText]
    rcases List.mem_cons.1 member with rfl | later
    · simp only [String.length_append]
      omega
    · have deeper := ih later
      simp only [String.length_append] at deeper ⊢
      omega

/-- Where a path selects an element, the text of the path is no key of its steps. -/
theorem key_ne_text {path : Path} (pinned : ¬ Bare path.steps) {step : Step}
    (member : step ∈ path.steps) : step.key ≠ path.text := by
  have first := length_text path.first
  have behind := countP_le_length_restText path.rest
  have selects : 0 < path.first.index.isSome.toNat + path.rest.countP (·.2.index.isSome) := by
    by_contra none
    apply pinned
    intro other among
    have segment : other.segment ∈ path.segments := by
      rw [← segments_steps]
      exact List.mem_map_of_mem among
    rcases List.mem_cons.1 segment with same | later
    · rw [same]
      cases index : path.first.index with
      | none => rfl
      | some number =>
        rw [index] at none
        simp at none
    · obtain ⟨entry, inside, same⟩ := List.mem_map.1 later
      have zero : path.rest.countP (·.2.index.isSome) = 0 := by omega
      have absent := List.countP_eq_zero.1 zero entry inside
      rw [← same]
      simpa using absent
  intro same
  have lengths : step.key.length = path.first.text.length + (restText path.rest).length := by
    rw [same, text, String.length_append]
  rcases List.mem_cons.1 member with rfl | later
  · dsimp only at lengths
    omega
  · have bound := length_key later
    rw [String.length_append] at bound
    omega

end Path

end DeckBinding
