import DeckBinding.Proofs.Path.Indices
import DeckBinding.Proofs.Template.Collection

set_option autoImplicit false

namespace DeckBinding

open DeckBinding.Number DeckBinding.Text

/-- A text is a path or breaks the rules of paths: no index in it is too long to be converted. -/
def SettledAsPath (text : String) : Prop :=
  ∀ error, Path.read text.toList ≠ .error (.numeral error)

/-- A collection that can be cut at `>` and looked up, as a whole and part by part. -/
structure Followable (collection : String) : Prop where
  filled : ∀ part ∈ splitString '>' collection, part ≠ ""
  settled : SettledAsPath collection
  parts : ∀ part ∈ splitString '>' collection, SettledAsPath part

theorem ReadsAsPath.settled {text : String} (reads : ReadsAsPath text) : SettledAsPath text := by
  obtain ⟨⟨path, read⟩, _⟩ := reads
  intro error refused
  rw [read] at refused
  cases refused

theorem ReadsAsPath.ne_empty {text : String} (reads : ReadsAsPath text) : text ≠ "" := by
  rintro rfl
  obtain ⟨⟨path, read⟩, _⟩ := reads
  cases read

theorem Followable.ne_empty {collection : String} (followable : Followable collection) :
    collection ≠ "" := by
  rintro rfl
  exact followable.filled "" List.mem_cons_self rfl

/-- The text of a path can be followed. -/
theorem followable_text {path : Path} (wellFormed : path.WellFormed) : Followable path.text where
  filled part member := (parts_readAsPath wellFormed part member).ne_empty
  settled error refused := by
    rw [Path.read_text wellFormed] at refused
    cases refused
  parts part member := (parts_readAsPath wellFormed part member).settled

/-- Letters of a key: no part between `>` is empty, and each bracket is closed as soon as it
opens. -/
structure KeyLetters (cs : List Char) : Prop where
  filled : ∀ part ∈ splitAt '>' cs, part ≠ []
  closing : cs.IsChain fun left right => left = '[' → right = ']'
  closed : cs.getLast? ≠ some '['

namespace KeyLetters

variable {cs : List Char}

theorem of_name {name : String} (valid : isName name = true) : KeyLetters name.toList := by
  have word := isWord_of_isName valid
  have absent {c : Char} (other : isWord c = false) : c ∉ name.toList := by
    intro member
    rw [word c member] at other
    cases other
  have filled : name.toList ≠ [] := by
    obtain ⟨c, tail, same, _⟩ := toList_of_isName valid
    rw [same]
    exact List.cons_ne_nil c tail
  refine ⟨?_, ?_, fun last => absent (by decide) (List.mem_of_getLast? last)⟩
  · rw [splitAt_of_not_mem (absent (by decide))]
    exact List.forall_mem_singleton.2 filled
  · apply List.Pairwise.isChain
    apply List.pairwise_of_forall_mem_list
    intro c member d _ opening
    exact absurd (opening ▸ member) (absent (by decide))

theorem append {more : List Char} (letters : KeyLetters cs)
    (filled : ∀ part ∈ splitAt '>' (cs ++ more), part ≠ [])
    (closing : more.IsChain fun left right => left = '[' → right = ']')
    (closed : more.getLast? ≠ some '[') : KeyLetters (cs ++ more) := by
  refine ⟨filled, ?_, ?_⟩
  · rw [List.isChain_append]
    refine ⟨letters.closing, closing, ?_⟩
    intro c last d _ opening
    rw [Option.mem_def, opening] at last
    exact absurd last letters.closed
  · rw [List.getLast?_append]
    cases last : more.getLast? with
    | none => exact letters.closed
    | some c =>
      intro opening
      apply closed
      rw [last]
      exact opening

/-- What holds no `>` goes to the last part. -/
theorem filled_append {more : List Char} (letters : KeyLetters cs) (plain : '>' ∉ more) :
    ∀ part ∈ splitAt '>' (cs ++ more), part ≠ [] := by
  obtain ⟨front, last, alone, longer⟩ := splitAt_append_back plain cs
  have filled := letters.filled
  rw [alone] at filled
  obtain ⟨before, ends⟩ := List.forall_mem_append.1 filled
  rw [longer]
  refine List.forall_mem_append.2 ⟨before, List.forall_mem_singleton.2 ?_⟩
  exact List.append_ne_nil_of_left_ne_nil (ends last (List.mem_singleton_self last)) more

theorem pin (letters : KeyLetters cs) (segment : Segment) :
    KeyLetters (cs ++ segment.pin.toList) := by
  unfold Segment.pin
  split
  · exact letters.append (letters.filled_append (by decide)) (by decide) (by decide)
  · exact letters.append (letters.filled_append (by decide)) (by decide) (by decide)

theorem join (letters : KeyLetters cs) (join : Join) {name : String} (valid : isName name = true) :
    KeyLetters (cs ++ join.symbol :: name.toList) := by
  have named := of_name valid
  have closing : (join.symbol :: name.toList).IsChain fun left right => left = '[' → right = ']' := by
    obtain ⟨c, tail, same, _⟩ := toList_of_isName valid
    rw [same, List.isChain_cons_cons, ← same]
    refine ⟨fun opening => ?_, named.closing⟩
    cases join <;> cases opening
  have closed : (join.symbol :: name.toList).getLast? ≠ some '[' := by
    obtain ⟨c, tail, same, _⟩ := toList_of_isName valid
    rw [same, List.getLast?_cons_cons, ← same]
    exact named.closed
  cases join with
  | member =>
    have plain : '>' ∉ '.' :: name.toList := by
      intro member
      rcases List.mem_cons.1 member with point | inside
      · cases point
      · exact absurd (isWord_of_isName valid _ inside) (by decide)
    exact letters.append (letters.filled_append plain) closing closed
  | context =>
    refine letters.append ?_ closing closed
    change ∀ part ∈ splitAt '>' (cs ++ '>' :: name.toList), part ≠ []
    rw [splitAt_append_cons]
    exact List.forall_mem_append.2 ⟨letters.filled, named.filled⟩

/-- No bracket of a key holds an index. -/
theorem indicesBelow (letters : KeyLetters cs) : IndicesBelow writeBound cs := by
  intro blanks digits inside separates plain
  have chain := letters.closing.infix inside
  have none : blanks ++ digits = [] := by
    cases within : blanks ++ digits with
    | nil => rfl
    | cons c rest =>
      rw [within, List.isChain_cons_cons] at chain
      have bracket := chain.1 rfl
      have member : c ∈ blanks ++ digits := within ▸ List.mem_cons_self
      rcases List.mem_append.1 member with blank | digit
      · exact absurd (separates c blank) (by rw [bracket]; decide)
      · exact absurd (plain c digit) (by rw [bracket]; decide)
  obtain ⟨_, rfl⟩ := List.append_eq_nil_iff.1 none
  exact ⟨0, writeBound_pos, rfl⟩

end KeyLetters

theorem settled_of_indicesBelow {bound : Nat} {text : String}
    (below : IndicesBelow bound text.toList) : SettledAsPath text := by
  intro error refused
  have readable := readable_path below
  rw [refused] at readable
  exact readable

theorem KeyLetters.followable {key : String} (letters : KeyLetters key.toList) : Followable key where
  filled part member := by
    obtain ⟨cs, among, rfl⟩ := List.mem_map.1 member
    intro empty
    rw [← String.toList_eq_nil_iff, String.toList_ofList] at empty
    exact letters.filled cs among empty
  settled := settled_of_indicesBelow letters.indicesBelow
  parts part member := by
    obtain ⟨cs, among, rfl⟩ := List.mem_map.1 member
    apply @settled_of_indicesBelow writeBound
    rw [String.toList_ofList]
    exact letters.indicesBelow.of_infix (infix_of_mem_splitAt among)

theorem Path.keyLetters_stepsFrom {stem : String} {rest : List (Join × Segment)}
    (letters : KeyLetters stem.toList) (valid : ∀ entry ∈ rest, entry.2.WellFormed) :
    ∀ step ∈ stepsFrom stem rest, KeyLetters step.key.toList := by
  induction rest generalizing stem with
  | nil => exact fun step member => absurd member List.not_mem_nil
  | cons entry rest ih =>
    obtain ⟨join, segment⟩ := entry
    obtain ⟨here, further⟩ := List.forall_mem_cons.1 valid
    have key : KeyLetters (stem ++ String.singleton join.symbol ++ segment.name).toList := by
      have joined := letters.join join here.1
      simpa [String.toList_append] using joined
    rw [stepsFrom]
    refine List.forall_mem_cons.2 ⟨key, ih ?_ further⟩
    rw [String.toList_append]
    exact key.pin segment

/-- The key of each step of a path can be followed. -/
theorem Path.followable_key {path : Path} (wellFormed : path.WellFormed) {step : Step}
    (member : step ∈ path.steps) : Followable step.key := by
  have first := KeyLetters.of_name wellFormed.1.1
  have letters : ∀ step ∈ path.steps, KeyLetters step.key.toList := by
    rw [steps]
    refine List.forall_mem_cons.2 ⟨first, keyLetters_stepsFrom ?_ wellFormed.2⟩
    rw [String.toList_append]
    exact first.pin path.first
  exact (letters step member).followable

theorem exists_step_of_reference {expression : Expression} (indexed : expression.Indexed) {key : String}
    {index : Nat} (member : (key, index) ∈ expression.references) :
    ∃ path ∈ expression.paths, ∃ step ∈ path.steps, step.key = key := by
  rw [indexed] at member
  obtain ⟨path, among, inside⟩ := List.mem_flatMap.1 member
  obtain ⟨step, here, selects⟩ := List.mem_filterMap.1 inside
  obtain ⟨number, _, same⟩ := Option.map_eq_some_iff.1 selects
  exact ⟨path, among, step, here, congrArg Prod.fst same⟩

theorem Path.exists_step_of_contextCollection? {path : Path} {collection : String}
    (found : path.contextCollection? = some collection) : ∃ step ∈ path.steps, step.key = collection := by
  obtain ⟨step, last, same⟩ := Option.map_eq_some_iff.1 found
  obtain ⟨part, before, ends⟩ := Option.bind_eq_some_iff.1 last
  have inside := List.dropLast_subset _ (List.mem_of_getLast? before)
  exact ⟨step, mem_steps_of_mem_chunks inside (List.mem_of_getLast? ends), same⟩

/-- The collection that is inferred for expressions is the key of a step in them. -/
theorem exists_step_of_inferCollection? {expressions : List Expression} {collection : String}
    (indexed : ∀ expression ∈ expressions, expression.Indexed)
    (inferred : inferCollection? expressions = some collection) :
    ∃ expression ∈ expressions, ∃ path ∈ expression.paths, ∃ step ∈ path.steps,
      step.key = collection := by
  unfold inferCollection? at inferred
  dsimp only at inferred
  split at inferred
  · rename_i key index first
    obtain rfl : key = collection := Option.some.inj inferred
    obtain ⟨expression, among, reference⟩ := List.mem_flatMap.1 (List.mem_of_find?_eq_some first)
    have member := List.mem_of_mem_filter among
    exact ⟨expression, member, exists_step_of_reference (indexed expression member) reference⟩
  · split at inferred
    · rename_i key index others listed
      obtain rfl : key = collection := Option.some.inj inferred
      have member : (key, index) ∈ expressions.flatMap Expression.references :=
        listed ▸ List.mem_cons_self
      obtain ⟨expression, among, reference⟩ := List.mem_flatMap.1 member
      exact ⟨expression, among, exists_step_of_reference (indexed expression among) reference⟩
    · obtain ⟨expression, among, further⟩ := List.exists_of_findSome?_eq_some inferred
      obtain ⟨path, inside, goes⟩ := List.exists_of_findSome?_eq_some further
      exact ⟨expression, among, path, inside, Path.exists_step_of_contextCollection? goes⟩

theorem Path.exists_step_of_mem_rest {stem : String} {rest : List (Join × Segment)}
    {entry : Join × Segment} (member : entry ∈ rest) :
    ∃ step ∈ stepsFrom stem rest, step.join = some entry.1 := by
  induction rest generalizing stem with
  | nil => cases member
  | cons first rest ih =>
    obtain ⟨join, segment⟩ := first
    rw [stepsFrom]
    rcases List.mem_cons.1 member with rfl | later
    · exact ⟨_, List.mem_cons_self, rfl⟩
    · obtain ⟨step, among, same⟩ := @ih (stem ++ String.singleton join.symbol ++ segment.name ++ segment.pin)
        later
      exact ⟨step, List.mem_cons_of_mem _ among, same⟩

/-- A path with a `>` goes on from some collection. -/
theorem Path.contextCollection?_ne_none {path : Path} (uses : path.usesContext = true) :
    path.contextCollection? ≠ none := by
  intro none
  obtain ⟨part, more, starts⟩ := List.exists_cons_of_ne_nil (chunks_ne_nil path)
  rw [contextCollection?, Option.map_eq_none_iff, Option.bind_eq_none_iff] at none
  have whole : path.steps = part := by
    have flat := flatten_chunks path
    cases more with
    | nil => simpa [starts] using flat.symm
    | cons next more =>
      -- The parts in front of the last one are not empty
      obtain ⟨last, ends⟩ : ∃ last, path.chunks.dropLast.getLast? = some last := by
        rw [starts, List.dropLast_cons_cons]
        exact Option.ne_none_iff_exists'.1 (by simp)
      have filled := ne_nil_of_mem_chunks (List.dropLast_subset _ (List.mem_of_getLast? ends))
      exact absurd (List.getLast?_eq_none_iff.1 (none last ends)) filled
  obtain ⟨entry, member, crosses⟩ := List.any_eq_true.1 uses
  obtain ⟨step, among, join⟩ := @exists_step_of_mem_rest (path.first.name ++ path.first.pin) _ _ member
  obtain ⟨first, rest, cut, plain⟩ := exists_cons_of_mem_chunks (starts ▸ List.mem_cons_self)
  rw [cut, steps] at whole
  obtain ⟨_, rfl⟩ := List.cons.inj whole
  rw [beq_iff_eq.1 crosses] at join
  exact plain step among join

/-- Expressions that select an element or go on from a collection have one inferred for them. -/
theorem inferCollection?_ne_none {expressions : List Expression} {expression : Expression}
    (member : expression ∈ expressions)
    (uses : expression.references ≠ [] ∨ expression.usesContext = true) :
    inferCollection? expressions ≠ none := by
  unfold inferCollection?
  dsimp only
  split
  · exact Option.some_ne_none _
  · split
    · exact Option.some_ne_none _
    · rename_i silent
      have unselected := List.flatMap_eq_nil_iff.1 silent expression member
      obtain ⟨path, inside, crosses⟩ := List.any_eq_true.1 (uses.resolve_left (not_not_intro unselected))
      intro none
      have further := List.findSome?_eq_none_iff.1 none expression member
      exact Path.contextCollection?_ne_none crosses (List.findSome?_eq_none_iff.1 further path inside)

end DeckBinding
