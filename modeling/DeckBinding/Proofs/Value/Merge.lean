import DeckBinding.Proofs.Value.Key
import DeckBinding.Value.Merge

set_option autoImplicit false

namespace DeckBinding

variable {entries base overlay : Entries} {key other value : Value}

namespace Entries

theorem find?_cons (known member : Value) (rest : Entries) (key : Value) :
    find? ((known, member) :: rest) key = if known.sameKey key then some member else find? rest key := by
  unfold find?
  rw [List.find?_cons]
  cases known.sameKey key <;> rfl

/-- One key in the place of another that is one key with it. -/
theorem find?_congr (entries : Entries) (same : key.sameKey other = true) :
    find? entries key = find? entries other := by
  unfold find?
  congr 2
  funext entry
  rw [entry.1.sameKey_comm key, entry.1.sameKey_comm other, Value.sameKey_congr same]

theorem find?_insert (entries : Entries) (key value other : Value) :
    find? (entries.insert key value) other =
      if key.sameKey other then some value else find? entries other := by
  induction entries with
  | nil => rw [insert, find?_cons]
  | cons entry rest ih =>
    obtain ⟨known, old⟩ := entry
    rw [insert]
    by_cases here : known.sameKey key = true
    · rw [if_pos here, find?_cons, find?_cons, Value.sameKey_congr here]
      split <;> rfl
    · rw [if_neg here, find?_cons, find?_cons, ih]
      by_cases found : known.sameKey other = true
      · -- the key cannot be one with the other too, for then it would be the known one
        have apart : ¬ key.sameKey other = true := by
          intro same
          rw [Value.sameKey_comm, Value.sameKey_congr same, Value.sameKey_comm] at here
          exact here found
        rw [if_pos found, if_pos found, if_neg apart]
      · rw [if_neg found, if_neg found]

/-- A new key is set behind the others; a known one stays where it is. -/
theorem keys_insert (entries : Entries) (key value : Value) :
    (entries.insert key value).map (·.1) =
      entries.map (·.1) ++ if (find? entries key).isNone then [key] else [] := by
  induction entries with
  | nil => rfl
  | cons entry rest ih =>
    obtain ⟨known, old⟩ := entry
    rw [insert, find?_cons]
    by_cases here : known.sameKey key = true
    · simp [here]
    · simp [here, ih]

end Entries

mutual

/-- Whether no mapping at a key path of a value has one key twice. -/
def Value.keysApart : Value → Bool
  | .map entries => Entries.keysApart entries
  | _ => true
termination_by structural value => value

/-- Whether no mapping at a key path has one key twice. -/
def Entries.keysApart : List (Value × Value) → Bool
  | [] => true
  | (key, value) :: rest =>
    rest.all (fun entry => !key.sameKey entry.1) && Value.keysApart value && Entries.keysApart rest
termination_by structural entries => entries

end

namespace Entries

theorem find?_of_apart {rest : Entries} {member : Value} (apart : keysApart ((key, member) :: rest) = true)
    (same : key.sameKey other = true) : find? rest other = none := by
  simp only [keysApart, Bool.and_eq_true, List.all_eq_true, Bool.not_eq_true'] at apart
  unfold find?
  rw [Option.map_eq_none_iff, List.find?_eq_none]
  intro entry member
  rw [Value.sameKey_comm, ← Value.sameKey_congr same, apart.1.1 entry member]
  exact Bool.false_ne_true

theorem keysApart_of_find? (apart : keysApart entries = true) (found : find? entries key = some value) :
    value.keysApart = true := by
  induction entries with
  | nil => cases found
  | cons entry rest ih =>
    obtain ⟨known, member⟩ := entry
    rw [keysApart, Bool.and_eq_true, Bool.and_eq_true] at apart
    rw [find?_cons] at found
    split at found
    · cases found
      exact apart.1.2
    · exact ih apart.2 found

/-- What a key of two merged mappings leads to. -/
theorem find?_merge (apart : keysApart overlay = true) (base : Entries) (key : Value) :
    find? (merge base overlay) key =
      match find? overlay key with
      | some value => some (Value.mergeOver (find? base key) value)
      | none => find? base key := by
  induction overlay generalizing base with
  | nil => rfl
  | cons entry rest ih =>
    obtain ⟨known, member⟩ := entry
    have inner : keysApart rest = true := by
      rw [keysApart, Bool.and_eq_true] at apart
      exact apart.2
    rw [merge, ih inner, find?_insert, find?_cons]
    by_cases here : known.sameKey key = true
    · rw [find?_of_apart apart here, if_pos here, if_pos here, find?_congr base here]
    · rw [if_neg here, if_neg here]

/-- The keys of two merged mappings: those of the base in order, and then the new ones in order. -/
theorem keys_merge (apart : keysApart overlay = true) (base : Entries) :
    (merge base overlay).map (·.1) =
      base.map (·.1) ++ (overlay.filter fun entry => (find? base entry.1).isNone).map (·.1) := by
  induction overlay generalizing base with
  | nil => rw [merge, List.filter_nil, List.map_nil, List.append_nil]
  | cons entry rest ih =>
    obtain ⟨known, member⟩ := entry
    have inner : keysApart rest = true := by
      rw [keysApart, Bool.and_eq_true] at apart
      exact apart.2
    have others : rest.filter (fun entry => (find? (base.insert known
        (Value.mergeOver (find? base known) member)) entry.1).isNone) =
        rest.filter fun entry => (find? base entry.1).isNone := by
      refine List.filter_congr fun entry among => ?_
      simp only [keysApart, Bool.and_eq_true, List.all_eq_true, Bool.not_eq_true'] at apart
      rw [find?_insert, apart.1.1 entry among, if_neg Bool.false_ne_true]
    rw [merge, ih inner, keys_insert, others, List.append_assoc, List.filter_cons]
    split <;> simp

end Entries

namespace Value

/-- What a path of keys leads to, each a key of the mapping before it. -/
def under? (value : Value) : List Value → Option Value
  | [] => some value
  | key :: rest =>
    match value with
    | .map entries => (Entries.find? entries key).bind fun member => under? member rest
    | _ => none

@[simp]
theorem under?_nil (value : Value) : value.under? [] = some value := by
  cases value <;> rfl

@[simp]
theorem under?_map_cons (entries : Entries) (key : Value) (rest : List Value) :
    (Value.map entries).under? (key :: rest) =
      (entries.find? key).bind fun member => member.under? rest :=
  rfl

/-- What no mapping holds nothing at any path but its own. -/
theorem exists_map_of_under? {rest : List Value} {found : Value} (filled : rest ≠ [])
    (held : value.under? rest = some found) : ∃ entries, value = .map entries := by
  cases rest with
  | nil => exact absurd rfl filled
  | cons key rest =>
    cases value with
    | map entries => exact ⟨entries, rfl⟩
    | _ => cases held

/-- Nothing is there twice in what a path leads to either. -/
theorem keysApart_of_under? {path : List Value} {found : Value} (apart : value.keysApart = true)
    (held : value.under? path = some found) : found.keysApart = true := by
  induction path generalizing value with
  | nil =>
    rw [under?_nil] at held
    cases held
    exact apart
  | cons key rest ih =>
    obtain ⟨entries, rfl⟩ := exists_map_of_under? (List.cons_ne_nil _ _) held
    obtain ⟨member, here, held⟩ := Option.bind_eq_some_iff.1 held
    exact ih (Entries.keysApart_of_find? apart here) held

end Value

theorem Value.mergeOver_map (below above : Entries) :
    mergeOver (some (.map below)) (.map above) = .map (Entries.merge below above) := by
  rw [mergeOver]

/-- What two merged mappings hold at a path where the one holds `below` and the other `above`. -/
def mergedMember (below above : Option Value) : Option Value :=
  match below, above with
  | some (.map base), some (.map overlay) => some (.map (Entries.merge base overlay))
  | _, some value => some value
  | below, none => below

theorem mergedMember_none (below : Option Value) : mergedMember below none = below := by
  rcases below with _ | value
  · rfl
  · cases value <;> rfl

theorem mergedMember_some (below : Option Value) (value : Value) :
    mergedMember below (some value) = some (value.mergeOver below) := by
  cases value with
  | map overlay =>
    rcases below with _ | current
    · simp [mergedMember, Value.mergeOver]
    · cases current <;> simp [mergedMember, Value.mergeOver]
  | _ =>
    rcases below with _ | current
    · rfl
    · cases current <;> rfl

/-- Two mappings hold mappings at every front of a path but the path itself. -/
def MappingsAlong (base overlay : Entries) (path : List Value) : Prop :=
  ∀ front behind, path = front ++ behind → behind ≠ [] →
    ∃ below above, (Value.map base).under? front = some (.map below) ∧
      (Value.map overlay).under? front = some (.map above)

namespace MappingsAlong

variable {path : List Value}

/-- Behind a first key both mappings hold mappings, with mappings along the rest of the path. -/
theorem exists_inner (along : MappingsAlong base overlay (key :: path)) (filled : path ≠ []) :
    ∃ below above, base.find? key = some (.map below) ∧ overlay.find? key = some (.map above) ∧
      MappingsAlong below above path := by
  obtain ⟨below, above, first, second⟩ := along [key] path rfl filled
  rw [Value.under?_map_cons, Option.bind_eq_some_iff] at first second
  simp only [Value.under?_nil, Option.some.injEq, exists_eq_right] at first second
  refine ⟨below, above, first, second, ?_⟩
  intro front behind whole inside
  obtain ⟨lower, upper, held, laid⟩ := along (key :: front) behind (by rw [whole]; rfl) inside
  rw [Value.under?_map_cons, first] at held
  rw [Value.under?_map_cons, second] at laid
  exact ⟨lower, upper, held, laid⟩

/-- What two merged mappings hold at a path is what they hold there, merged. -/
theorem under?_merge (apart : Entries.keysApart overlay = true) (filled : path ≠ [])
    (along : MappingsAlong base overlay path) :
    (Value.map (Entries.merge base overlay)).under? path =
      mergedMember ((Value.map base).under? path) ((Value.map overlay).under? path) := by
  induction path generalizing base overlay with
  | nil => exact absurd rfl filled
  | cons key rest ih =>
    rw [Value.under?_map_cons, Value.under?_map_cons, Value.under?_map_cons, Entries.find?_merge apart]
    by_cases last : rest = []
    · subst last
      simp only [Value.under?_nil, Option.bind_fun_some]
      cases overlay.find? key with
      | none => exact (mergedMember_none _).symm
      | some value => exact (mergedMember_some _ value).symm
    · obtain ⟨below, above, first, second, inner⟩ := along.exists_inner last
      rw [first, second]
      simp only [Option.bind_some, Value.mergeOver_map]
      exact ih (Entries.keysApart_of_find? apart second) last inner

/-- A mapping in two merged ones has the keys of the base in order, and then the new ones in
order. -/
theorem exists_merged {below above : Entries} (apart : Entries.keysApart overlay = true)
    (along : MappingsAlong base overlay path) (first : (Value.map base).under? path = some (.map below))
    (second : (Value.map overlay).under? path = some (.map above)) :
    ∃ merged, (Value.map (Entries.merge base overlay)).under? path = some (.map merged) ∧
      merged.map (·.1) =
        below.map (·.1) ++ (above.filter fun entry => (below.find? entry.1).isNone).map (·.1) := by
  have inner : Entries.keysApart above = true := by
    have whole : (Value.map above).keysApart = true :=
      @Value.keysApart_of_under? (.map overlay) path _ (by rwa [Value.keysApart]) second
    rwa [Value.keysApart] at whole
  refine ⟨Entries.merge below above, ?_, Entries.keys_merge inner below⟩
  cases path with
  | nil =>
    cases first
    cases second
    rfl
  | cons key rest =>
    rw [along.under?_merge apart (List.cons_ne_nil _ _), first, second]
    rfl

end MappingsAlong

/-- Where the overlay holds nothing at a path, and at every front of it nothing or a mapping, the
merged mapping holds what the base holds. -/
theorem under?_merge_of_absent {path : List Value} (apart : Entries.keysApart overlay = true)
    (held : (Value.map base).under? path = some value) (absent : (Value.map overlay).under? path = none)
    (sections : ∀ front behind, path = front ++ behind → behind ≠ [] →
      (Value.map overlay).under? front = none ∨
        ∃ entries, (Value.map overlay).under? front = some (.map entries)) :
    (Value.map (Entries.merge base overlay)).under? path = some value := by
  induction path generalizing base overlay with
  | nil => cases absent
  | cons key rest ih =>
    rw [Value.under?_map_cons] at held absent ⊢
    rw [Entries.find?_merge apart]
    cases laid : overlay.find? key with
    | none => exact held
    | some member =>
      rw [laid, Option.bind_some] at absent
      have filled : rest ≠ [] := by
        rintro rfl
        cases absent
      obtain ⟨above, rfl⟩ : ∃ above, member = .map above := by
        simpa [laid] using sections [key] rest rfl filled
      obtain ⟨current, found, inner⟩ := Option.bind_eq_some_iff.1 held
      obtain ⟨below, rfl⟩ := Value.exists_map_of_under? filled inner
      rw [found]
      simp only [Option.bind_some, Value.mergeOver_map]
      refine ih (Entries.keysApart_of_find? apart laid) inner absent ?_
      intro front behind whole inside
      simpa [laid] using sections (key :: front) behind (by rw [whole]; rfl) inside

end DeckBinding
