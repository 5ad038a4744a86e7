import DeckBinding.Configuration.Loading
import DeckBinding.Proofs.Outcome
import DeckBinding.Proofs.Value.Merge

set_option autoImplicit false

namespace DeckBinding

open DeckBinding.Text

/-- Named members are members under keys that are texts. -/
theorem memberAt?_eq_under? (value : Value) (names : List String) :
    memberAt? value names = value.under? (names.map .text) := by
  induction names generalizing value with
  | nil => exact (value.under?_nil).symm
  | cons name rest ih =>
    cases value with
    | map entries =>
      rw [List.map_cons, Value.under?_map_cons, memberAt?, Value.member?]
      cases Entries.find? entries (.text name) with
      | none => rfl
      | some member => exact ih member
    | _ => rfl

/-- What the defaults have at names that a configuration does not mention, and in whose sections it
says nothing else than mappings, is still there when the configuration is laid over them. -/
theorem memberAt?_merge_of_absent {base given : Entries} {names : List String} {value : Value}
    (apart : Entries.keysApart given = true) (held : memberAt? (.map base) names = some value)
    (absent : memberAt? (.map given) names = none)
    (sections : ∀ front behind, names = front ++ behind → behind ≠ [] →
      memberAt? (.map given) front = none ∨
        ∃ entries, memberAt? (.map given) front = some (.map entries)) :
    memberAt? (.map (Entries.merge base given)) names = some value := by
  rw [memberAt?_eq_under?] at held absent ⊢
  refine under?_merge_of_absent apart held absent ?_
  intro front behind whole filled
  obtain ⟨first, last, rfl, rfl, rfl⟩ := List.map_eq_append_iff.1 whole
  rw [← memberAt?_eq_under?]
  exact sections first last rfl fun empty => filled (by rw [empty, List.map_nil])

namespace Configuration

/-- The members of a configuration are the given ones laid over the defaults. -/
theorem members_of_ofValue {current file folder : Location} {given : Entries} {configuration : Configuration}
    (loaded : ofValue current file folder (.map given) = .ok configuration) :
    configuration.members = Entries.merge [(.text "settings", defaultSettings)] given := by
  obtain ⟨_, -, loaded⟩ := exists_of_bind_eq_ok loaded
  obtain ⟨_, -, loaded⟩ := exists_of_bind_eq_ok loaded
  obtain ⟨_, -, loaded⟩ := exists_of_bind_eq_ok loaded
  obtain ⟨_, -, loaded⟩ := exists_of_bind_eq_ok loaded
  cases loaded
  rfl

/-- Outside of the section of paths the members alone give the answers. -/
theorem get?_eq_memberAt? {configuration : Configuration} {key name : String} {rest : List String}
    (names : splitString '.' key = name :: rest) (apart : name ≠ "paths") :
    configuration.get? key = memberAt? (.map configuration.members) (splitString '.' key) := by
  have other : ¬ (Value.text "paths").sameKey (.text name) = true :=
    fun same => apart (eq_of_beq same).symm
  rw [get?, names, tree, memberAt?, memberAt?, Value.member?, Value.member?, Entries.find?_insert,
    if_neg other]

/-- The defaults have no section of paths, so that the members alone give the answers where there is
a default. -/
theorem get?_eq_memberAt?_of_default {configuration : Configuration} {key : String} {value : Value}
    (paths : Entries) (held : memberAt? (.map [(.text "settings", defaultSettings)]) (splitString '.' key) = some value) :
    get? { configuration with paths } key = memberAt? (.map configuration.members) (splitString '.' key) := by
  have names : splitString '.' key = (splitString '.' key).headD "" :: (splitString '.' key).tail := rfl
  refine get?_eq_memberAt? names fun same => ?_
  rw [names, same, memberAt?, Value.member?, Entries.find?_cons, if_neg (by decide)] at held
  cases held

/-- Two mappings merged at every key path, and the defaults that are left by it. Where both hold
mappings in front of a path, the merged mapping holds the two subtrees merged, or what the overlay
holds, or else what the base holds; the keys of every merged mapping are those of the base in order,
followed by the new ones in order. A configuration answers with the default wherever it is silent,
whatever paths are set later on. -/
theorem merged_along_key_paths {overlay : Entries} (apart : Entries.keysApart overlay = true) :
    (∀ (base : Entries) (path : List Value), path ≠ [] → MappingsAlong base overlay path →
      (Value.map (Entries.merge base overlay)).under? path =
        mergedMember ((Value.map base).under? path) ((Value.map overlay).under? path)) ∧
    (∀ (base below above : Entries) (path : List Value), MappingsAlong base overlay path →
      (Value.map base).under? path = some (.map below) →
      (Value.map overlay).under? path = some (.map above) →
      ∃ merged, (Value.map (Entries.merge base overlay)).under? path = some (.map merged) ∧
        merged.map (·.1) =
          below.map (·.1) ++ (above.filter fun entry => (below.find? entry.1).isNone).map (·.1)) ∧
    (∀ (current file folder : Location) (configuration : Configuration) (key : String) (value : Value)
        (paths : Entries),
      ofValue current file folder (.map overlay) = .ok configuration →
      memberAt? (.map [(.text "settings", defaultSettings)]) (splitString '.' key) = some value →
      memberAt? (.map overlay) (splitString '.' key) = none →
      (∀ front behind, splitString '.' key = front ++ behind → behind ≠ [] →
        memberAt? (.map overlay) front = none ∨
          ∃ entries, memberAt? (.map overlay) front = some (.map entries)) →
      get? { configuration with paths } key = some value) := by
  refine ⟨?_, ?_, ?_⟩
  · intro base path filled along
    exact along.under?_merge apart filled
  · intro base below above path along first second
    exact along.exists_merged apart first second
  · intro current file folder configuration key value paths loaded held absent sections
    rw [get?_eq_memberAt?_of_default paths held, members_of_ofValue loaded]
    exact memberAt?_merge_of_absent apart held absent sections

/-- Two of the default settings are replaced, one by null, and a new one is added: the others are
kept. -/
theorem merged_along_some_key_paths :
    let overlay : Entries := [(.text "settings", .map [
      (.text "logging", .null),
      (.text "generation", .map [(.text "margin", .int 2), (.text "hide_mode", .text "blank")])])]
    let path : List Value := [.text "settings", .text "generation"]
    Entries.keysApart overlay = true ∧
      (path ≠ [] ∧ MappingsAlong [(.text "settings", defaultSettings)] overlay path) ∧
      (Value.map (Entries.merge [(.text "settings", defaultSettings)] overlay)).under? path =
        some (.map [(.text "hide_mode", .text "blank"), (.text "normalize_quotes", .bool true),
          (.text "remove_template_slides", .bool true), (.text "margin", .int 2)]) ∧
      ∃ configuration, ofValue ⟨"/", []⟩ ⟨"/", ["config.yaml"]⟩ ⟨"/", []⟩ (.map overlay) = .ok configuration ∧
        get? { configuration with paths := [] } "settings.generation.normalize_quotes" =
          some (.bool true) := by
  intro overlay path
  have apart : Entries.keysApart overlay = true := by decide +kernel
  have along : MappingsAlong [(.text "settings", defaultSettings)] overlay path := by
    intro front behind whole filled
    rcases front with _ | ⟨first, _ | ⟨second, front⟩⟩
    · exact ⟨_, _, rfl, rfl⟩
    · obtain ⟨rfl, -⟩ := List.cons.inj whole
      exact ⟨_, _, rfl, rfl⟩
    · obtain ⟨-, rest⟩ := List.cons.inj whole
      obtain ⟨-, rest⟩ := List.cons.inj rest
      exact absurd (List.append_eq_nil_iff.1 rest.symm).2 filled
  have names : splitString '.' "settings.generation.normalize_quotes" =
      ["settings", "generation", "normalize_quotes"] := by decide +kernel
  obtain ⟨merged, -, answered⟩ := merged_along_key_paths apart
  refine ⟨apart, ⟨List.cons_ne_nil _ _, along⟩, ?_, _, rfl, ?_⟩
  · exact (merged _ path (List.cons_ne_nil _ _) along).trans rfl
  · refine answered ⟨"/", []⟩ ⟨"/", ["config.yaml"]⟩ ⟨"/", []⟩ _ _ _ [] rfl (by rw [names]; rfl) (by rw [names]; rfl) ?_
    rw [names]
    intro front behind whole filled
    rcases front with _ | ⟨first, _ | ⟨second, _ | ⟨third, front⟩⟩⟩
    · exact .inr ⟨_, rfl⟩
    · obtain ⟨rfl, -⟩ := List.cons.inj whole
      exact .inr ⟨_, rfl⟩
    · obtain ⟨rfl, inner⟩ := List.cons.inj whole
      obtain ⟨rfl, -⟩ := List.cons.inj inner
      exact .inr ⟨_, rfl⟩
    · simp only [List.cons_append, List.cons.injEq, List.nil_eq, List.append_eq_nil_iff] at whole
      exact absurd whole.2.2.2.2 filled

end Configuration

end DeckBinding
