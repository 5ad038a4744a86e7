import DeckBinding.Keyed
import Mathlib.Data.List.Induction
import Mathlib.Data.List.Nodup

set_option autoImplicit false

namespace DeckBinding.Keyed

variable {κ α : Type} [DecidableEq κ]

theorem get?_eq_none_iff {key : κ} {entries : List (κ × α)} :
    get? key entries = none ↔ key ∉ entries.map (·.1) := by
  induction entries with
  | nil => simp [get?]
  | cons entry rest ih =>
    obtain ⟨known, value⟩ := entry
    unfold get?
    by_cases same : known = key
    · simp [same]
    · have apart : ¬ key = known := fun again => same again.symm
      rw [if_neg same, ih]
      simp [apart]

theorem mem_of_get? {key : κ} {value : α} {entries : List (κ × α)}
    (found : get? key entries = some value) : (key, value) ∈ entries := by
  induction entries with
  | nil => cases found
  | cons entry rest ih =>
    obtain ⟨known, old⟩ := entry
    unfold get? at found
    split at found
    · rename_i same
      cases found
      rw [same]
      exact List.mem_cons_self
    · exact List.mem_cons_of_mem _ (ih found)

theorem get?_eq_some_iff {entries : List (κ × α)} (nodup : (entries.map (·.1)).Nodup) {key : κ}
    {value : α} : get? key entries = some value ↔ (key, value) ∈ entries := by
  induction entries with
  | nil => simp [get?]
  | cons entry rest ih =>
    obtain ⟨known, old⟩ := entry
    rw [List.map_cons, List.nodup_cons] at nodup
    unfold get?
    by_cases same : known = key
    · subst same
      have absent : (known, value) ∉ rest :=
        fun member => nodup.1 (List.mem_map.2 ⟨_, member, rfl⟩)
      simp [absent, eq_comm]
    · have apart : ¬ key = known := fun again => same again.symm
      rw [if_neg same, ih nodup.2]
      simp [apart]

theorem get?_perm {left right : List (κ × α)} (perm : left.Perm right)
    (nodup : (left.map (·.1)).Nodup) (key : κ) : get? key left = get? key right := by
  have nodupRight : (right.map (·.1)).Nodup := (perm.map _).nodup_iff.1 nodup
  apply Option.ext
  intro value
  rw [get?_eq_some_iff nodup, get?_eq_some_iff nodupRight, perm.mem_iff]

theorem put_of_absent {key : κ} {entries : List (κ × α)} (absent : key ∉ entries.map (·.1))
    (value : α) : put key value entries = entries ++ [(key, value)] := by
  induction entries with
  | nil => rfl
  | cons entry rest ih =>
    obtain ⟨known, old⟩ := entry
    rw [List.map_cons, List.mem_cons, not_or] at absent
    unfold put
    rw [if_neg fun same => absent.1 same.symm, ih absent.2]
    rfl

theorem get?_remove (key other : κ) (entries : List (κ × α)) :
    get? other (remove key entries) = if other = key then none else get? other entries := by
  induction entries with
  | nil => simp [remove, get?]
  | cons entry rest ih =>
    obtain ⟨known, value⟩ := entry
    rw [remove]
    by_cases same : known = key
    · rw [if_pos same, ih]
      by_cases found : other = key
      · simp [found]
      · have apart : ¬ known = other := fun again => found (again.symm.trans same)
        simp [get?, found, apart]
    · rw [if_neg same]
      by_cases found : known = other
      · have apart : ¬ other = key := fun again => same (found.trans again)
        simp [get?, found, apart]
      · simp [get?, found, ih]

/-- The last pair with a key counts when pairs are taken together. -/
theorem get?_ofList (key : κ) (pairs : List (κ × α)) :
    get? key (ofList pairs) = (pairs.reverse.find? fun pair => pair.1 = key).map (·.2) := by
  induction pairs using List.reverseRecOn with
  | nil => rfl
  | append_singleton front pair ih =>
    have last : ofList (front ++ [pair]) = put pair.1 pair.2 (ofList front) := by
      simp only [ofList, List.foldl_append, List.foldl_cons, List.foldl_nil]
    rw [last, get?_put, ih, List.reverse_append, List.reverse_singleton, List.singleton_append,
      List.find?_cons]
    by_cases same : pair.1 = key <;> simp [same]

/-- What is found among pairs taken together is one of the pairs. -/
theorem mem_of_get?_ofList {pairs : List (κ × α)} {key : κ} {value : α}
    (found : get? key (ofList pairs) = some value) : (key, value) ∈ pairs := by
  rw [get?_ofList] at found
  obtain ⟨pair, last, rfl⟩ := Option.map_eq_some_iff.1 found
  have same : pair.1 = key := by simpa using List.find?_some last
  exact same ▸ List.mem_reverse.1 (List.mem_of_find?_eq_some last)

/-- No key is lost when pairs are taken together. -/
theorem mem_keys_ofList {pairs : List (κ × α)} {key : κ} (member : key ∈ pairs.map (·.1)) :
    key ∈ (ofList pairs).map (·.1) := by
  by_contra absent
  rw [← get?_eq_none_iff, get?_ofList, Option.map_eq_none_iff, List.find?_eq_none] at absent
  obtain ⟨pair, among, rfl⟩ := List.mem_map.1 member
  exact absent pair (List.mem_reverse.2 among) (decide_eq_true rfl)

theorem ofList_of_nodup {pairs : List (κ × α)} (nodup : (pairs.map (·.1)).Nodup) :
    ofList pairs = pairs := by
  -- the pairs set so far are a front of the list, and no later key is among them
  have step (rest entries : List (κ × α)) (apart : ((entries ++ rest).map (·.1)).Nodup) :
      rest.foldl (fun entries pair => put pair.1 pair.2 entries) entries = entries ++ rest := by
    induction rest generalizing entries with
    | nil => exact (List.append_nil _).symm
    | cons pair rest ih =>
      have absent : pair.1 ∉ entries.map (·.1) := by
        rw [List.map_append, List.map_cons] at apart
        exact fun member => (List.nodup_append.1 apart).2.2 _ member _ List.mem_cons_self rfl
      have moved : entries ++ pair :: rest = (entries ++ [(pair.1, pair.2)]) ++ rest := by
        rw [List.append_assoc]
        rfl
      rw [List.foldl_cons, put_of_absent absent, moved]
      apply ih
      rwa [← moved]
  exact step pairs [] nodup

end DeckBinding.Keyed
