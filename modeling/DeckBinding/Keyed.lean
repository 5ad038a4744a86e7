set_option autoImplicit false

namespace DeckBinding.Keyed

variable {κ α : Type} [DecidableEq κ]

/-- Sets the value of a key: in its place when the key is there, else at the end. -/
def put (key : κ) (value : α) : List (κ × α) → List (κ × α)
  | [] => [(key, value)]
  | (known, old) :: rest =>
    if known = key then (known, value) :: rest else (known, old) :: put key value rest

def get? (key : κ) : List (κ × α) → Option α
  | [] => none
  | (known, value) :: rest => if known = key then some value else get? key rest

def remove (key : κ) : List (κ × α) → List (κ × α)
  | [] => []
  | (known, value) :: rest =>
    if known = key then remove key rest else (known, value) :: remove key rest

/-- One pair for each key, at the place of its first pair and with the value of its last. -/
def ofList (pairs : List (κ × α)) : List (κ × α) :=
  pairs.foldl (fun entries pair => put pair.1 pair.2 entries) []

theorem get?_put (key other : κ) (value : α) (entries : List (κ × α)) :
    get? other (put key value entries) = if key = other then some value else get? other entries := by
  induction entries with
  | nil => rfl
  | cons entry rest ih =>
    obtain ⟨known, old⟩ := entry
    unfold put
    by_cases here : known = key
    · subst here
      by_cases same : known = other <;> simp [get?, same]
    · by_cases found : known = other
      · have apart : ¬ key = other := fun same => here (found.trans same.symm)
        rw [if_neg here]
        simp [get?, found, apart]
      · simp [get?, here, found, ih]

theorem length_remove_le (key : κ) (entries : List (κ × α)) :
    (remove key entries).length ≤ entries.length := by
  induction entries with
  | nil => simp [remove]
  | cons entry rest ih =>
    unfold remove
    split
    · simp only [List.length_cons]; omega
    · simp only [List.length_cons]; omega

theorem length_remove_lt {key : κ} {entries : List (κ × α)} (known : (get? key entries).isSome) :
    (remove key entries).length < entries.length := by
  induction entries with
  | nil => simp [get?] at known
  | cons entry rest ih =>
    obtain ⟨other, value⟩ := entry
    have kept := length_remove_le key rest
    by_cases same : other = key
    · simp only [remove, same, if_true, List.length_cons]
      omega
    · have inner := ih (by simpa [get?, same] using known)
      simp only [remove, same, if_false, List.length_cons]
      omega

/-- Setting a key adds it behind the others, or changes no key. -/
theorem keys_put (key : κ) (value : α) (entries : List (κ × α)) :
    (put key value entries).map (·.1) =
      if key ∈ entries.map (·.1) then entries.map (·.1) else entries.map (·.1) ++ [key] := by
  induction entries with
  | nil => simp [put]
  | cons entry rest ih =>
    obtain ⟨known, old⟩ := entry
    unfold put
    by_cases here : known = key
    · simp [here]
    · have apart : ¬ key = known := fun same => here same.symm
      simp only [here, if_false, List.map_cons, ih, List.mem_cons, apart, false_or]
      split <;> simp

theorem nodup_keys_put (key : κ) (value : α) {entries : List (κ × α)}
    (nodup : (entries.map (·.1)).Nodup) : ((put key value entries).map (·.1)).Nodup := by
  rw [keys_put]
  split
  · exact nodup
  · rename_i absent
    rw [List.nodup_append]
    refine ⟨nodup, by simp, ?_⟩
    intro known member other single
    rw [List.mem_singleton] at single
    subst single
    exact fun same => absent (same ▸ member)

end DeckBinding.Keyed
