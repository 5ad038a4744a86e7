import Mathlib.Data.List.Forall2

set_option autoImplicit false

namespace DeckBinding

variable {ε α β : Type} {first : α → Except ε β} {items : List α} {results : List β}

/-- A computation in steps succeeds when each of them does. -/
theorem exists_of_bind_eq_ok {start : Except ε α} {next : α → Except ε β} {result : β}
    (done : (start >>= next) = .ok result) : ∃ value, start = .ok value ∧ next value = .ok result := by
  cases start with
  | error error => cases done
  | ok value => exact ⟨value, rfl, done⟩

theorem bind_eq_map {start : Except ε α} {next other : α → Except ε β} {view : β → β}
    (each : ∀ value, next value = (other value).map view) :
    (start >>= next) = (start >>= other).map view := by
  cases start with
  | error error => rfl
  | ok value => exact each value

theorem toOption_bind (start : Except ε α) (next : α → Except ε β) :
    (start >>= next).toOption = start.toOption.bind fun value => (next value).toOption := by
  cases start <;> rfl

theorem eq_ok_of_toOption {outcome : Except ε α} {value : α} (found : outcome.toOption = some value) :
    outcome = .ok value := by
  cases outcome with
  | error error => cases found
  | ok other =>
    cases found
    rfl

/-- Items have results in order exactly when each of them has its result. -/
theorem mapM_eq_ok_iff :
    items.mapM first = .ok results ↔ List.Forall₂ (fun item result => first item = .ok result) items results := by
  induction items generalizing results with
  | nil =>
    rw [List.forall₂_nil_left_iff]
    exact ⟨fun done => by cases done; rfl, fun none => by rw [none]; rfl⟩
  | cons item rest ih =>
    rw [List.mapM_cons]
    constructor
    · intro done
      obtain ⟨value, here, further⟩ := exists_of_bind_eq_ok done
      obtain ⟨others, behind, same⟩ := exists_of_bind_eq_ok further
      cases same
      exact .cons here (ih.1 behind)
    · intro all
      cases all with
      | cons here behind =>
        rw [here, ih.2 behind]
        rfl

theorem exists_of_mem_forall₂ {related : α → β → Prop} (all : List.Forall₂ related items results)
    {result : β} (member : result ∈ results) : ∃ item ∈ items, related item result := by
  induction all with
  | nil => exact absurd member List.not_mem_nil
  | @cons item _ _ _ here _ ih =>
    rcases List.mem_cons.1 member with rfl | later
    · exact ⟨item, List.mem_cons_self, here⟩
    · obtain ⟨other, among, holds⟩ := ih later
      exact ⟨other, List.mem_cons_of_mem _ among, holds⟩

theorem exists_of_mem_mapM (done : items.mapM first = .ok results) {result : β}
    (member : result ∈ results) : ∃ item ∈ items, first item = .ok result :=
  exists_of_mem_forall₂ (mapM_eq_ok_iff.1 done) member

theorem getElem?_of_mapM (done : items.mapM first = .ok results) {place : Nat} {result : β}
    (there : results[place]? = some result) : ∃ item, items[place]? = some item ∧ first item = .ok result := by
  obtain ⟨length, each⟩ := List.forall₂_iff_get.1 (mapM_eq_ok_iff.1 done)
  obtain ⟨inside, rfl⟩ := List.getElem?_eq_some_iff.1 there
  have before : place < items.length := length ▸ inside
  exact ⟨items[place], List.getElem?_eq_getElem before, each place before inside⟩

/-- Items that all have a result have their results in order. -/
theorem exists_mapM {related : α → β → Prop}
    (each : ∀ item ∈ items, ∃ result, first item = .ok result ∧ related item result) :
    ∃ results, items.mapM first = .ok results ∧ List.Forall₂ related items results := by
  induction items with
  | nil => exact ⟨[], rfl, .nil⟩
  | cons item rest ih =>
    obtain ⟨result, done, here⟩ := each item List.mem_cons_self
    obtain ⟨others, more, behind⟩ := ih fun other member => each other (List.mem_cons_of_mem _ member)
    refine ⟨result :: others, ?_, .cons here behind⟩
    rw [List.mapM_cons, done, more]
    rfl

theorem mapM_eq_map {view : α → β} (each : ∀ item ∈ items, first item = .ok (view item)) :
    items.mapM first = .ok (items.map view) := by
  rw [mapM_eq_ok_iff, List.forall₂_map_right_iff]
  exact List.forall₂_same.2 each

theorem mapM_eq_self {change : α → Except ε α} (each : ∀ item ∈ items, change item = .ok item) :
    items.mapM change = .ok items := by
  have kept : items.mapM change = .ok (items.map id) := mapM_eq_map each
  rwa [List.map_id] at kept

/-- When an item has no result, there are none in order: one of the items fails first. -/
theorem exists_mapM_error {item : α} (member : item ∈ items) {error : ε}
    (fails : first item = .error error) : ∃ other, items.mapM first = .error other := by
  cases done : items.mapM first with
  | error other => exact ⟨other, rfl⟩
  | ok results =>
    have backwards := (mapM_eq_ok_iff.1 done).flip
    obtain ⟨result, _, succeeds⟩ := exists_of_mem_forall₂ backwards member
    cases fails.symm.trans succeeds

end DeckBinding
