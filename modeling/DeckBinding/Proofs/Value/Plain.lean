import DeckBinding.Path.Walk
import DeckBinding.Value.Plain

set_option autoImplicit false

namespace DeckBinding

namespace Value

/-- What stands directly inside of a value: the items of a sequence, the members of a mapping
without their keys, and the fields of a record. -/
def inner : Value → List Value
  | .list items => items
  | .tuple items => items
  | .map entries => entries.map Prod.snd
  | .record fields => fields.map Prod.snd
  | _ => []

/-- The values inside of a value at any depth, the value itself among them. Keys are no part of
it. -/
inductive Part (whole : Value) : Value → Prop where
  | whole : Part whole whole
  | inside {part found : Value} (reached : Part whole part) (member : found ∈ part.inner) :
      Part whole found

/-- Whether there is a tuple in a value, keys included. -/
def holdsTuple (value : Value) : Bool :=
  value.holds fun part => match part with
    | .tuple _ => true
    | _ => false

variable {value part : Value}

theorem Part.trans {found : Value} (outer : value.Part part) (reached : part.Part found) :
    value.Part found := by
  induction reached with
  | whole => exact outer
  | inside _ member ih => exact .inside ih member

theorem plainFields_eq_map (fields : List (String × Value)) :
    plainFields fields = fields.map fun field => (.text field.1, plain field.2) := by
  induction fields with
  | nil => rfl
  | cons field rest ih => simp [plainFields, ih]

theorem inner_plain (value : Value) : value.plain.inner = value.inner.map plain := by
  cases value <;>
    simp [plain, inner, plainItems_eq_map, plainEntries_eq_map, plainFields_eq_map]

theorem plain_ne_record (value : Value) (fields : List (String × Value)) :
    value.plain ≠ .record fields := by
  cases value <;> simp [plain]

theorem plain_ne_tuple (value : Value) (items : List Value) : value.plain ≠ .tuple items := by
  cases value <;> simp [plain]

/-- The parts of a plain value are the plain forms of the parts. -/
theorem part_plain_iff : value.plain.Part part ↔ ∃ found, value.Part found ∧ part = found.plain := by
  constructor
  · intro reached
    induction reached with
    | whole => exact ⟨value, .whole, rfl⟩
    | inside _ member ih =>
      obtain ⟨found, reached, rfl⟩ := ih
      rw [inner_plain, List.mem_map] at member
      obtain ⟨below, among, rfl⟩ := member
      exact ⟨below, .inside reached among, rfl⟩
  · rintro ⟨found, reached, rfl⟩
    induction reached with
    | whole => exact .whole
    | inside _ member ih =>
      refine .inside ih ?_
      rw [inner_plain]
      exact List.mem_map_of_mem member

mutual

/-- A plain value is its own plain form. -/
theorem plain_plain (value : Value) : value.plain.plain = value.plain := by
  cases value with
  | list items | tuple items => simp only [plain, plainItems_plainItems items]
  | map entries => simp only [plain, plainEntries_plainEntries entries]
  | record fields => simp only [plain, plainEntries_plainFields fields]
  | _ => rfl
termination_by structural value

theorem plainItems_plainItems (items : List Value) : plainItems (plainItems items) = plainItems items := by
  cases items with
  | nil => rfl
  | cons item rest => simp only [plainItems, plain_plain item, plainItems_plainItems rest]
termination_by structural items

theorem plainEntries_plainEntries (entries : List (Value × Value)) :
    plainEntries (plainEntries entries) = plainEntries entries := by
  cases entries with
  | nil => rfl
  | cons entry rest =>
    obtain ⟨key, member⟩ := entry
    simp only [plainEntries, plain_plain member, plainEntries_plainEntries rest]
termination_by structural entries

theorem plainEntries_plainFields (fields : List (String × Value)) :
    plainEntries (plainFields fields) = plainFields fields := by
  cases fields with
  | nil => rfl
  | cons field rest =>
    obtain ⟨name, member⟩ := field
    simp only [plainFields, plainEntries, plain_plain member, plainEntries_plainFields rest]
termination_by structural fields

end

section Properties

variable {property : Value → Bool}

theorem holds_of_property (here : property value = true) : value.holds property = true := by
  cases value <;> simp [holds, here]

theorem holdsItem_eq_any (items : List Value) :
    holdsItem property items = items.any fun item => item.holds property := by
  induction items with
  | nil => rfl
  | cons item rest ih => rw [holdsItem, ih, List.any_cons]

theorem holdsEntry_eq_any (entries : List (Value × Value)) :
    holdsEntry property entries =
      entries.any fun entry => entry.1.holds property || entry.2.holds property := by
  induction entries with
  | nil => rfl
  | cons entry rest ih => rw [holdsEntry, ih, List.any_cons]

theorem holdsField_eq_any (fields : List (String × Value)) :
    holdsField property fields = fields.any fun field => field.2.holds property := by
  induction fields with
  | nil => rfl
  | cons field rest ih => rw [holdsField, ih, List.any_cons]

theorem holds_of_inner (member : part ∈ value.inner) (here : part.holds property = true) :
    value.holds property = true := by
  cases value with
  | list items | tuple items =>
    have inside : holdsItem property items = true := by
      rw [holdsItem_eq_any]
      exact List.any_eq_true.2 ⟨part, member, here⟩
    rw [holds, inside, Bool.or_true]
  | map entries =>
    obtain ⟨entry, among, rfl⟩ := List.mem_map.1 member
    have inside : holdsEntry property entries = true := by
      rw [holdsEntry_eq_any]
      exact List.any_eq_true.2 ⟨entry, among, by rw [here, Bool.or_true]⟩
    rw [holds, inside, Bool.or_true]
  | record fields =>
    obtain ⟨field, among, rfl⟩ := List.mem_map.1 member
    have inside : holdsField property fields = true := by
      rw [holdsField_eq_any]
      exact List.any_eq_true.2 ⟨field, among, here⟩
    rw [holds, inside, Bool.or_true]
  | _ => cases member

/-- What a part has is in the value. -/
theorem Part.holds (reached : value.Part part) (here : property part = true) :
    value.holds property = true := by
  have inside := holds_of_property here
  clear here
  induction reached with
  | whole => exact inside
  | inside _ member ih => exact ih (holds_of_inner member inside)

end Properties

/-- In a value without records no part is one. -/
theorem ne_record_of_part (free : value.holdsRecord = false) (reached : value.Part part)
    (fields : List (String × Value)) : part ≠ .record fields := by
  rintro rfl
  have inside : value.holdsRecord = true := reached.holds rfl
  rw [free] at inside
  cases inside

theorem items?_plain (value : Value) : value.plain.items? = value.items?.map (List.map plain) := by
  cases value <;> simp [plain, items?, plainItems_eq_map]

theorem item?_plain (value : Value) (index : Int) :
    value.plain.item? index = (value.item? index).map plain := by
  unfold item?
  rw [items?_plain]
  cases value.items? with
  | none => rfl
  | some items =>
    dsimp only [Option.map_some]
    split
    · rfl
    · exact List.getElem?_map

end Value

theorem Entries.find?_plainEntries (entries : Entries) (key : Value) :
    Entries.find? (Value.plainEntries entries) key = (Entries.find? entries key).map Value.plain := by
  unfold Entries.find?
  rw [Value.plainEntries_eq_map, List.find?_map, Option.map_map, Option.map_map]
  rfl

/-- A segment reads a member, and an item of it if it has an index. -/
theorem Segment.from?_eq (segment : Segment) (value : Value) :
    segment.from? value = (value.member? segment.name).bind fun found =>
      match segment.index with
      | none => some found
      | some index => found.item? index := by
  unfold Segment.from?
  cases segment.index <;> cases value <;> simp [Value.member?]

namespace Value

variable {value part : Value}

/-- A member of a plain value is the plain form of the member, unless it was a field. -/
theorem member?_plain (apart : ∀ fields, value ≠ .record fields) (name : String) :
    value.plain.member? name = (value.member? name).map plain := by
  cases value with
  | map entries =>
    rw [plain]
    exact Entries.find?_plainEntries entries _
  | record fields => exact absurd rfl (apart fields)
  | _ => rfl

theorem from?_plain (apart : ∀ fields, value ≠ .record fields) (segment : Segment) :
    segment.from? value.plain = (segment.from? value).map plain := by
  rw [Segment.from?_eq, Segment.from?_eq, member?_plain apart, Option.bind_map, Option.map_bind]
  apply Option.bind_congr
  intro found _
  cases segment.index with
  | none => rfl
  | some index => exact item?_plain found index

theorem part_of_member? {name : String} (found : value.member? name = some part) : value.Part part := by
  cases value with
  | map entries =>
    obtain ⟨entry, here, rfl⟩ := Option.map_eq_some_iff.1 found
    exact .inside .whole (List.mem_map_of_mem (List.mem_of_find?_eq_some here))
  | _ => cases found

theorem part_of_item? {index : Int} (found : value.item? index = some part) : value.Part part := by
  unfold item? at found
  split at found
  · rename_i items sequence
    split at found
    · cases found
    · refine .inside .whole ?_
      have member := List.mem_of_getElem? found
      cases value <;> simp_all [items?, inner]
  · cases found

/-- What a segment leads to is a part of the value. -/
theorem part_of_from? {segment : Segment} (found : segment.from? value = some part) : value.Part part := by
  rw [Segment.from?_eq] at found
  obtain ⟨member, here, further⟩ := Option.bind_eq_some_iff.1 found
  cases index : segment.index with
  | none =>
    rw [index] at further
    cases further
    exact part_of_member? here
  | some index =>
    simp only [index] at further
    exact (part_of_member? here).trans (part_of_item? further)

/-- Segments lead from a plain value to the plain form of what they lead to, when there is no record
on the way. -/
theorem followSegments_plain (free : ∀ part, value.Part part → ∀ fields, part ≠ .record fields)
    (segments : List Segment) :
    followSegments value.plain segments = (followSegments value segments).map plain := by
  induction segments generalizing value with
  | nil => rfl
  | cons segment rest ih =>
    rw [followSegments, followSegments, from?_plain (free value .whole), Option.bind_map, Option.map_bind]
    apply Option.bind_congr
    intro next found
    exact ih fun part reached => free part ((part_of_from? found).trans reached)

theorem walk_plain (free : ∀ part, value.Part part → ∀ fields, part ≠ .record fields) (text : List Char) :
    walk value.plain text = (walk value text).map (Option.map plain) := by
  unfold walk
  cases Path.readAbsolute text with
  | error failure => rfl
  | ok path => exact congrArg Except.ok (followSegments_plain free path.segments)

/-- A plain value holds no record and no tuple at any depth, the keys of its mappings left as they
are, and is its own plain form. Where no records were, a path leads to nothing in it exactly where
it led to nothing before, and else to the plain form of what it led to. -/
theorem plain_structured (value : Value) :
    (∀ part, value.plain.Part part →
      (∀ fields, part ≠ .record fields) ∧ ∀ items, part ≠ .tuple items) ∧
    (∀ entries, value.Part (.map entries) →
      value.plain.Part (.map (entries.map fun entry => (entry.1, entry.2.plain)))) ∧
    value.plain.plain = value.plain ∧
    ((∀ part, value.Part part → ∀ fields, part ≠ .record fields) → ∀ text,
      walk value.plain text = (walk value text).map (Option.map plain) ∧
        (walk value.plain text = .ok none ↔ walk value text = .ok none)) := by
  refine ⟨fun part reached => ?_, fun entries reached => ?_, plain_plain value, fun free text => ?_⟩
  · obtain ⟨found, -, rfl⟩ := part_plain_iff.1 reached
    exact ⟨plain_ne_record found, plain_ne_tuple found⟩
  · rw [← plainEntries_eq_map]
    exact part_plain_iff.2 ⟨_, reached, by rw [plain]⟩
  · have walked := walk_plain free text
    refine ⟨walked, ?_⟩
    rw [walked]
    rcases walk value text with _ | _ | found <;> simp [Except.map]

/-- A path goes through a tuple of mappings as through the list of them. -/
theorem plain_structured_tuple :
    (Value.map [(.text "P", .tuple [.map [(.text "N", .null)]])]).holdsRecord = false ∧
    walk (Value.map [(.text "P", .tuple [.map [(.text "N", .null)]])]).plain "P[0].N".toList =
      .ok (some .null) ∧
    walk (Value.map [(.text "P", .tuple [.map [(.text "N", .null)]])]).plain "P[1]".toList = .ok none := by
  have free : (Value.map [(.text "P", .tuple [.map [(.text "N", .null)]])]).holdsRecord = false := by decide
  have walks := (plain_structured (Value.map [(.text "P", .tuple [.map [(.text "N", .null)]])])).2.2.2
    fun part reached => ne_record_of_part free reached
  refine ⟨free, ?_, (walks "P[1]".toList).2.2 rfl⟩
  rw [(walks "P[0].N".toList).1]
  rfl

/-- A tuple that is the key of a member stays. -/
theorem tuple_key_stays :
    (Value.map [(.tuple [.int 1, .int 2], .text "a")]).plain.holdsTuple = true := by
  decide

end Value

end DeckBinding
