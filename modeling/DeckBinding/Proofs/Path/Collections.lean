import DeckBinding.Proofs.Path.RoundTrip
import DeckBinding.Resolution.Walk

set_option autoImplicit false

namespace DeckBinding

open DeckBinding.Number DeckBinding.Text

namespace Path

/-- Two positions of paths stand for one collection: the names and the joins up to them are the
same, and in front of them the same segments have an index, whatever it is. -/
structure SameCollection (path : Path) (position : Nat) (other : Path) (place : Nat) : Prop where
  names : (path.segments.take (position + 1)).map Segment.name =
    (other.segments.take (place + 1)).map Segment.name
  joins : (path.rest.take position).map Prod.fst = (other.rest.take place).map Prod.fst
  pins : (path.segments.take position).map (·.index.isSome) =
    (other.segments.take place).map (·.index.isSome)

/-- The letters of a key from a segment on, up to the segment so many places behind it. -/
def keyFrom : Segment → List (Join × Segment) → Nat → List Char
  | segment, (join, next) :: rest, position + 1 =>
    segment.name.toList ++ (segment.pin.toList ++ join.symbol :: keyFrom next rest position)
  | segment, _, _ => segment.name.toList

@[simp] theorem keyFrom_zero (segment : Segment) (rest : List (Join × Segment)) :
    keyFrom segment rest 0 = segment.name.toList := by
  cases rest <;> rfl

theorem toList_key_stepsFrom {stem : String} {ahead : List Char} {segment : Segment}
    {rest : List (Join × Segment)} {position : Nat} {step : Step}
    (front : stem.toList = ahead ++ (segment.name.toList ++ segment.pin.toList))
    (found : (stepsFrom stem rest)[position]? = some step) :
    step.key.toList = ahead ++ keyFrom segment rest (position + 1) := by
  induction rest generalizing stem ahead segment position with
  | nil => simp [stepsFrom] at found
  | cons entry rest ih =>
    obtain ⟨join, next⟩ := entry
    rw [stepsFrom] at found
    cases position with
    | zero =>
      rw [List.getElem?_cons_zero, Option.some.injEq] at found
      rw [← found, keyFrom, keyFrom_zero]
      simp [front, String.toList_append]
    | succ position =>
      rw [List.getElem?_cons_succ] at found
      have letters : (stem ++ String.singleton join.symbol ++ next.name ++ next.pin).toList =
          (stem.toList ++ [join.symbol]) ++ (next.name.toList ++ next.pin.toList) := by
        simp [String.toList_append]
      rw [ih letters found, keyFrom, front]
      simp

theorem toList_collectionKey {path : Path} {position : Nat} (inside : position < path.length) :
    (path.collectionKey position).toList = keyFrom path.first path.rest position := by
  rw [← length_steps] at inside
  obtain ⟨step, found⟩ : ∃ step, path.steps[position]? = some step :=
    ⟨_, List.getElem?_eq_getElem inside⟩
  unfold collectionKey
  rw [found]
  cases position with
  | zero =>
    cases found
    rw [keyFrom_zero]
  | succ position =>
    rw [steps, List.getElem?_cons_succ] at found
    have letters : (path.first.name ++ path.first.pin).toList =
        [] ++ (path.first.name.toList ++ path.first.pin.toList) := String.toList_append
    exact toList_key_stepsFrom letters found

/-- A name ends where the first letter stands that is part of no word. -/
theorem name_append_inj {name other : String} {tail behind : List Char} (valid : isName name = true)
    (named : isName other = true) (ends : ∀ c ∈ tail.head?, isWord c = false)
    (stops : ∀ c ∈ behind.head?, isWord c = false) :
    name.toList ++ tail = other.toList ++ behind ↔ name = other ∧ tail = behind := by
  constructor
  · intro same
    have front := congrArg (List.takeWhile isWord) same
    rw [takeWhile_of_head (isWord_of_isName valid) ends,
      takeWhile_of_head (isWord_of_isName named) stops] at front
    rw [front, List.append_cancel_left_eq] at same
    exact ⟨String.toList_injective front, same⟩
  · rintro ⟨rfl, rfl⟩
    rfl

theorem isWord_symbol (join : Join) : isWord join.symbol = false := by
  cases join <;> decide

theorem head_behind_name (segment : Segment) (join : Join) (behind : List Char) :
    ∀ c ∈ (segment.pin.toList ++ join.symbol :: behind).head?, isWord c = false := by
  intro c member
  unfold Segment.pin at member
  split at member
  · cases member
    decide
  · cases member
    exact isWord_symbol join

theorem symbol_inj {left right : Join} : left.symbol = right.symbol ↔ left = right := by
  cases left <;> cases right <;> decide

/-- A mark and a join behind it tell whether there is a mark and which join it is. -/
theorem pin_append_inj {segment other : Segment} {left right : Join} {tail behind : List Char} :
    segment.pin.toList ++ left.symbol :: tail = other.pin.toList ++ right.symbol :: behind ↔
      segment.index.isSome = other.index.isSome ∧ left = right ∧ tail = behind := by
  have opening (join : Join) : '[' ≠ join.symbol := by
    cases join <;> decide
  unfold Segment.pin
  cases segment.index <;> cases other.index <;> simp [symbol_inj, opening, (opening _).symm]

/-- A key does not end where another one goes on behind the same name. -/
theorem name_ne_keyFrom {name : String} {segment next : Segment} {join : Join}
    (valid : isName name = true) (named : isName segment.name = true) (rest : List (Join × Segment))
    (position : Nat) : name.toList ≠ keyFrom segment ((join, next) :: rest) (position + 1) := by
  intro same
  have stops := head_behind_name segment join (keyFrom next rest position)
  rw [keyFrom, ← List.append_nil name.toList, name_append_inj valid named (by simp) stops] at same
  exact List.cons_ne_nil _ _ (List.append_eq_nil_iff.1 same.2.symm).2

/-- Two keys are one when the names, the joins and the marks on the way are the same. -/
theorem keyFrom_eq_iff {left right : Segment} {rest others : List (Join × Segment)} {position place : Nat}
    (valid : ∀ segment ∈ left :: rest.map Prod.snd, isName segment.name = true)
    (named : ∀ segment ∈ right :: others.map Prod.snd, isName segment.name = true)
    (inside : position ≤ rest.length) (within : place ≤ others.length) :
    keyFrom left rest position = keyFrom right others place ↔
      ((left :: rest.map Prod.snd).take (position + 1)).map Segment.name =
        ((right :: others.map Prod.snd).take (place + 1)).map Segment.name ∧
      (rest.take position).map Prod.fst = (others.take place).map Prod.fst ∧
      ((left :: rest.map Prod.snd).take position).map (·.index.isSome) =
        ((right :: others.map Prod.snd).take place).map (·.index.isSome) := by
  induction position generalizing left right rest others place with
  | zero =>
    have first := valid left List.mem_cons_self
    have second := named right List.mem_cons_self
    rw [keyFrom_zero]
    cases place with
    | zero => simp [String.toList_inj]
    | succ place =>
      obtain ⟨⟨join, next⟩, others, rfl⟩ := List.exists_cons_of_ne_nil (List.ne_nil_of_length_pos
        (Nat.lt_of_lt_of_le (Nat.succ_pos place) within))
      refine iff_of_false (name_ne_keyFrom first second others place) ?_
      simp
  | succ position ih =>
    obtain ⟨⟨join, next⟩, rest, rfl⟩ := List.exists_cons_of_ne_nil (List.ne_nil_of_length_pos
      (Nat.lt_of_lt_of_le (Nat.succ_pos position) inside))
    obtain ⟨first, behind⟩ := List.forall_mem_cons.1 valid
    have second := named right List.mem_cons_self
    cases place with
    | zero =>
      rw [keyFrom_zero]
      refine iff_of_false (name_ne_keyFrom second first rest position).symm ?_
      simp
    | succ place =>
      obtain ⟨⟨link, following⟩, others, rfl⟩ := List.exists_cons_of_ne_nil (List.ne_nil_of_length_pos
        (Nat.lt_of_lt_of_le (Nat.succ_pos place) within))
      have further := (List.forall_mem_cons.1 named).2
      have deeper := @ih next following rest others place behind further
        (Nat.le_of_succ_le_succ inside) (Nat.le_of_succ_le_succ within)
      rw [keyFrom, keyFrom, name_append_inj first second (head_behind_name _ _ _) (head_behind_name _ _ _),
        pin_append_inj, deeper]
      simp only [List.map_cons, List.take_succ_cons, List.cons.injEq]
      tauto

/-- Where a key goes on like the text of a segment, the segment has no index: a mark is empty, and
the brackets of an index are not. -/
theorem index_of_key_eq_text {left right : Segment} {rest : List (Join × Segment)} {position : Nat}
    {behind : List Char} (valid : isName left.name = true) (named : isName right.name = true)
    (same : keyFrom left rest position = right.text.toList ++ behind) : right.index = none := by
  cases selected : right.index with
  | none => rfl
  | some index =>
    obtain ⟨digit, digits, numeral⟩ := List.exists_cons_of_ne_nil (@Nat.toDigits_ne_nil index 10)
    have plain : digit ≠ ']' := by
      rintro rfl
      have numeric : ']' ∈ Nat.toDigits 10 index := by simp [numeral]
      exact absurd (isDigit_of_mem_numeral numeric) (by decide)
    have stops : ∀ c ∈ ('[' :: (digit :: digits ++ [']'] ++ behind)).head?, isWord c = false := by
      rintro c ⟨⟩
      decide
    rw [Segment.toList_text, selected, List.append_assoc] at same
    dsimp only at same
    rw [numeral, List.cons_append] at same
    unfold keyFrom at same
    split at same
    · rename_i join next rest position
      rw [name_append_inj valid named (head_behind_name _ _ _) stops] at same
      exfalso
      have brackets := same.2
      unfold Segment.pin at brackets
      split at brackets
      · simp only [String.reduceToList, List.cons_append, List.cons.injEq] at brackets
        exact plain brackets.2.1.symm
      · cases join <;> simp [Join.symbol] at brackets
    · rw [← List.append_nil left.name.toList, name_append_inj valid named (by simp) stops] at same
      cases same.2

/-- A key that is the text of a path is the key at the end of this path. -/
theorem keyFrom_of_eq_text {left right : Segment} {rest others : List (Join × Segment)} {position : Nat}
    (valid : ∀ segment ∈ left :: rest.map Prod.snd, isName segment.name = true)
    (named : ∀ segment ∈ right :: others.map Prod.snd, isName segment.name = true)
    (same : keyFrom left rest position = right.text.toList ++ (restText others).toList) :
    keyFrom right others others.length = right.text.toList ++ (restText others).toList := by
  induction others generalizing left right rest position with
  | nil =>
    have bare := index_of_key_eq_text (valid left List.mem_cons_self) (named right List.mem_cons_self) same
    simp [keyFrom, restText, Segment.text, bare]
  | cons entry others ih =>
    obtain ⟨link, following⟩ := entry
    obtain ⟨first, behind⟩ := List.forall_mem_cons.1 valid
    obtain ⟨second, further⟩ := List.forall_mem_cons.1 named
    have bare := index_of_key_eq_text first second same
    have unmarked : right.pin.toList = [] := by
      rw [Segment.pin, bare]
      rfl
    have stops := head_behind_name right link (following.text.toList ++ (restText others).toList)
    have text : right.text.toList ++ (restText ((link, following) :: others)).toList =
        right.name.toList ++
          (right.pin.toList ++ link.symbol :: (following.text.toList ++ (restText others).toList)) := by
      rw [toList_restText_cons, Segment.text, bare, unmarked, List.nil_append]
    rw [text] at same ⊢
    unfold keyFrom at same
    split at same
    · rename_i join next rest position
      rw [name_append_inj first second (head_behind_name _ _ _) stops, pin_append_inj] at same
      rw [List.length_cons, keyFrom, ih behind further same.2.2.2]
    · rw [← List.append_nil left.name.toList, name_append_inj first second (by simp) stops] at same
      exact absurd (List.append_eq_nil_iff.1 same.2.symm).2 (List.cons_ne_nil _ _)

theorem WellFormed.names {path : Path} (wellFormed : path.WellFormed) :
    ∀ segment ∈ path.segments, isName segment.name = true := by
  refine List.forall_mem_cons.2 ⟨wellFormed.1.1, List.forall_mem_map.2 ?_⟩
  exact fun entry member => (wellFormed.2 entry member).1

variable {path other : Path} {position place : Nat}

/-- Keys are equal exactly where their positions stand for one collection. -/
theorem collectionKey_eq_iff (wellFormed : path.WellFormed) (valid : other.WellFormed)
    (inside : position < path.length) (within : place < other.length) :
    path.collectionKey position = other.collectionKey place ↔
      path.SameCollection position other place := by
  rw [← String.toList_inj, toList_collectionKey inside, toList_collectionKey within,
    keyFrom_eq_iff wellFormed.names valid.names (Nat.le_of_lt_succ inside) (Nat.le_of_lt_succ within)]
  exact ⟨fun ⟨names, joins, pins⟩ => ⟨names, joins, pins⟩, fun same => ⟨same.names, same.joins, same.pins⟩⟩

/-- A key that is the text of a path stands for the collection that the path leads to. -/
theorem sameCollection_of_eq_text (wellFormed : path.WellFormed) (valid : other.WellFormed)
    (inside : position < path.length) (same : path.collectionKey position = other.text) :
    path.SameCollection position other other.rest.length := by
  have within : other.rest.length < other.length := Nat.lt_succ_self _
  rw [← collectionKey_eq_iff wellFormed valid inside within, ← String.toList_inj,
    toList_collectionKey within]
  rw [← String.toList_inj, toList_collectionKey inside] at same
  rw [toList_collectionKey inside, same]
  rw [text, String.toList_append] at same ⊢
  exact (keyFrom_of_eq_text wellFormed.names valid.names same).symm

/-- Where one key has a mark in front of its last name and another one has none, they are not the
same. -/
theorem not_sameCollection_of_pinned
    (pinned : ∃ segment ∈ path.segments.take position, segment.index ≠ none)
    (bare : ∀ segment ∈ other.segments.take place, segment.index = none) :
    ¬ path.SameCollection position other place := by
  intro same
  obtain ⟨segment, member, selects⟩ := pinned
  have marked := List.mem_map_of_mem (f := fun segment : Segment => segment.index.isSome) member
  rw [same.pins, List.mem_map] at marked
  obtain ⟨segment, among, marked⟩ := marked
  rw [bare segment among] at marked
  exact selects (by simpa using marked.symm)

/-- A slide that is shown for the collection of one path is not shown for the collection that
another path goes through elsewhere. The planner writes the collection as the whole text of its
path. -/
theorem collection_ne_collectionKey {shown : Instance} (wellFormed : path.WellFormed)
    (valid : other.WellFormed) (inside : position < path.length) (within : place < other.length)
    (collection : shown.collection = some (other.collectionKey place) ∨
      shown.collection = some other.text ∧ place + 1 = other.length)
    (apart : ¬ path.SameCollection position other place) :
    shown.collection ≠ some (path.collectionKey position) := by
  intro same
  rcases collection with key | ⟨whole, last⟩
  · have keys := Option.some.inj (same.symm.trans key)
    exact apart ((collectionKey_eq_iff wellFormed valid inside within).1 keys)
  · have here := sameCollection_of_eq_text wellFormed valid inside
      (Option.some.inj (same.symm.trans whole))
    rw [← Nat.succ.inj last] at here
    exact apart here

/-- A slide of another collection selects no element by its number, only by an entry of its
context. -/
theorem selectedIndex?_eq_none {shown : Instance} {key : String} (other : shown.collection ≠ some key)
    (elsewhere : ∀ segment ∈ shown.context, segment.name ≠ key) : shown.selectedIndex? key = none := by
  have absent : shown.context.find? (fun segment => segment.name == key) = none := by
    simpa using elsewhere
  rw [Instance.selectedIndex?, absent]
  exact if_neg other

/-- Keys are faithful: two of them are equal exactly where the paths go the same way up to the
collection and select elements at the same places in front of it. So the offset of a slide shifts
and selects in the collection of the slide alone. -/
theorem collectionKey_faithful {text words : List Char} (first : Path.read text = .ok path)
    (second : Path.read words = .ok other) (inside : position < path.length)
    (within : place < other.length) :
    (path.collectionKey position = other.collectionKey place ↔
      path.SameCollection position other place) ∧
    ((∃ segment ∈ path.segments.take position, segment.index ≠ none) →
      (∀ segment ∈ other.segments.take place, segment.index = none) →
        path.collectionKey position ≠ other.collectionKey place) ∧
    ∀ shown : Instance,
      (shown.collection = some (other.collectionKey place) → path.SameCollection position other place →
        ∀ index, shown.shiftedIndex (path.collectionKey position) index = index + shown.offset) ∧
      (shown.collection = some (other.collectionKey place) ∨
          shown.collection = some other.text ∧ place + 1 = other.length →
        ¬ path.SameCollection position other place →
          (∀ index, shown.shiftedIndex (path.collectionKey position) index = index) ∧
          ((∀ segment ∈ shown.context, segment.name ≠ path.collectionKey position) →
            shown.selectedIndex? (path.collectionKey position) = none)) := by
  have wellFormed := wellFormed_of_read first
  have valid := wellFormed_of_read second
  have faithful := collectionKey_eq_iff wellFormed valid inside within
  refine ⟨faithful, fun pinned bare same => ?_, fun shown => ⟨fun here same index => ?_, ?_⟩⟩
  · exact not_sameCollection_of_pinned pinned bare (faithful.1 same)
  · rw [Instance.shiftedIndex, here, faithful.2 same, if_pos rfl]
  · intro collection apart
    have elsewhere := collection_ne_collectionKey wellFormed valid inside within collection apart
    exact ⟨fun index => if_neg elsewhere, selectedIndex?_eq_none elsewhere⟩

/-- The elements of `b` below two elements of `a` are elements of one collection by its key, and not
of the collection `a.b`. -/
theorem collectionKey_faithful_pinned :
    Path.read "a[0].b".toList = .ok ⟨⟨"a", some 0⟩, [(.member, ⟨"b", none⟩)]⟩ ∧
    Path.read "a[7].b[1]".toList = .ok ⟨⟨"a", some 7⟩, [(.member, ⟨"b", some 1⟩)]⟩ ∧
    Path.read "a.b[1]".toList = .ok ⟨⟨"a", none⟩, [(.member, ⟨"b", some 1⟩)]⟩ ∧
    SameCollection ⟨⟨"a", some 7⟩, [(.member, ⟨"b", some 1⟩)]⟩ 1
      ⟨⟨"a", some 0⟩, [(.member, ⟨"b", none⟩)]⟩ 1 ∧
    ¬ SameCollection ⟨⟨"a", none⟩, [(.member, ⟨"b", some 1⟩)]⟩ 1
      ⟨⟨"a", some 0⟩, [(.member, ⟨"b", none⟩)]⟩ 1 ∧
    (⟨1, 0, [], 2, none, false, some "a[].b"⟩ : Instance).shiftedIndex "a[].b" 1 = 3 ∧
    (⟨1, 0, [], 2, none, false, some "a[].b"⟩ : Instance).shiftedIndex "a.b" 1 = 1 ∧
    (⟨1, 0, [], 2, none, false, some "a[].b"⟩ : Instance).selectedIndex? "a.b" = none := by
  obtain ⟨here, _, shifts⟩ := @collectionKey_faithful ⟨⟨"a", some 7⟩, [(.member, ⟨"b", some 1⟩)]⟩
    ⟨⟨"a", some 0⟩, [(.member, ⟨"b", none⟩)]⟩ 1 1 "a[7].b[1]".toList "a[0].b".toList rfl rfl (by decide)
    (by decide)
  obtain ⟨there, _, rests⟩ := @collectionKey_faithful ⟨⟨"a", none⟩, [(.member, ⟨"b", some 1⟩)]⟩
    ⟨⟨"a", some 0⟩, [(.member, ⟨"b", none⟩)]⟩ 1 1 "a.b[1]".toList "a[0].b".toList rfl rfl (by decide)
    (by decide)
  have same := here.1 rfl
  have apart := mt there.2 (by decide)
  obtain ⟨stays, selects⟩ := (rests ⟨1, 0, [], 2, none, false, some "a[].b"⟩).2 (.inl rfl) apart
  exact ⟨rfl, rfl, rfl, same, apart, (shifts ⟨1, 0, [], 2, none, false, some "a[].b"⟩).1 rfl same 1,
    stays 1, selects fun segment member => absurd member List.not_mem_nil⟩

end Path

end DeckBinding
