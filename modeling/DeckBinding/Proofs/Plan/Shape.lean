import DeckBinding.Proofs.Generation.Nested
import DeckBinding.Proofs.Plan.Order
import DeckBinding.Proofs.Plan.Returns
import DeckBinding.Proofs.Resolution.Together
import DeckBinding.Proofs.Value.Plain

set_option autoImplicit false

namespace DeckBinding

open DeckBinding.Number

/-- Whether a value is neither null nor made up of other values. -/
def Value.isScalar : Value → Bool
  | .null | .list _ | .tuple _ | .map _ | .record _ => false
  | _ => true

/-- Values without records that differ in their scalars only: null stands for null, a sequence for
one of the same length with items of the same shape, and a mapping for one with the same keys and
members of the same shape. -/
inductive SameShape : Value → Value → Prop where
  | null : SameShape .null .null
  | scalar {left right : Value} (first : left.isScalar = true) (second : right.isScalar = true) :
      SameShape left right
  | sequence {left right : Value} {items others : List Value} (first : left.items? = some items)
      (second : right.items? = some others) (length : items.length = others.length)
      (each : ∀ (index : Nat) (item other : Value), items[index]? = some item →
        others[index]? = some other → SameShape item other) :
      SameShape left right
  | mapping {entries others : Entries}
      (keys : ∀ key, (Entries.find? entries key).isSome = (Entries.find? others key).isSome)
      (members : ∀ (key member other : Value), Entries.find? entries key = some member →
        Entries.find? others key = some other → SameShape member other) :
      SameShape (.map entries) (.map others)

namespace SameShape

variable {left right : Value}

theorem items_forall₂ {items others : List Value} (length : items.length = others.length)
    (each : ∀ (index : Nat) (item other : Value), items[index]? = some item →
      others[index]? = some other → SameShape item other) :
    List.Forall₂ SameShape items others := by
  rw [List.forall₂_iff_get]
  refine ⟨length, ?_⟩
  intro index inside there
  exact each index _ _ (List.getElem?_eq_getElem inside) (List.getElem?_eq_getElem there)

theorem of_items {items others : List Value} (first : left.items? = some items)
    (second : right.items? = some others) (each : List.Forall₂ SameShape items others) :
    SameShape left right := by
  refine .sequence first second each.length_eq ?_
  intro index item other here there
  have inside := (List.getElem?_eq_some_iff.1 here).1
  have outside := (List.getElem?_eq_some_iff.1 there).1
  have same := (List.forall₂_iff_get.1 each).2 index inside outside
  rw [List.getElem?_eq_getElem inside] at here
  rw [List.getElem?_eq_getElem outside] at there
  cases here
  cases there
  exact same

/-- Mappings whose entries have the same keys one by one, and members of the same shape. -/
theorem of_entries {entries others : Entries}
    (each : List.Forall₂ (fun entry other => entry.1 = other.1 ∧ SameShape entry.2 other.2)
      entries others) : SameShape (.map entries) (.map others) := by
  have found (key : Value) :
      Option.Rel SameShape (Entries.find? entries key) (Entries.find? others key) := by
    unfold Entries.find?
    induction each with
    | nil => exact .none
    | @cons entry other _ _ here _ ih =>
      obtain ⟨name, member⟩ := here
      rw [List.find?_cons, List.find?_cons, ← name]
      cases entry.1.sameKey key with
      | true => exact .some member
      | false => exact ih
  apply SameShape.mapping
  · intro key
    have here := found key
    generalize Entries.find? entries key = first at here
    generalize Entries.find? others key = second at here
    cases here <;> rfl
  · intro key member other first second
    have here := found key
    rw [first, second] at here
    cases here with
    | some same => exact same

section

variable {value : Value}

theorem plain_of_isScalar (scalar : value.isScalar = true) : value.plain = value := by
  cases value <;> simp_all [Value.isScalar, Value.plain]

theorem items?_of_isScalar (scalar : value.isScalar = true) : value.items? = none := by
  cases value <;> simp_all [Value.isScalar, Value.items?]

theorem member?_of_isScalar (scalar : value.isScalar = true) (name : String) :
    value.member? name = none := by
  cases value <;> simp_all [Value.isScalar, Value.member?]

variable {items : List Value}

theorem plain_of_items? (found : value.items? = some items) :
    value.plain = .list (items.map Value.plain) := by
  cases value <;> simp_all [Value.items?, Value.plain, Value.plainItems_eq_map]

theorem member?_of_items? (found : value.items? = some items) (name : String) :
    value.member? name = none := by
  cases value <;> simp_all [Value.items?, Value.member?]

end

/-- The shape stays when tuples are made lists. -/
theorem plain (same : SameShape left right) : SameShape left.plain right.plain := by
  induction same with
  | null => exact .null
  | scalar first second =>
    rw [plain_of_isScalar first, plain_of_isScalar second]
    exact .scalar first second
  | sequence first second length _ ih =>
    rw [plain_of_items? first, plain_of_items? second]
    refine .sequence rfl rfl (by simp [length]) ?_
    intro index item other here there
    rw [List.getElem?_map, Option.map_eq_some_iff] at here there
    obtain ⟨item, inside, rfl⟩ := here
    obtain ⟨other, outside, rfl⟩ := there
    exact ih index item other inside outside
  | mapping keys _ ih =>
    refine .mapping (fun key => ?_) fun key member other here there => ?_
    · rw [Entries.find?_plainEntries, Entries.find?_plainEntries, Option.isSome_map, Option.isSome_map]
      exact keys key
    · rw [Entries.find?_plainEntries, Option.map_eq_some_iff] at here there
      obtain ⟨member, inside, rfl⟩ := here
      obtain ⟨other, outside, rfl⟩ := there
      exact ih key member other inside outside

theorem items? (same : SameShape left right) :
    Option.Rel (List.Forall₂ SameShape) left.items? right.items? := by
  cases same with
  | null => exact .none
  | scalar first second =>
    rw [items?_of_isScalar first, items?_of_isScalar second]
    exact .none
  | sequence first second length each =>
    rw [first, second]
    exact .some (items_forall₂ length each)
  | mapping => exact .none

theorem getElem? {items others : List Value} (each : List.Forall₂ SameShape items others)
    (index : Nat) : Option.Rel SameShape items[index]? others[index]? := by
  induction each generalizing index with
  | nil => exact .none
  | cons here _ ih =>
    cases index with
    | zero => exact .some here
    | succ index => exact ih index

theorem item? (same : SameShape left right) (index : Int) :
    Option.Rel SameShape (left.item? index) (right.item? index) := by
  have items := same.items?
  unfold Value.item?
  generalize left.items? = here at items ⊢
  generalize right.items? = there at items ⊢
  cases items with
  | none => exact .none
  | some each =>
    by_cases negative : index < 0
    · simp only [if_pos negative]
      exact .none
    · simp only [if_neg negative]
      exact getElem? each index.toNat

theorem member? (same : SameShape left right) (name : String) :
    Option.Rel SameShape (left.member? name) (right.member? name) := by
  cases same with
  | null => exact .none
  | scalar first second =>
    rw [member?_of_isScalar first, member?_of_isScalar second]
    exact .none
  | sequence first second =>
    rw [member?_of_items? first, member?_of_items? second]
    exact .none
  | @mapping entries others keys members =>
    have here := keys (.text name)
    show Option.Rel SameShape (Entries.find? entries (.text name)) (Entries.find? others (.text name))
    cases first : Entries.find? entries (.text name) <;>
      cases second : Entries.find? others (.text name) <;> rw [first, second] at here
    · exact .none
    · cases here
    · cases here
    · exact .some (members _ _ _ first second)

theorem bind {first second : Option Value} (found : Option.Rel SameShape first second)
    {next : Value → Option Value}
    (goesOn : ∀ left right, SameShape left right → Option.Rel SameShape (next left) (next right)) :
    Option.Rel SameShape (first.bind next) (second.bind next) := by
  cases found with
  | none => exact .none
  | some same => exact goesOn _ _ same

theorem from? (same : SameShape left right) (segment : Segment) :
    Option.Rel SameShape (segment.from? left) (segment.from? right) := by
  rw [Segment.from?_eq, Segment.from?_eq]
  apply bind (same.member? segment.name)
  intro found other same
  cases segment.index with
  | none => exact .some same
  | some index => exact same.item? index

theorem follow (same : SameShape left right) (segments : List Segment) :
    Option.Rel SameShape (followSegments left segments) (followSegments right segments) := by
  induction segments generalizing left right with
  | nil => exact .some same
  | cons segment rest ih => exact bind (same.from? segment) fun _ _ next => ih next

theorem walk (same : SameShape left right) (text : List Char) :
    SameOutcome (Option.Rel SameShape) (walk left text) (walk right text) := by
  unfold DeckBinding.walk
  cases Path.readAbsolute text with
  | error failure => exact .error failure
  | ok path => exact .ok (same.follow path.segments)

theorem collectionItems_of_walk {value found : Value} {path : String}
    (walked : DeckBinding.walk value path.toList = .ok (some found)) (filled : found ≠ .null) :
    collectionItems value path =
      match found.items? with
      | some items => .ok items
      | none => .error (.notACollection path) := by
  unfold collectionItems
  rw [walked]
  cases found with
  | null => exact absurd rfl filled
  | _ => rfl

theorem eq_null_iff (same : SameShape left right) : left = .null ↔ right = .null := by
  cases same with
  | null => exact Iff.rfl
  | scalar first second => constructor <;> rintro rfl <;> simp_all [Value.isScalar]
  | sequence first second => constructor <;> rintro rfl <;> simp_all [Value.items?]
  | mapping => simp

/-- A path leads to the items of a collection in both values, or in none of them for the same
reason. -/
theorem collectionItems (same : SameShape left right) (path : String) :
    SameOutcome (List.Forall₂ SameShape) (collectionItems left path) (collectionItems right path) := by
  have walked := same.walk path.toList
  generalize here : DeckBinding.walk left path.toList = first at walked
  generalize there : DeckBinding.walk right path.toList = second at walked
  cases walked with
  | error failure =>
    unfold DeckBinding.collectionItems
    rw [here, there]
    exact .error _
  | ok found =>
    cases found with
    | none =>
      unfold DeckBinding.collectionItems
      rw [here, there]
      exact .error _
    | @some found other reached =>
      by_cases null : found = .null
      · have also := reached.eq_null_iff.1 null
        unfold DeckBinding.collectionItems
        rw [here, there, null, also]
        exact .error _
      · rw [collectionItems_of_walk here null,
          collectionItems_of_walk there fun also => null (reached.eq_null_iff.2 also)]
        have items := reached.items?
        generalize found.items? = items? at items ⊢
        generalize other.items? = others? at items ⊢
        cases items with
        | none => exact .error _
        | some each => exact .ok each

end SameShape

variable {left right : Value}

theorem withItems_sameShape (same : SameShape left right) (path : String) (slide : Int)
    {expand other : List Value → List PlanEntry}
    (kept : ∀ items others, List.Forall₂ SameShape items others → expand items = other others) :
    withItems left path slide expand = withItems right path slide other := by
  have items := same.collectionItems path
  unfold withItems
  generalize collectionItems left path = here at items ⊢
  generalize collectionItems right path = there at items ⊢
  cases items with
  | error problem => rw [kept [] [] .nil]
  | ok each => exact kept _ _ each

theorem flatEntries_sameShape (same : SameShape left right) (template : SlideTemplate)
    (context : ContextPath) : flatEntries template left context = flatEntries template right context := by
  apply withItems_sameShape same
  intro items others each
  dsimp only
  rw [each.length_eq]

theorem leafEntries_sameShape {items others : List Value} (each : List.Forall₂ SameShape items others)
    (template : SlideTemplate) (context : ContextPath) :
    leafEntries template context items = leafEntries template context others := by
  unfold leafEntries
  rw [each.length_eq]

theorem nestedEntries_sameShape (same : SameShape left right) (template : SlideTemplate)
    (context : ContextPath) (chunks : List String) :
    nestedEntries template context left chunks = nestedEntries template context right chunks := by
  induction chunks generalizing context left right with
  | nil => rfl
  | cons chunk rest ih =>
    cases rest with
    | nil => exact withItems_sameShape same _ _ fun _ _ each => leafEntries_sameShape each template context
    | cons next rest =>
      simp only [nestedEntries]
      apply withItems_sameShape same
      intro items others each
      exact flatMap_zipIdx_congr each (fun item other index inside => ih inside _) 0

theorem memberEntries_sameShape (same : SameShape left right) {element other : Value}
    (below : SameShape element other) (window : Window) (index : Nat) (template : SlideTemplate) :
    memberEntries window left index element template =
      memberEntries window right index other template := by
  unfold memberEntries
  simp only [flatEntries_sameShape same, nestedEntries_sameShape below]

theorem windowEntries_sameShape (same : SameShape left right) (templates : List SlideTemplate)
    (window : Window) : windowEntries templates window left = windowEntries templates window right := by
  unfold windowEntries
  apply withItems_sameShape same
  intro items others each
  rw [flatMap_filter, flatMap_filter]
  apply flatMap_zipIdx_congr each
  intro element other index below
  have members : memberEntries window left index element = memberEntries window right index other :=
    funext fun template => memberEntries_sameShape same below window index template
  dsimp only
  rw [members]

theorem planEntries_sameShape (same : SameShape left right) (templates : List SlideTemplate)
    (windows : List Window) : planEntries templates windows left = planEntries templates windows right := by
  unfold planEntries entriesAt
  simp only [windowEntries_sameShape same, flatEntries_sameShape same]

/-- Data of the same shape have the same plan, and the same is told and noticed while it is made.
There is a plan when all indices of the template have numerals. -/
theorem plan_sameShape (templates : List SlideTemplate) {left right : Value}
    (same : SameShape left right) :
    SlidePlan.ofTemplates templates left = SlidePlan.ofTemplates templates right ∧
      ((∀ template ∈ templates, template.Countable) →
        ∃ planning, SlidePlan.ofTemplates templates left = .ok planning) := by
  refine ⟨?_, fun countable => exists_planning countable left⟩
  unfold SlidePlan.ofTemplates
  simp only [planEntries_sameShape same.plain]

theorem plan_sameShape_nested :
    let texts : Value := .map [(.text "p",
      .list [.map [(.text "c", .list [.text "x", .text "y"])], .map [(.text "c", .null)]])]
    let numbers : Value := .map [(.text "p",
      .tuple [.map [(.text "c", .list [.int 1, .bool false])], .map [(.text "c", .null)]])]
    SlidePlan.ofTemplates nestedDeck texts = SlidePlan.ofTemplates nestedDeck numbers ∧
      ∃ planning, SlidePlan.ofTemplates nestedDeck texts = .ok planning := by
  have entry (name : String) {member other : Value} (same : SameShape member other) :
      SameShape (.map [(.text name, member)]) (.map [(.text name, other)]) :=
    .of_entries (.cons ⟨rfl, same⟩ .nil)
  have items : SameShape (.list [.text "x", .text "y"]) (.list [.int 1, .bool false]) :=
    .of_items rfl rfl (.cons (.scalar rfl rfl) (.cons (.scalar rfl rfl) .nil))
  have elements : SameShape
      (.list [.map [(.text "c", .list [.text "x", .text "y"])], .map [(.text "c", .null)]])
      (.tuple [.map [(.text "c", .list [.int 1, .bool false])], .map [(.text "c", .null)]]) :=
    .of_items rfl rfl (.cons (entry "c" items) (.cons (entry "c" .null) .nil))
  have bare : ∀ template ∈ nestedDeck, template.directives = [] ∧ template.expressions = [] := by
    decide
  obtain ⟨same, returns⟩ := plan_sameShape nestedDeck (entry "p" elements)
  refine ⟨same, returns fun template member => ?_⟩
  obtain ⟨directives, expressions⟩ := bare template member
  exact ⟨by simp [directives], by simp [expressions]⟩

end DeckBinding
