import DeckBinding.Resolution.Walk

set_option autoImplicit false

namespace DeckBinding

namespace ContextPath

theorem texts_append (front back : ContextPath) :
    texts (front ++ back) = (do
      let first ← texts front
      let second ← texts back
      .ok (first ++ second)) := by
  induction front with
  | nil =>
    rw [List.nil_append, texts]
    cases texts back <;> rfl
  | cons segment rest ih =>
    rw [List.cons_append, texts, texts, ih]
    cases segment.text with
    | error error => rfl
    | ok text =>
      cases texts rest with
      | error error => rfl
      | ok first => cases texts back <;> rfl

theorem length_of_texts {context : ContextPath} {parts : List String}
    (written : context.texts = .ok parts) : parts.length = context.length := by
  induction context generalizing parts with
  | nil =>
    cases written
    rfl
  | cons segment rest ih =>
    rw [texts] at written
    cases first : segment.text with
    | error error =>
      rw [first] at written
      cases written
    | ok text =>
      cases more : texts rest with
      | error error =>
        rw [first, more] at written
        cases written
      | ok others =>
        rw [first, more] at written
        cases written
        rw [List.length_cons, ih more, List.length_cons]

/-- A context that goes on has a longer text. -/
theorem length_lt_of_text {front back : ContextPath} {short long : String} (starts : front ≠ [])
    (goesOn : back ≠ []) (shorter : front.text = .ok short) (longer : text (front ++ back) = .ok long) :
    short.length < long.length := by
  unfold text at shorter longer
  rw [texts_append] at longer
  cases first : texts front with
  | error error =>
    rw [first] at shorter
    cases shorter
  | ok parts =>
    rw [first] at shorter longer
    cases second : texts back with
    | error error =>
      rw [second] at longer
      cases longer
    | ok others =>
      rw [second] at longer
      cases shorter
      cases longer
      have size := length_of_texts first
      have sizeOthers := length_of_texts second
      have positive := List.length_pos_iff.2 starts
      have positiveOthers := List.length_pos_iff.2 goesOn
      rw [String.intercalate_append_of_ne_nil (List.length_pos_iff.1 (by omega))
        (List.length_pos_iff.1 (by omega)), String.length_append, String.length_append]
      have mark : ">".length = 1 := rfl
      omega

private theorem ne_of_take_text {context : ContextPath} {left right : Nat} {key : String}
    (before : left < right) (bound : right < context.length)
    (written : text (context.take (left + 1)) = .ok key)
    (further : text (context.take (right + 1)) = .ok key) : False := by
  have split : context.take (right + 1) =
      context.take (left + 1) ++ (context.take (right + 1)).drop (left + 1) := by
    have rejoined := List.take_append_drop (left + 1) (context.take (right + 1))
    rw [List.take_take, Nat.min_eq_left (by omega)] at rejoined
    exact rejoined.symm
  rw [split] at further
  have longer := length_lt_of_text (List.length_pos_iff.1 (by rw [List.length_take]; omega))
    (List.length_pos_iff.1 (by rw [List.length_drop, List.length_take]; omega)) written further
  exact Nat.lt_irrefl _ longer

/-- The text of the front of a context tells how long the front is. -/
theorem depth_of_take_text {context : ContextPath} {left right : Nat} {key : String}
    (boundLeft : left < context.length) (boundRight : right < context.length)
    (written : text (context.take (left + 1)) = .ok key)
    (again : text (context.take (right + 1)) = .ok key) : left = right := by
  rcases Nat.lt_trichotomy left right with before | same | behind
  · exact (ne_of_take_text before boundRight written again).elim
  · exact same
  · exact (ne_of_take_text behind boundLeft again written).elim

end ContextPath

variable {root : Value} {context : ContextPath}

/-- Two caches with which the fronts of a context lead to the same elements. -/
def SameElements (root : Value) (context : ContextPath) (left right : ContextCache) : Prop :=
  ∀ depth, (contextElement root context depth left).1 = (contextElement root context depth right).1

namespace SameElements

theorem refl (cache : ContextCache) : SameElements root context cache cache :=
  fun _ => rfl

theorem symm {left right : ContextCache} (same : SameElements root context left right) :
    SameElements root context right left :=
  fun depth => (same depth).symm

theorem trans {first second third : ContextCache} (left : SameElements root context first second)
    (right : SameElements root context second third) : SameElements root context first third :=
  fun depth => (left depth).trans (right depth)

end SameElements

/-- An element that is found only after a walk depends on the cache by the walk alone. -/
theorem contextElement_of_absent {depth : Nat} {cache : ContextCache} {segment : ContextSegment}
    {key : String} (here : context[depth]? = some segment)
    (written : ContextPath.text (context.take (depth + 1)) = .ok key)
    (absent : Keyed.get? key cache = none) :
    contextElement root context (depth + 1) cache =
      match contextElement root context depth cache with
      | (.error error, cache) => (.error error, cache)
      | (.ok parent, cache) =>
        match segment.from? parent with
        | .error error => (.error error, cache)
        | .ok element => (.ok element, Keyed.put key element cache) := by
  rcases walked : contextElement root context depth cache with ⟨parent, after⟩
  cases parent with
  | error error => simp only [contextElement, here, written, absent, walked]
  | ok parent =>
    cases reached : segment.from? parent with
    | error error => simp only [contextElement, here, written, absent, walked, reached]
    | ok element => simp only [contextElement, here, written, absent, walked, reached]

theorem contextElement_of_present {depth : Nat} {cache : ContextCache} {segment : ContextSegment}
    {key : String} {element : Option Value} (here : context[depth]? = some segment)
    (written : ContextPath.text (context.take (depth + 1)) = .ok key)
    (present : Keyed.get? key cache = some element) :
    contextElement root context (depth + 1) cache = (.ok element, cache) := by
  simp only [contextElement, here, written, present]

/-- Two walks agree one element further when the caches hold the same for the longer context. -/
theorem contextElement_succ_congr {depth : Nat} {left right : ContextCache}
    (before : (contextElement root context depth left).1 = (contextElement root context depth right).1)
    (looked : ∀ place, ContextPath.text (context.take (depth + 1)) = .ok place →
      Keyed.get? place left = Keyed.get? place right) :
    (contextElement root context (depth + 1) left).1 =
      (contextElement root context (depth + 1) right).1 := by
  cases there : context[depth]? with
  | none => simp only [contextElement, there]
  | some step =>
    cases written : ContextPath.text (context.take (depth + 1)) with
    | error error => simp only [contextElement, there, written]
    | ok place =>
      have same := looked place written
      cases held : Keyed.get? place right with
      | some known =>
        rw [contextElement_of_present there written (same.trans held),
          contextElement_of_present there written held]
      | none =>
        rw [contextElement_of_absent there written (same.trans held),
          contextElement_of_absent there written held]
        rcases first : contextElement root context depth left with ⟨parent, _⟩
        rcases second : contextElement root context depth right with ⟨parent', _⟩
        obtain rfl : parent = parent' := by simpa [first, second] using before
        cases parent with
        | error error => rfl
        | ok parent => cases reached : step.from? parent <;> simp only [reached]

/-- Caches that hold the same for every front of a context lead to the same elements. -/
theorem sameElements_of_get? {left right : ContextCache}
    (looked : ∀ depth place, ContextPath.text (context.take (depth + 1)) = .ok place →
      Keyed.get? place left = Keyed.get? place right) :
    SameElements root context left right := by
  intro depth
  induction depth with
  | zero => rfl
  | succ depth ih => exact contextElement_succ_congr ih (looked depth)

/-- A walk sets no element but those of the fronts of its context. -/
theorem get?_contextElement {place : String}
    (apart : ∀ depth, ContextPath.text (context.take (depth + 1)) ≠ .ok place)
    (depth : Nat) (cache : ContextCache) :
    Keyed.get? place (contextElement root context depth cache).2 = Keyed.get? place cache := by
  induction depth with
  | zero => rfl
  | succ depth ih =>
    cases here : context[depth]? with
    | none => simp only [contextElement, here]
    | some segment =>
      cases written : ContextPath.text (context.take (depth + 1)) with
      | error error => simp only [contextElement, here, written]
      | ok key =>
        cases looked : Keyed.get? key cache with
        | some known => rw [contextElement_of_present here written looked]
        | none =>
          rw [contextElement_of_absent here written looked]
          rcases walked : contextElement root context depth cache with ⟨parent, after⟩
          rw [walked] at ih
          cases parent with
          | error error => exact ih
          | ok parent =>
            cases reached : segment.from? parent with
            | error error => simpa only [reached] using ih
            | ok element =>
              have other : key ≠ place := fun same => apart depth (same ▸ written)
              simp only [reached]
              rw [Keyed.get?_put, if_neg other]
              exact ih

/-- Setting an element that the walk leads to anyway changes no walk. -/
theorem sameElements_put {depth : Nat} {cache : ContextCache} {segment : ContextSegment}
    {key : String} {element : Option Value} (here : context[depth]? = some segment)
    (written : ContextPath.text (context.take (depth + 1)) = .ok key)
    (found : (contextElement root context (depth + 1) cache).1 = .ok element) :
    SameElements root context (Keyed.put key element cache) cache := by
  intro other
  induction other with
  | zero => rfl
  | succ other ih =>
    by_cases same : ContextPath.text (context.take (other + 1)) = .ok key
    · cases there : context[other]? with
      | none => simp only [contextElement, there]
      | some step =>
        have boundHere := (List.getElem?_eq_some_iff.1 here).1
        have boundThere := (List.getElem?_eq_some_iff.1 there).1
        obtain rfl := ContextPath.depth_of_take_text boundHere boundThere written same
        have present : Keyed.get? key (Keyed.put key element cache) = some element := by
          rw [Keyed.get?_put, if_pos rfl]
        rw [contextElement_of_present there same present, found]
    · apply contextElement_succ_congr ih
      intro place writtenOther
      have apart : key ≠ place := fun again => same (again ▸ writtenOther)
      rw [Keyed.get?_put, if_neg apart]

/-- A walk leaves a cache with which every walk finds what it found before. -/
theorem sameElements_contextElement (depth : Nat) (cache : ContextCache) :
    SameElements root context (contextElement root context depth cache).2 cache := by
  induction depth with
  | zero => exact .refl cache
  | succ depth ih =>
    cases here : context[depth]? with
    | none =>
      simp only [contextElement, here]
      exact .refl cache
    | some segment =>
      cases written : ContextPath.text (context.take (depth + 1)) with
      | error error =>
        simp only [contextElement, here, written]
        exact .refl cache
      | ok key =>
        cases looked : Keyed.get? key cache with
        | some known =>
          rw [contextElement_of_present here written looked]
          exact .refl cache
        | none =>
          have again := ih (depth + 1)
          rw [contextElement_of_absent here written looked] at again ⊢
          rcases walked : contextElement root context depth cache with ⟨parent, after⟩
          rw [walked] at ih again
          cases parent with
          | error error => exact ih
          | ok parent =>
            cases reached : segment.from? parent with
            | error error => simpa only [reached] using ih
            | ok element =>
              simp only [reached] at again ⊢
              exact (sameElements_put here written again).trans ih

/-- A property of caches that looking up the elements of a context keeps. -/
def KeptBy (root : Value) (context : ContextPath) (property : ContextCache → Prop) : Prop :=
  ∀ depth cache, property cache → property (contextElement root context depth cache).2

theorem keptBy_sameElements (start : ContextCache) :
    KeptBy root context fun cache => SameElements root context cache start :=
  fun depth cache same => (sameElements_contextElement depth cache).trans same

end DeckBinding
