import DeckBinding.Proofs.Number.Numeral
import DeckBinding.Proofs.Path.Selection
import DeckBinding.Proofs.Resolution.Follow

set_option autoImplicit false

namespace DeckBinding

open DeckBinding.Number DeckBinding.Text

/-- Texts that values have as a member. -/
def MembersAre (values : List Value) (member : String) (texts : List String) : Prop :=
  values.map (·.member? member) = texts.map fun text => some (.text text)

theorem MembersAre.getElem? {values : List Value} {member : String} {texts : List String}
    (members : MembersAre values member texts) (index : Nat) :
    (values[index]?.bind fun value => value.member? member) = texts[index]?.map Value.text := by
  have same : values[index]?.map (·.member? member) = texts[index]?.map fun text => some (.text text) := by
    rw [← List.getElem?_map, ← List.getElem?_map, members]
  generalize values[index]? = value at same
  generalize texts[index]? = text at same
  cases value with
  | none =>
    cases text with
    | none => rfl
    | some text => cases same
  | some value =>
    cases text with
    | none => cases same
    | some text => exact Option.some.inj same

def Path.items? (path : Path) (value : Value) : Option (List Value) :=
  (path.from? value).bind Value.items?

theorem bind_item? {path : Path} {value : Value} {items : List Value}
    (found : path.items? value = some items) (index : Nat) :
    ((path.from? value).bind fun collection => collection.item? (index : Int)) = items[index]? := by
  unfold Path.items? at found
  cases reached : path.from? value with
  | none =>
    rw [reached] at found
    cases found
  | some collection =>
    rw [reached, Option.bind_some] at found
    rw [Option.bind_some, Value.item?_natCast, found, Option.bind_some]

variable {root : Value} {shown : Instance} {property : ContextCache → Prop}

theorem shiftedIndex_of_collection {key : String} (here : shown.collection = some key) {offset : Nat}
    (shift : shown.offset = (offset : Int)) (index : Nat) :
    shown.shiftedIndex key index = ((index + offset : Nat) : Int) := by
  unfold Instance.shiftedIndex
  rw [if_pos here, shift]
  rfl

/-- A member of an element of the collection that the slide shows. -/
theorem shows_elementMember {path : Path} (dotted : path.Dotted)
    (here : shown.collection = some path.text) {offset : Nat} (shift : shown.offset = (offset : Int))
    {elements : List Value} (found : path.items? root = some elements) {member : String}
    {texts : List String} (members : MembersAre elements member texts) (index : Nat) :
    (path.elementMember member index).Shows root shown property texts[index + offset]? := by
  intro cache _
  obtain ⟨outcome, resolved, reached⟩ :=
    resolvePath_absolute (Path.join_of_mem_rest_elementMember dotted member index) root cache
  refine ⟨outcome, resolved, reached.trans ?_⟩
  obtain ⟨front, last, steps, key, selected⟩ := Path.exists_steps_elementMember dotted member
  obtain ⟨behind, whole⟩ := selected index
  have segments := Path.segments_steps path
  have bare := dotted.bare_of_segments segments
  rw [steps] at segments bare
  have element : followSteps shown root (front ++ [last.pinned index]) = elements[index + offset]? := by
    rw [followSteps_pinned bare, segments, key, shiftedIndex_of_collection here shift]
    exact bind_item? found _
  rw [whole, followSteps_append, element, ← members.getElem?]
  apply congrArg
  funext value
  exact Option.bind_fun_some _

theorem intercalate_stepsFrom (stem : String) {rest : List (Join × Segment)}
    (plain : ∀ entry ∈ rest, entry.1 = .member ∧ entry.2.index = none) (name : String) :
    ".".intercalate (name :: (Path.stepsFrom stem rest).map fun step => step.segment.name) =
      name ++ Path.restText rest := by
  induction rest generalizing stem name with
  | nil => simp [Path.stepsFrom, Path.restText]
  | cons entry rest ih =>
    obtain ⟨join, segment⟩ := entry
    obtain ⟨rfl, bare⟩ : join = .member ∧ segment.index = none := plain (join, segment) List.mem_cons_self
    have behind := ih (stem ++ String.singleton Join.member.symbol ++ segment.name ++ segment.pin)
      (fun other member => plain other (List.mem_cons_of_mem _ member)) segment.name
    have text : segment.text = segment.name := by
      rw [Segment.text, bare]
    have point : String.singleton Join.member.symbol = "." := rfl
    rw [Path.stepsFrom, List.map_cons, String.intercalate_cons_cons, behind, Path.restText, text, point,
      String.append_assoc, String.append_assoc]

/-- Without indices the names of the steps make up the text of a path. -/
theorem stepNames_steps {path : Path} (dotted : path.Dotted) : stepNames path.steps = path.text := by
  have text : path.first.text = path.first.name := by
    rw [Segment.text, dotted.first.2]
  have plain : ∀ entry ∈ path.rest, entry.1 = .member ∧ entry.2.index = none :=
    fun entry member => ⟨(dotted.rest entry member).1, dotted.bare entry member⟩
  rw [stepNames, Path.steps, Path.text, text]
  exact intercalate_stepsFrom _ plain _

theorem endsPinned_steps {path : Path} (dotted : path.Dotted) : endsPinned path.steps = false := by
  obtain ⟨front, last, steps, _, _⟩ := Path.exists_lastStep dotted
  have bare := dotted.bare_of_segments (Path.segments_steps path) last (by
    rw [steps]
    exact List.mem_append_right _ List.mem_cons_self)
  rw [endsPinned, steps, List.getLast?_concat]
  dsimp only
  rw [bare]
  rfl

/-- A path behind a `>` shares the part in front of it with a context that begins with an element of
its collection. -/
theorem sharedDepth_behind {path other : Path} (dotted : path.Dotted)
    (plain : ∀ entry ∈ other.rest, entry.1 = .member) (position : Int) (context : ContextPath) :
    sharedDepth (path.append .context other).chunks (⟨path.text, position⟩ :: context) = 1 := by
  rw [Path.chunks_behind dotted plain, sharedDepth, endsPinned_steps dotted, stepNames_steps dotted]
  simp [sharedDepth]

theorem sharedDepth_of_apart {path other : Path} (dotted : path.Dotted)
    (plain : ∀ entry ∈ other.rest, entry.1 = .member) {context : ContextPath}
    (apart : ∀ segment ∈ context, segment.name ≠ path.text) :
    sharedDepth (path.append .context other).chunks context = 0 := by
  rw [Path.chunks_behind dotted plain]
  cases context with
  | nil => rfl
  | cons segment others =>
    have other : path.text ≠ segment.name := (apart segment List.mem_cons_self).symm
    simp [sharedDepth, stepNames_steps dotted, other]

theorem sharedDepth_elementBelow {path other : Path} (dotted : path.Dotted) (below : other.Dotted)
    (index : Nat) (position : Int) :
    sharedDepth (path.elementBelow other index).chunks [⟨path.text, position⟩] = 1 :=
  sharedDepth_behind dotted (Path.join_of_mem_rest_withLastIndex below _) position []

theorem contextText_of_bound {segment : ContextSegment} (bound : segment.index.natAbs < writeBound) :
    ContextPath.text [segment] = .ok (segment.name ++ "[" ++ toString segment.index ++ "]") := by
  unfold ContextPath.text ContextPath.texts ContextSegment.text write
  rw [if_pos bound]
  rfl

theorem contextText_singleton (name : String) {position : Nat} (bound : position < writeBound) :
    ContextPath.text [⟨name, (position : Int)⟩] = .ok (name ++ "[" ++ toString position ++ "]") :=
  contextText_of_bound bound

/-- What a context of one segment leads to, looked up with nothing kept. -/
theorem contextElement_one {path : Path} (dotted : path.Dotted) {index : Int}
    (bound : index.natAbs < writeBound) :
    (contextElement root [⟨path.text, index⟩] 1 []).1 =
      .ok ((path.from? root).bind fun collection => collection.item? index) := by
  have reached : ContextSegment.from? ⟨path.text, index⟩ (some root) =
      .ok ((path.from? root).bind fun collection => collection.item? index) := by
    unfold ContextSegment.from?
    rw [dotted.readAbsolute_text]
    rfl
  have walked := @contextElement_of_absent root [⟨path.text, index⟩] 0 [] _ _ rfl
    (@contextText_of_bound ⟨path.text, index⟩ bound) rfl
  rw [walked, contextElement]
  dsimp only
  rw [reached]

/-- The current element of a collection at the top of the data. -/
theorem contextElement_singleton {path : Path} (dotted : path.Dotted) {position : Nat}
    (bound : position < writeBound) {elements : List Value}
    (found : path.items? root = some elements) {element : Value}
    (there : elements[position]? = some element) :
    (contextElement root [⟨path.text, (position : Int)⟩] 1 []).1 = .ok (some element) := by
  rw [@contextElement_one root path dotted position bound]
  exact congrArg Except.ok ((bind_item? found position).trans there)

/-- An element of a collection below the current element. The slide shows the collection. -/
theorem shows_elementBelow {path other : Path} (dotted : path.Dotted) (below : other.Dotted)
    {position : Nat} (bound : position < writeBound)
    (context : shown.context = [⟨path.text, (position : Int)⟩])
    (here : shown.collection = some (path.text ++ ">" ++ other.text)) {offset : Nat}
    (shift : shown.offset = (offset : Int)) {elements : List Value}
    (found : path.items? root = some elements) {element : Value}
    (there : elements[position]? = some element) {texts : List String}
    (inner : other.items? element = some (texts.map Value.text))
    (fresh : ∀ cache, property cache → SameElements root shown.context cache []) (index : Nat) :
    (path.elementBelow other index).Shows root shown property texts[index + offset]? := by
  intro cache holds
  have depth : sharedDepth (path.elementBelow other index).chunks shown.context = 1 := by
    rw [context]
    exact sharedDepth_elementBelow dotted below index _
  have current : (contextElement root shown.context 1 cache).1 = .ok (some element) := by
    rw [fresh cache holds 1, context]
    exact contextElement_singleton dotted bound found there
  refine ⟨(path.elementBelow other index).continueFrom shown 1 element, ?_, ?_⟩
  · unfold resolvePath
    dsimp only
    rw [depth]
    rcases walked : contextElement root shown.context 1 cache with ⟨outcome, after⟩
    rw [walked] at current
    dsimp only at current
    rw [current]
  · obtain ⟨front, last, steps, key, selected⟩ := Path.exists_stepsBelow path below
    have segments := Path.segments_stepsBelow path other
    have bare := below.bare_of_segments segments
    rw [steps] at segments bare
    have left : ((path.elementBelow other index).chunks.drop 1).flatten =
        path.stepsBelow (other.withLastIndex (some index)) := by
      rw [Path.chunks_elementBelow dotted below]
      exact List.append_nil _
    have plain := @Path.join_of_mem_stepsFrom
      (path.text ++ String.singleton Join.context.symbol ++
        (other.withLastIndex (some index)).first.name ++ (other.withLastIndex (some index)).first.pin)
      _ (Path.join_of_mem_rest_withLastIndex below (some index))
    have followed := @continueFrom_toOption shown _ 1 _ _ left plain element
    rw [followed]
    change followSteps shown element (path.stepsBelow (other.withLastIndex (some index))) = _
    rw [selected, followSteps_pinned bare, segments, key, shiftedIndex_of_collection here shift]
    exact (bind_item? inner _).trans List.getElem?_map

/-- Caches with which the elements of the collection with a name are the ones of the data, at every
position below a count. -/
def Faithful (root : Value) (name : String) (count : Nat) (cache : ContextCache) : Prop :=
  ∀ position < count, SameElements root [⟨name, (position : Int)⟩] cache []

theorem eq_of_contextText_singleton {name place : String} {left right : Nat}
    (boundLeft : left < writeBound) (boundRight : right < writeBound)
    (first : ContextPath.text [⟨name, (left : Int)⟩] = .ok place)
    (second : ContextPath.text [⟨name, (right : Int)⟩] = .ok place) : left = right := by
  rw [contextText_singleton name boundLeft] at first
  rw [contextText_singleton name boundRight] at second
  have texts := Except.ok.inj (first.trans second.symm)
  rw [String.append_left_inj, String.append_right_inj] at texts
  have digits : Nat.toDigits 10 left = Nat.toDigits 10 right := String.ofList_injective texts
  rw [← ofDigitValues_numeral left, ← ofDigitValues_numeral right, digits]

/-- No walk to an element spoils the walks to the others. -/
theorem keptBy_faithful (name : String) {count position : Nat} (few : count ≤ writeBound)
    (inside : position < count) :
    KeptBy root [⟨name, (position : Int)⟩] (Faithful root name count) := by
  intro depth cache holds other otherInside
  by_cases same : other = position
  · subst same
    exact (sameElements_contextElement depth cache).trans (holds other inside)
  · refine SameElements.trans ?_ (holds other otherInside)
    apply sameElements_of_get?
    intro front place written
    apply get?_contextElement
    intro further again
    rw [List.take_succ_cons, List.take_nil] at written again
    apply same
    exact eq_of_contextText_singleton (by omega) (by omega) written again

end DeckBinding
