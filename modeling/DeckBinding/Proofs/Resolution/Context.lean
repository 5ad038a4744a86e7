import DeckBinding.Proofs.Plan.Deck
import DeckBinding.Proofs.Resolution.ContextText
import DeckBinding.Proofs.Resolution.Locality
import DeckBinding.Proofs.Resolution.Selection

set_option autoImplicit false

namespace DeckBinding

open DeckBinding.Number DeckBinding.Text

theorem mem_trim {c : Char} {cs : List Char} (member : c ∈ cs) (full : isBlank c = false) :
    c ∈ trim cs := by
  have left : ∀ {cs : List Char}, c ∈ cs → c ∈ cs.dropWhile isBlank := by
    intro cs member
    rcases List.mem_append.1 ((@List.takeWhile_append_dropWhile _ isBlank cs).symm ▸ member)
      with front | behind
    · have blank := List.mem_takeWhile_imp front
      rw [full] at blank
      cases blank
    · exact behind
  unfold trim trimRight trimLeft
  rw [List.mem_reverse]
  exact left (List.mem_reverse.2 (left member))

theorem exists_join_of_mem {cs : List Char} (member : '>' ∈ cs) :
    ∃ token, (Join.context, token) ∈ (cutAtJoins cs).2 := by
  induction cs with
  | nil => cases member
  | cons c rest ih =>
    unfold cutAtJoins
    dsimp only
    rcases List.mem_cons.1 member with rfl | later
    · exact ⟨_, List.mem_cons_self⟩
    · obtain ⟨token, among⟩ := ih later
      cases Join.ofChar? c with
      | none => exact ⟨token, among⟩
      | some join => exact ⟨token, List.mem_cons_of_mem _ among⟩

theorem joins_of_readSegments {path : List Char} {tokens : List (Join × List Char)}
    {segments : List (Join × Segment)} (read : readSegments path tokens = .ok segments) :
    segments.map (·.1) = tokens.map (·.1) := by
  induction tokens generalizing segments with
  | nil =>
    cases read
    rfl
  | cons entry rest ih =>
    obtain ⟨join, token⟩ := entry
    unfold readSegments at read
    obtain ⟨segment, _, further⟩ := exists_of_bind_eq_ok read
    obtain ⟨others, more, last⟩ := exists_of_bind_eq_ok further
    cases last
    rw [List.map_cons, List.map_cons, ih more]

/-- A text that names a value below a given one holds no `>`. -/
theorem not_mem_of_readAbsolute {text : List Char} {path : Path}
    (read : Path.readAbsolute text = .ok path) : '>' ∉ text := by
  intro member
  unfold Path.readAbsolute at read
  obtain ⟨other, inner, plain⟩ := exists_of_bind_eq_ok read
  have crosses : other.usesContext = true := by
    unfold Path.read at inner
    split at inner
    · cases inner
    · obtain ⟨token, among⟩ := exists_join_of_mem (mem_trim member (by decide))
      obtain ⟨first, _, further⟩ := exists_of_bind_eq_ok inner
      obtain ⟨rest, segments, last⟩ := exists_of_bind_eq_ok further
      cases last
      have joins := joins_of_readSegments segments
      have here : Join.context ∈ rest.map (·.1) := by
        rw [joins]
        exact List.mem_map_of_mem among
      obtain ⟨entry, inside, same⟩ := List.mem_map.1 here
      exact List.any_eq_true.2 ⟨entry, inside, by rw [same]; rfl⟩
  rw [crosses, if_pos rfl] at plain
  cases plain

theorem exists_of_element? {segment : ContextSegment} {value element : Value}
    (found : segment.element? value = some element) :
    ∃ path, Path.readAbsolute segment.name.toList = .ok path ∧
      (path.from? value).bind (fun collection => collection.item? segment.index) = some element := by
  unfold ContextSegment.element? at found
  cases read : Path.readAbsolute segment.name.toList with
  | error failure =>
    unfold walk at found
    rw [read] at found
    cases found
  | ok path =>
    have walked : walk value segment.name.toList = .ok (path.from? value) := by
      unfold walk
      rw [read]
      rfl
    refine ⟨path, rfl, ?_⟩
    rw [walked] at found
    cases reached : path.from? value with
    | none =>
      rw [reached] at found
      cases found
    | some collection =>
      rw [reached] at found
      exact found

/-- The resolver goes from an element to the next one as the context says. -/
theorem from?_of_element? {segment : ContextSegment} {value element : Value}
    (found : segment.element? value = some element) :
    segment.from? (some value) = .ok (some element) := by
  obtain ⟨path, read, reached⟩ := exists_of_element? found
  unfold ContextSegment.from?
  rw [read]
  exact congrArg Except.ok reached

namespace ContextPath

variable {context left right : ContextPath} {root : Value}

theorem follow_take_isSome (found : (follow root context).isSome) (depth : Nat) :
    (follow root (context.take depth)).isSome := by
  rw [← List.take_append_drop depth context, follow_append] at found
  exact Option.isSome_of_isSome_bind found

theorem follow_take_succ {depth : Nat} {segment : ContextSegment}
    (here : context[depth]? = some segment) :
    follow root (context.take (depth + 1)) =
      (follow root (context.take depth)).bind segment.element? := by
  rw [List.take_add_one, here, follow_append]
  congr 1
  funext value
  exact Option.bind_fun_some _

/-- The names of a context that leads to an element are paths. -/
theorem separable_of_follow (found : (follow root context).isSome) : context.Separable := by
  induction context generalizing root with
  | nil => exact fun segment member => nomatch member
  | cons segment rest ih =>
    rw [follow] at found
    cases step : segment.element? root with
    | none =>
      rw [step] at found
      cases found
    | some element =>
      rw [step, Option.bind_some] at found
      intro other member
      rcases List.mem_cons.1 member with rfl | later
      · obtain ⟨path, read, _⟩ := exists_of_element? step
        exact not_mem_of_readAbsolute read
      · exact ih found other later

/-- The front of a context that has a text has one, too. -/
theorem exists_text_take {key : String} (written : text context = .ok key) (depth : Nat) :
    ∃ shorter, text (context.take depth) = .ok shorter := by
  rw [← List.take_append_drop depth context] at written
  unfold text at written ⊢
  rw [texts_append] at written
  cases first : texts (context.take depth) with
  | error error =>
    rw [first] at written
    cases written
  | ok parts => exact ⟨_, rfl⟩

end ContextPath

/-- A cache that holds nothing but the elements that contexts lead to. -/
def Sound (root : Value) (cache : ContextCache) : Prop :=
  ∀ context element, ContextPath.follow root context = some element → context ≠ [] →
    ∀ key known, context.text = .ok key → Keyed.get? key cache = some known → known = some element

section Walks

variable {root : Value} {context : ContextPath} {cache : ContextCache}

theorem sound_nil (root : Value) : Sound root [] := by
  intro context element _ _ key known _ held
  cases held

theorem sound_put (sound : Sound root cache) {element : Value} {key : String}
    (found : ContextPath.follow root context = some element) (full : context ≠ [])
    (written : context.text = .ok key) : Sound root (Keyed.put key (some element) cache) := by
  intro other reached leads fullOther place known text held
  rw [Keyed.get?_put] at held
  split at held
  · rename_i same
    subst same
    have contexts := ContextPath.eq_of_text
      (ContextPath.separable_of_follow (Option.isSome_of_eq_some found))
      (ContextPath.separable_of_follow (Option.isSome_of_eq_some leads)) full fullOther written text
    subst contexts
    rw [← Option.some.inj held, ← found, leads]
  · exact sound other reached leads fullOther place known text held

/-- With a sound cache the resolver finds the elements of a context, and what it keeps is sound. A
context is refused only for an index too long to be written. -/
theorem contextElement_of_sound (found : (ContextPath.follow root context).isSome)
    (sound : Sound root cache) {depth : Nat} (inside : depth ≤ context.length) :
    (contextElement root context depth cache).1 =
        (ContextPath.text (context.take depth)).map (fun _ =>
          ContextPath.follow root (context.take depth)) ∧
      Sound root (contextElement root context depth cache).2 := by
  induction depth with
  | zero => exact ⟨rfl, sound⟩
  | succ depth ih =>
    obtain ⟨same, kept⟩ := ih (by omega)
    obtain ⟨segment, here⟩ : ∃ segment, context[depth]? = some segment :=
      ⟨_, List.getElem?_eq_getElem (by omega)⟩
    have step := @ContextPath.follow_take_succ context root depth segment here
    obtain ⟨element, reached⟩ :=
      Option.isSome_iff_exists.1 (ContextPath.follow_take_isSome found (depth + 1))
    obtain ⟨parent, before⟩ :=
      Option.isSome_iff_exists.1 (ContextPath.follow_take_isSome found depth)
    have full : context.take (depth + 1) ≠ [] := by
      intro none
      have empty := congrArg List.length none
      rw [List.length_take, List.length_nil] at empty
      omega
    cases written : ContextPath.text (context.take (depth + 1)) with
    | error error =>
      rw [contextElement, here, written]
      exact ⟨rfl, sound⟩
    | ok key =>
      rw [reached]
      cases looked : Keyed.get? key cache with
      | some known =>
        rw [contextElement_of_present here written looked,
          sound _ element reached full key known written looked]
        exact ⟨rfl, sound⟩
      | none =>
        obtain ⟨shorter, wrote⟩ := ContextPath.exists_text_take written depth
        rw [List.take_take, Nat.min_eq_left (Nat.le_succ depth)] at wrote
        rw [contextElement_of_absent here written looked]
        rcases walked : contextElement root context depth cache with ⟨outcome, after⟩
        rw [walked] at same kept
        rw [wrote, before] at same
        change outcome = .ok (some parent) at same
        subst same
        rw [before, reached, Option.bind_some] at step
        dsimp only
        rw [from?_of_element? step.symm]
        exact ⟨rfl, sound_put kept reached full written⟩

theorem keptBy_sound (found : (ContextPath.follow root context).isSome) :
    KeptBy root context (Sound root) := by
  intro depth cache sound
  by_cases inside : depth ≤ context.length
  · exact (contextElement_of_sound found sound inside).2
  · cases depth with
    | zero => exact sound
    | succ depth =>
      have none : context[depth]? = none := List.getElem?_eq_none (by omega)
      rw [contextElement, none]
      exact sound

end Walks

/-- What a resolver keeps from one expression to the next: nothing at first, and then what it kept
when a path was resolved on a slide. -/
inductive Reached (root : Value) (slides : List Instance) : ContextCache → Prop where
  | start : Reached root slides []
  | path {cache : ContextCache} {shown : Instance} (before : Reached root slides cache)
      (member : shown ∈ slides) (path : Path) :
      Reached root slides (resolvePath root path shown cache).2

theorem Reached.sound {root : Value} {slides : List Instance} {cache : ContextCache}
    (leads : ∀ shown ∈ slides, (ContextPath.follow root shown.context).isSome)
    (reached : Reached root slides cache) : Sound root cache := by
  induction reached with
  | start => exact sound_nil root
  | path before member path ih => exact resolvePath_keeps (keptBy_sound (leads _ member)) path ih

end DeckBinding
