import DeckBinding.Proofs.Alias.Names
import DeckBinding.Proofs.Resolution.ContextText
import DeckBinding.Proofs.Resolution.PlainWalk
import DeckBinding.Proofs.Resolution.Together

set_option autoImplicit false

namespace DeckBinding

open DeckBinding.Number

variable {root : Value} {context : ContextPath} {cache : ContextCache}

/-- A walk looks no further than it goes. -/
theorem contextElement_take {length depth : Nat} (inside : depth ≤ length) (cache : ContextCache) :
    contextElement root (context.take length) depth cache = contextElement root context depth cache := by
  induction depth with
  | zero => rfl
  | succ depth ih =>
    have here : (context.take length)[depth]? = context[depth]? :=
      List.getElem?_take_of_lt (by omega)
    have front : (context.take length).take (depth + 1) = context.take (depth + 1) := by
      rw [List.take_take, Nat.min_eq_left inside]
    rw [contextElement, contextElement, here, front, ih (by omega)]

/-- A cache with which every context leads where it leads when nothing is kept, as long as its names
hold no `>`. -/
def Trusted (root : Value) (cache : ContextCache) : Prop :=
  ∀ context : ContextPath, context.Separable → SameElements root context cache []

theorem trusted_nil (root : Value) : Trusted root [] :=
  fun _ _ => .refl []

/-- Keeping an element by the text of its own context leaves a cache that can be trusted. -/
theorem Trusted.put (trusted : Trusted root cache) (separable : context.Separable) {depth : Nat}
    {key : String} {element : Option Value} (inside : depth < context.length)
    (written : ContextPath.text (context.take (depth + 1)) = .ok key)
    (found : (contextElement root context (depth + 1) cache).1 = .ok element) :
    Trusted root (Keyed.put key element cache) := by
  intro other separableOther
  refine SameElements.trans ?_ (trusted other separableOther)
  have full {context : ContextPath} {depth : Nat} (inside : depth < context.length) :
      context.take (depth + 1) ≠ [] :=
    List.length_pos_iff.1 (by rw [List.length_take]; omega)
  intro place
  induction place with
  | zero => rfl
  | succ place ih =>
    by_cases same : ContextPath.text (other.take (place + 1)) = .ok key
    · cases there : other[place]? with
      | none => simp only [contextElement, there]
      | some step =>
        have insideOther := (List.getElem?_eq_some_iff.1 there).1
        have front : context.take (depth + 1) = other.take (place + 1) :=
          ContextPath.eq_of_text (fun segment member => separable segment (List.mem_of_mem_take member))
            (fun segment member => separableOther segment (List.mem_of_mem_take member))
            (full inside) (full insideOther) written same
        have depths : depth = place := by
          have lengths := congrArg List.length front
          rw [List.length_take, List.length_take] at lengths
          omega
        have again : contextElement root context (depth + 1) cache =
            contextElement root other (place + 1) cache := by
          rw [← contextElement_take (Nat.le_refl (depth + 1)), front, depths,
            contextElement_take (Nat.le_refl (place + 1))]
        have present : Keyed.get? key (Keyed.put key element cache) = some element := by
          rw [Keyed.get?_put, if_pos rfl]
        rw [contextElement_of_present there same present, ← again, found]
    · apply contextElement_succ_congr ih
      intro text writtenOther
      have apart : key ≠ text := fun again => same (again ▸ writtenOther)
      rw [Keyed.get?_put, if_neg apart]

/-- A walk that looks up contexts without `>` in their names keeps what can be trusted. -/
theorem trusted_contextElement (trusted : Trusted root cache) (separable : context.Separable)
    (depth : Nat) : Trusted root (contextElement root context depth cache).2 := by
  induction depth with
  | zero => exact trusted
  | succ depth ih =>
    cases here : context[depth]? with
    | none =>
      simp only [contextElement, here]
      exact trusted
    | some segment =>
      cases written : ContextPath.text (context.take (depth + 1)) with
      | error error =>
        simp only [contextElement, here, written]
        exact trusted
      | ok key =>
        cases looked : Keyed.get? key cache with
        | some known =>
          rw [contextElement_of_present here written looked]
          exact trusted
        | none =>
          -- the walk before left a cache that leads to the same element, so this element can be kept
          have again := @sameElements_contextElement root context depth cache (depth + 1)
          rw [contextElement_of_absent here written looked] at again ⊢
          rcases walked : contextElement root context depth cache with ⟨parent, after⟩
          rw [walked] at ih again
          cases parent with
          | error error => exact ih
          | ok parent =>
            cases reached : segment.from? parent with
            | error error => simpa only [reached] using ih
            | ok element =>
              simp only [reached] at again ⊢
              exact ih.put separable (List.getElem?_eq_some_iff.1 here).1 written again

theorem not_mem_stepNames {steps : List Step}
    (plain : ∀ step ∈ steps, '>' ∉ step.segment.name.toList) : '>' ∉ (stepNames steps).toList := by
  induction steps with
  | nil => exact List.not_mem_nil
  | cons step rest ih =>
    have here := plain step List.mem_cons_self
    have behind := ih fun other member => plain other (List.mem_cons_of_mem _ member)
    cases rest with
    | nil => simpa [stepNames] using here
    | cons next more =>
      have names : stepNames (step :: next :: more) =
          step.segment.name ++ "." ++ stepNames (next :: more) := String.intercalate_cons_cons
      rw [names]
      simp [here, behind]

/-- A path looks up a context by names of its own. -/
theorem Path.Separable.shared {path : Path} (separable : path.Separable) (context : ContextPath) :
    ContextPath.Separable (context.take (sharedDepth path.chunks context)) := by
  obtain ⟨names, _, _⟩ := sharedDepth_spec (Path.chunks_ne_nil path) context
  have plain : ∀ name ∈ (context.take (sharedDepth path.chunks context)).map (·.name),
      '>' ∉ name.toList := by
    rw [← names, List.forall_mem_map]
    intro part member
    apply not_mem_stepNames
    intro step among
    have inside : step ∈ path.steps := Path.mem_steps_of_mem_chunks (List.mem_of_mem_take member) among
    apply separable
    rw [← Path.segments_steps]
    exact List.mem_map_of_mem inside
  intro segment member
  exact plain segment.name (List.mem_map_of_mem member)

def BothTrusted (root : Value) (left right : ContextCache) : Prop :=
  Trusted root left ∧ Trusted root right

/-- With caches that can be trusted a path leads to the same, and leaves such caches. -/
theorem inStep_trusted (root : Value) (shown : Instance) :
    InStep root shown Path.Separable (BothTrusted root) := by
  intro path separable left right caches
  obtain ⟨trustedLeft, trustedRight⟩ := caches
  have shared := separable.shared shown.context
  have same := (trustedLeft _ shared).trans (trustedRight _ shared).symm
  have elements := same (sharedDepth path.chunks shown.context)
  have keptLeft := trusted_contextElement trustedLeft shared (sharedDepth path.chunks shown.context)
  have keptRight := trusted_contextElement trustedRight shared (sharedDepth path.chunks shown.context)
  rw [contextElement_take (Nat.le_refl _), contextElement_take (Nat.le_refl _)] at elements
  rw [contextElement_take (Nat.le_refl _)] at keptLeft keptRight
  unfold resolvePath
  dsimp only
  rcases first : contextElement root shown.context (sharedDepth path.chunks shown.context) left
    with ⟨element, after⟩
  rcases second : contextElement root shown.context (sharedDepth path.chunks shown.context) right
    with ⟨element', after'⟩
  rw [first, second] at elements
  rw [first] at keptLeft
  rw [second] at keptRight
  dsimp only at elements
  subst elements
  rcases element with error | _ | element
  · exact ⟨.error error, keptLeft, keptRight⟩
  · exact ⟨.ok rfl, keptLeft, keptRight⟩
  · exact ⟨.ok rfl, keptLeft, keptRight⟩

/-- The elements that a resolver has kept: none at first and when they are cleared, and then those
it kept when a path was resolved on a slide of the result. No name in a text that a path is read
from holds `>`. -/
inductive Remembered (root : Value) : ContextCache → Prop where
  | start : Remembered root []
  | path {cache : ContextCache} {path : Path} (before : Remembered root cache)
      (separable : path.Separable) (shown : Instance) :
      Remembered root (resolvePath root path shown cache).2

theorem Remembered.trusted (remembered : Remembered root cache) : Trusted root cache := by
  induction remembered with
  | start => exact trusted_nil root
  | @path cache path before separable shown ih =>
    exact (inStep_trusted root shown path separable cache cache ⟨ih, ih⟩).2.1

/-- What a resolver reads from a text are paths without `>` in their names, when its short names
stand for such paths. -/
theorem reads_separable {resolver : Resolver} (separable : resolver.aliases.Separable) :
    resolver.Reads Path.Separable :=
  fun _ _ read => separable.expandExpression (separable_of_ofBody read)

end DeckBinding
