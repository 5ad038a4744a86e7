import DeckBinding.Proofs.Path.Parts
import DeckBinding.Proofs.Resolution.Context

set_option autoImplicit false

namespace DeckBinding

open DeckBinding.Number

/-- Goes from a collection to the element selected of it, unless the step to it selected one. -/
def Step.cross? (select : String → Option Int) (step : Step) (value : Value) : Option Value :=
  if step.segment.index.isSome then some value
  else (select step.key).bind fun index => value.item? index

/-- The value that a step starts from. A `>` in front of it goes on from an element of what the step
before led to. -/
def Step.start? (select : String → Option Int) (before : Option Step) (step : Step) (value : Value) :
    Option Value :=
  match before with
  | none => some value
  | some before => if step.join = some .context then before.cross? select value else some value

def crossSteps (select : String → Option Int) (shown : Instance) :
    Option Step → List Step → Value → Option Value
  | _, [], value => some value
  | before, step :: rest, value =>
    (step.start? select before value).bind fun start =>
      (step.from? shown start).bind fun next => crossSteps select shown (some step) rest next

/-- The steps with a `>` behind them. -/
def crossed : List Step → List Step
  | step :: next :: rest =>
    if next.join = some .context then step :: crossed (next :: rest) else crossed (next :: rest)
  | _ => []

theorem mem_crossed_cons {step first : Step} {rest : List Step} (member : step ∈ crossed rest) :
    step ∈ crossed (first :: rest) := by
  cases rest with
  | nil => exact member
  | cons next rest =>
    rw [crossed]
    split
    · exact List.mem_cons_of_mem _ member
    · exact member

theorem mem_crossed_of_join {step next : Step} {rest : List Step}
    (crosses : next.join = some .context) : step ∈ crossed (step :: next :: rest) := by
  rw [crossed, if_pos crosses]
  exact List.mem_cons_self

variable {select other : String → Option Int} {shown : Instance} {root : Value} {path : Path}

theorem crossSteps_append (before : Option Step) (front back : List Step) (value : Value) :
    crossSteps select shown before (front ++ back) value =
      (crossSteps select shown before front value).bind fun next =>
        crossSteps select shown (front.getLast?.or before) back next := by
  induction front generalizing before value with
  | nil => rfl
  | cons step rest ih =>
    have last : (step :: rest).getLast?.or before = rest.getLast?.or (some step) := by
      cases rest with
      | nil => rfl
      | cons next rest =>
        rw [List.getLast?_cons_cons]
        cases there : (next :: rest).getLast? with
        | none => simp at there
        | some found => rfl
    rw [List.cons_append, crossSteps, crossSteps, last]
    cases step.start? select before value with
    | none => rfl
    | some start =>
      cases reached : step.from? shown start with
      | none => simp [reached]
      | some next =>
        simp only [Option.bind_some, reached]
        exact ih (some step) next

/-- Without a `>` inside, steps are followed from where the first one starts. -/
theorem crossSteps_plain (before : Option Step) {first : Step} {rest : List Step}
    (plain : ∀ step ∈ rest, step.join ≠ some .context) (value : Value) :
    crossSteps select shown before (first :: rest) value =
      (first.start? select before value).bind fun start => followSteps shown start (first :: rest) := by
  have behind : ∀ (step : Step) (value : Value),
      crossSteps select shown (some step) rest value = followSteps shown value rest := by
    induction rest with
    | nil => exact fun _ _ => rfl
    | cons next rest ih =>
      intro step value
      have start : next.start? select (some step) value = some value := by
        rw [Step.start?, if_neg (plain next List.mem_cons_self)]
      rw [crossSteps, start, followSteps, Option.bind_some]
      congr 1
      funext reached
      exact ih (fun other member => plain other (List.mem_cons_of_mem _ member)) next reached
  rw [crossSteps]
  congr 1
  funext start
  rw [followSteps]
  congr 1
  funext next
  exact behind first next

theorem Step.cross?_congr {step : Step}
    (agree : step.segment.index = none → select step.key = other step.key) (value : Value) :
    step.cross? select value = step.cross? other value := by
  unfold Step.cross?
  by_cases bare : step.segment.index = none
  · rw [agree bare]
  · have pinned := Option.isSome_iff_ne_none.2 bare
    rw [if_pos pinned, if_pos pinned]

/-- Walks that select the same elements in front of each `>` lead to the same value. -/
theorem crossSteps_congr {steps : List Step} {before : Option Step}
    (agree : ∀ step ∈ crossed (before.toList ++ steps), step.segment.index = none →
      select step.key = other step.key) (value : Value) :
    crossSteps select shown before steps value = crossSteps other shown before steps value := by
  induction steps generalizing before value with
  | nil => rfl
  | cons step rest ih =>
    have behind : ∀ later ∈ crossed (step :: rest), later.segment.index = none →
        select later.key = other later.key := by
      intro later member
      apply agree later
      cases before with
      | none => exact member
      | some last => exact mem_crossed_cons member
    have start : step.start? select before value = step.start? other before value := by
      cases before with
      | none => rfl
      | some last =>
        unfold Step.start?
        dsimp only
        split
        · rename_i crosses
          exact Step.cross?_congr (agree last (mem_crossed_of_join crosses)) value
        · rfl
    rw [crossSteps, crossSteps, start]
    congr 1
    funext reached
    congr 1
    funext next
    exact @ih (some step) behind next

theorem crossContext_toOption (step : Step) (value : Value) :
    (crossContext shown step value).toOption = step.cross? shown.selectedIndex? value := by
  unfold crossContext Step.cross?
  split
  · rfl
  · cases shown.selectedIndex? step.key with
    | none => rfl
    | some index =>
      dsimp only [Option.bind_some]
      cases value.item? index <;> rfl

theorem takeSteps_eq_crossSteps (text : String) (before : Step) (steps : List Step) (value : Value) :
    (takeSteps shown text before steps value).toOption =
      crossSteps shown.selectedIndex? shown (some before) steps value := by
  induction steps generalizing before value with
  | nil => rfl
  | cons step rest ih =>
    rw [takeSteps, crossSteps, Step.start?]
    split
    · simp only [toOption_bind, crossContext_toOption, takeStep_toOption, ih]
    · change (takeStep shown text before.key step value >>= _).toOption = _
      simp only [toOption_bind, takeStep_toOption, ih, Option.bind_some]

theorem continueFrom_eq_crossSteps (path : Path) (depth : Nat) (element : Value) :
    (path.continueFrom shown depth element).toOption =
      crossSteps shown.selectedIndex? shown none (path.chunks.drop depth).flatten element := by
  unfold Path.continueFrom
  cases (path.chunks.drop depth).flatten with
  | nil => rfl
  | cons step rest =>
    dsimp only
    simp only [toOption_bind, takeStep_toOption, takeSteps_eq_crossSteps, crossSteps]
    rfl

/-- The resolver goes on from the element of the context, if there is one. -/
theorem resolvePath_of_element {cache : ContextCache} {found : Option Value}
    (current : (contextElement root shown.context (sharedDepth path.chunks shown.context) cache).1 =
      .ok found) :
    (resolvePath root path shown cache).1 = .ok (found.elim
      (.error (.noContextElement (shown.context.take (sharedDepth path.chunks shown.context))))
      (path.continueFrom shown (sharedDepth path.chunks shown.context))) := by
  unfold resolvePath
  dsimp only
  rcases walked : contextElement root shown.context (sharedDepth path.chunks shown.context) cache
    with ⟨element, after⟩
  rw [walked] at current
  dsimp only at current
  subst current
  cases found <;> rfl

/-- The resolver follows the parts of a path that are left from the element of the context. -/
theorem exists_outcome {cache : ContextCache} {found : Option Value}
    (current : (contextElement root shown.context (sharedDepth path.chunks shown.context) cache).1 =
      .ok found) :
    ∃ outcome, (resolvePath root path shown cache).1 = .ok outcome ∧
      outcome.toOption = found.bind fun element =>
        crossSteps shown.selectedIndex? shown none
          (path.chunks.drop (sharedDepth path.chunks shown.context)).flatten element := by
  refine ⟨_, resolvePath_of_element current, ?_⟩
  cases found with
  | none => rfl
  | some element => exact continueFrom_eq_crossSteps path _ element

/-- With a sound cache the walk goes on from where the shared front of the context leads. -/
theorem exists_outcome_of_sound {cache : ContextCache} {key : String} {depth : Nat}
    (leads : (ContextPath.follow root shown.context).isSome) (sound : Sound root cache)
    (written : shown.context.text = .ok key) (inside : depth ≤ shown.context.length)
    (shared : sharedDepth path.chunks shown.context = depth) :
    ∃ outcome, (resolvePath root path shown cache).1 = .ok outcome ∧
      outcome.toOption = (ContextPath.follow root (shown.context.take depth)).bind fun element =>
        crossSteps shown.selectedIndex? shown none (path.chunks.drop depth).flatten element := by
  subst shared
  obtain ⟨shorter, wrote⟩ :=
    ContextPath.exists_text_take written (sharedDepth path.chunks shown.context)
  have current := (contextElement_of_sound leads sound inside).1
  rw [wrote] at current
  exact exists_outcome current

theorem element?_partText {part : List Step} (full : part ≠ [])
    (wellFormed : ∀ step ∈ part, step.segment.WellFormed) (index : Int) (value : Value) :
    ContextSegment.element? ⟨partText part, index⟩ value =
      (followSegments value (part.map Step.segment)).bind fun found => found.item? index := by
  obtain ⟨path, read, segments⟩ := Path.exists_of_partText full wellFormed
  have walked : walk value (partText part).toList =
      .ok (followSegments value (part.map Step.segment)) := by
    unfold walk
    rw [read, ← segments]
    rfl
  unfold ContextSegment.element?
  dsimp only
  rw [walked]
  cases followSegments value (part.map Step.segment) <;> rfl

/-- Parts are shared with a context up to the first one that selects an element. -/
theorem sharedDepth_eq_length {context : ContextPath} {front back : List (List Step)}
    (names : context.map (·.name) = (front ++ back).map partText) (bare : ∀ part ∈ front, Bare part)
    (stops : ∀ part ∈ back.head?, ¬ Bare part) (last : List Step) :
    sharedDepth (front ++ back ++ [last]) context = front.length := by
  induction front generalizing context with
  | nil =>
    cases back with
    | nil => rfl
    | cons part back =>
      cases context with
      | nil => cases names
      | cons segment context =>
        have name : segment.name = partText part := (List.cons.inj names).1
        have apart : stepNames part ≠ segment.name := by
          rw [name]
          exact fun same => stops part rfl (Path.bare_of_stepNames same)
        cases back <;> simp [sharedDepth, apart]
  | cons part front ih =>
    cases context with
    | nil => cases names
    | cons segment context =>
      have here := bare part List.mem_cons_self
      obtain ⟨name, others⟩ := List.cons.inj names
      have same : stepNames part = segment.name := (Path.stepNames_of_bare here).trans name.symm
      have free : endsPinned part = false := by
        unfold endsPinned
        split
        · rename_i step ends
          rw [here step (List.mem_of_getLast? ends)]
          rfl
        · rfl
      have behind := ih others fun inner member => bare inner (List.mem_cons_of_mem _ member)
      obtain ⟨next, more, rest⟩ : ∃ next more, front ++ back ++ [last] = next :: more :=
        List.exists_cons_of_ne_nil (by simp)
      rw [List.cons_append, List.cons_append, rest, sharedDepth, free, same, ← rest, behind]
      simp

end DeckBinding
