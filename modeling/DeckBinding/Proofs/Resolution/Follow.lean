import DeckBinding.Proofs.Expression.PathText
import DeckBinding.Proofs.Path.Steps
import DeckBinding.Proofs.Resolution.Filling
import DeckBinding.Resolution.Resolver

set_option autoImplicit false

namespace DeckBinding

open DeckBinding.Number

def Step.from? (shown : Instance) (step : Step) (value : Value) : Option Value :=
  match step.segment.index with
  | none => value.member? step.segment.name
  | some index => (value.member? step.segment.name).bind fun found =>
      found.item? (shown.shiftedIndex step.key index)

def followSteps (shown : Instance) (value : Value) : List Step → Option Value
  | [] => some value
  | step :: rest => (step.from? shown value).bind fun next => followSteps shown next rest

/-- Nothing is special about an absent value: it has no members anyway. -/
theorem from?_of_bare {segment : Segment} (bare : segment.index = none) (value : Value) :
    segment.from? value = value.member? segment.name := by
  unfold Segment.from?
  rw [bare]
  cases value <;> rfl

variable {shown : Instance}

theorem followSteps_append (value : Value) (front back : List Step) :
    followSteps shown value (front ++ back) =
      (followSteps shown value front).bind fun next => followSteps shown next back := by
  induction front generalizing value with
  | nil => rfl
  | cons step front ih =>
    simp only [List.cons_append, followSteps]
    cases step.from? shown value with
    | none => rfl
    | some next => simp [ih]

/-- Steps whose indices are not shifted follow their segments. -/
theorem followSteps_of_still {steps : List Step}
    (still : ∀ step ∈ steps, ∀ index, step.segment.index = some index →
      shown.shiftedIndex step.key index = (index : Int)) (value : Value) :
    followSteps shown value steps = followSegments value (steps.map Step.segment) := by
  induction steps generalizing value with
  | nil => rfl
  | cons step rest ih =>
    obtain ⟨here, behind⟩ := List.forall_mem_cons.1 still
    have same : step.from? shown value = step.segment.from? value := by
      unfold Step.from? Segment.from?
      cases selects : step.segment.index with
      | none => cases value <;> rfl
      | some index => cases value <;> simp [Value.member?, here index selects]
    simp only [followSteps, List.map_cons, followSegments, same, ih behind]

/-- Without indices steps follow their segments. -/
theorem followSteps_of_bare {steps : List Step} (bare : ∀ step ∈ steps, step.segment.index = none)
    (value : Value) :
    followSteps shown value steps = followSegments value (steps.map Step.segment) := by
  apply followSteps_of_still
  intro step member index selects
  rw [bare step member] at selects
  cases selects

/-- The last step selects an element of what the steps lead to without it. -/
theorem followSteps_pinned {front : List Step} {last : Step} {index : Nat}
    (bare : ∀ step ∈ front ++ [last], step.segment.index = none) (value : Value) :
    followSteps shown value (front ++ [last.pinned index]) =
      (followSegments value ((front ++ [last]).map Step.segment)).bind fun found =>
        found.item? (shown.shiftedIndex last.key index) := by
  have here := bare last (by simp)
  have bareFront : ∀ step ∈ front, step.segment.index = none :=
    fun step member => bare step (List.mem_append_left _ member)
  rw [followSteps_append, followSteps_of_bare bareFront, List.map_append, followSegments_append]
  cases followSegments value (front.map Step.segment) with
  | none => rfl
  | some reached =>
    simp only [Option.bind_some, List.map_cons, List.map_nil, followSteps, followSegments,
      from?_of_bare here, Step.from?, Step.pinned]
    cases reached.member? last.segment.name <;> simp

theorem takeStep_toOption (path behind : String) (step : Step) (value : Value) :
    (takeStep shown path behind step value).toOption = step.from? shown value := by
  unfold takeStep Step.from?
  split
  · cases step.segment.index <;> rfl
  · split
    · rename_i absent
      simp only [absent]
      cases step.segment.index <;> rfl
    · rename_i found present
      simp only [present]
      cases step.segment.index with
      | none => rfl
      | some index =>
        dsimp only [Option.bind_some]
        cases found.item? (shown.shiftedIndex step.key index) <;> rfl

theorem takeSteps_toOption {steps : List Step}
    (plain : ∀ step ∈ steps, step.join ≠ some .context) (path : String) (before : Step)
    (value : Value) :
    (takeSteps shown path before steps value).toOption = followSteps shown value steps := by
  induction steps generalizing before value with
  | nil => rfl
  | cons step rest ih =>
    have further := ih fun other member => plain other (List.mem_cons_of_mem _ member)
    rw [takeSteps, if_neg (plain step List.mem_cons_self)]
    change (takeStep shown path before.key step value >>= _).toOption = _
    simp only [toOption_bind, takeStep_toOption, further, followSteps]

/-- The first step of the part of a path that is left goes on without crossing into a context. -/
theorem continueFrom_toOption {path : Path} {depth : Nat} {step : Step} {rest : List Step}
    (left : (path.chunks.drop depth).flatten = step :: rest)
    (plain : ∀ step ∈ rest, step.join ≠ some .context) (element : Value) :
    (path.continueFrom shown depth element).toOption = followSteps shown element (step :: rest) := by
  unfold Path.continueFrom
  rw [left]
  dsimp only
  rw [toOption_bind, takeStep_toOption]
  simp only [takeSteps_toOption plain, followSteps]

/-- A path without `>` has one part. -/
theorem chunks_of_plain {path : Path} (plain : ∀ entry ∈ path.rest, entry.1 = .member) :
    path.chunks = [path.steps] :=
  Path.chunkSteps_of_plain (Path.join_of_mem_stepsFrom plain)

/-- A path without `>` is read from the root, whatever elements a slide stands below. -/
theorem resolvePath_of_plain {path : Path} (plain : ∀ entry ∈ path.rest, entry.1 = .member)
    (root : Value) (cache : ContextCache) :
    (resolvePath root path shown cache).1 = .ok (path.continueFrom shown 0 root) := by
  have depth : sharedDepth path.chunks shown.context = 0 := by
    rw [chunks_of_plain plain]
    rfl
  unfold resolvePath
  rw [depth]
  rfl

/-- A path without `>` is followed from the root, whatever elements a slide stands below. -/
theorem resolvePath_absolute {path : Path} (plain : ∀ entry ∈ path.rest, entry.1 = .member)
    (root : Value) (cache : ContextCache) :
    ∃ outcome, (resolvePath root path shown cache).1 = .ok outcome ∧
      outcome.toOption = followSteps shown root path.steps := by
  refine ⟨path.continueFrom shown 0 root, resolvePath_of_plain plain root cache, ?_⟩
  refine continueFrom_toOption ?_ (Path.join_of_mem_stepsFrom plain) root
  rw [chunks_of_plain plain]
  exact List.append_nil _

/-- What stands in the way of an expression whose path leads to nothing. -/
def Absence.obstacle (absence : Absence) : Obstacle :=
  match absence.reason with
  | .ok reason => .absent reason
  | .error error => .failed (.numeral error)

variable {resolver : Resolver} {path : Path}

theorem valueOf_of_resolved {outcome : Except Absence Value} {cache : ContextCache}
    (resolved : (resolvePath resolver.root path shown cache).1 = .ok outcome) :
    (resolver.valueOf path shown cache).1 = outcome.mapError Absence.obstacle := by
  unfold Resolver.valueOf
  rcases walked : resolvePath resolver.root path shown cache with ⟨reached, after⟩
  rw [walked] at resolved
  subst resolved
  cases outcome with
  | ok value => rfl
  | error absence =>
    simp only [Except.mapError, Absence.obstacle]
    cases absence.reason <;> rfl

theorem valueOf_of_toOption {outcome : Except Absence Value} {cache : ContextCache} {value : Value}
    (resolved : (resolvePath resolver.root path shown cache).1 = .ok outcome)
    (found : outcome.toOption = some value) : (resolver.valueOf path shown cache).1 = .ok value := by
  rw [valueOf_of_resolved resolved]
  cases outcome with
  | error absence => cases found
  | ok other =>
    cases found
    rfl

theorem valueOf_of_toOption_none {outcome : Except Absence Value} {cache : ContextCache}
    (resolved : (resolvePath resolver.root path shown cache).1 = .ok outcome)
    (absent : outcome.toOption = none) :
    ∃ obstacle, (resolver.valueOf path shown cache).1 = .error obstacle := by
  rw [valueOf_of_resolved resolved]
  cases outcome with
  | error absence => exact ⟨absence.obstacle, rfl⟩
  | ok other => cases absent

theorem expandExpression_ofPath (text : String) (path : Path) :
    AliasTable.empty.expandExpression (.ofPath text path) = .ofPath text path := rfl

theorem resolve_ofPath_found (bare : resolver.aliases = .empty) (text : String)
    {state : ResolverState} {outcome : Except Absence Value} {found : String}
    (resolved : (resolvePath resolver.root path shown state.cache).1 = .ok outcome)
    (reached : outcome.toOption = some (.text found)) :
    (resolver.resolve (.ofPath text path) shown state).1 = .value found := by
  have value := valueOf_of_toOption resolved reached
  unfold Resolver.resolve Resolver.resolveExpanded
  rw [bare, expandExpression_ofPath]
  simp only [Expression.ofPath, value]
  rfl

theorem resolve_ofPath_absent (bare : resolver.aliases = .empty) (text : String)
    {state : ResolverState} {outcome : Except Absence Value}
    (resolved : (resolvePath resolver.root path shown state.cache).1 = .ok outcome)
    (absent : outcome.toOption = none) :
    ∃ reason, (resolver.resolve (.ofPath text path) shown state).1 = .hidden reason := by
  obtain ⟨obstacle, none⟩ := valueOf_of_toOption_none resolved absent
  unfold Resolver.resolve Resolver.resolveExpanded
  rw [bare, expandExpression_ofPath]
  simp only [Expression.ofPath, none]
  cases obstacle with
  | absent reason => exact ⟨reason, rfl⟩
  | failed error => exact ⟨_, rfl⟩

/-- On a slide of the result, a path leads to a text or to nothing, whatever cache is at hand that
has a property. -/
def Path.Shows (root : Value) (shown : Instance) (property : ContextCache → Prop) (path : Path)
    (value : Option String) : Prop :=
  ∀ cache, property cache → ∃ outcome,
    (resolvePath root path shown cache).1 = .ok outcome ∧ outcome.toOption = value.map .text

/-- An outcome is a text, or there is none and the outcome hides the shape. -/
inductive Resolution.Gives : Resolution → Option String → Prop where
  | value (text : String) : Gives (.value text) (some text)
  | hidden (reason : String) : Gives (.hidden reason) none

theorem Resolution.Gives.same {resolution : Resolution} {value : Option String}
    (gives : resolution.Gives value) : resolution.SameButNumber resolution := by
  cases gives with
  | value text => exact .value text
  | hidden reason => exact .hidden reason

theorem Resolution.Gives.congr {left right : Resolution} {value : Option String}
    (gives : right.Gives value) (same : left.SameButNumber right) : left.Gives value := by
  cases gives with
  | value text =>
    cases same
    exact .value text
  | hidden reason =>
    cases same
    exact .hidden reason

theorem resolve_gives {property : ContextCache → Prop} (bare : resolver.aliases = .empty) {value : Option String}
    (shows : path.Shows resolver.root shown property value) {state : ResolverState}
    (holds : property state.cache) (text : String) :
    (resolver.resolve (.ofPath text path) shown state).1.Gives value := by
  obtain ⟨outcome, resolved, reached⟩ := shows state.cache holds
  cases value with
  | some found =>
    rw [resolve_ofPath_found bare text resolved reached]
    exact .value found
  | none =>
    obtain ⟨reason, hidden⟩ := resolve_ofPath_absent bare text resolved reached
    rw [hidden]
    exact .hidden reason

end DeckBinding
