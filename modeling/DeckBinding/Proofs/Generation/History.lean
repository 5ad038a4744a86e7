import DeckBinding.Proofs.Generation.CallFree
import DeckBinding.Proofs.Resolution.Trusted

set_option autoImplicit false

/-! What a resolver was asked for before makes no difference. It keeps the elements that contexts led to, a
count of calls and the problems met; every operation comes to what it comes to at the start, but for the
numbers of calls. -/

namespace DeckBinding

open DeckBinding.Number

/-- What a resolver is asked for: a text, an expression or a path for a slide of the result, a whole
slide of the result, or to forget the elements it found. -/
inductive Operation where
  | ofText (text : List Char) (shown : Instance)
  | ofExpression (expression : Expression) (shown : Instance)
  | ofPath (path : Path) (shown : Instance)
  | ofSlide (source : TemplateSlide) (shown : Instance)
  | clear

inductive Answer where
  | text (found : Except NumeralError TextResolution)
  | expression (found : Resolution)
  | path (found : Except NumeralError (Except Absence Value))
  | slide (found : Except NumeralError SlideOutput)
  | cleared

namespace Operation

/-- An operation whose paths hold no `>` in their names, as those that are read from texts do
not. -/
def Separable : Operation → Prop
  | .ofExpression expression _ => expression.Separable
  | .ofPath path _ => path.Separable
  | _ => True

def run (resolver : Resolver) : Operation → ResolverState → Answer × ResolverState
  | .ofText text shown, state =>
    let (found, state) := resolver.resolveText text shown state
    (.text found, state)
  | .ofExpression expression shown, state =>
    let (found, state) := resolver.resolve expression shown state
    (.expression found, state)
  | .ofPath path shown, state =>
    let (found, cache) := resolvePath resolver.root path shown state.cache
    (.path found, { state with cache })
  | .ofSlide source shown, state =>
    let (found, state) := bindSlide resolver source shown state
    (.slide found, state)
  | .clear, state => (.cleared, state.clear)

def runAll (resolver : Resolver) : List Operation → ResolverState → List Answer × ResolverState
  | [], state => ([], state)
  | operation :: rest, state =>
    let (answer, state) := operation.run resolver state
    let (answers, state) := runAll resolver rest state
    (answer :: answers, state)

/-- Two answers to an operation that differ at most in the numbers of calls. Those for a slide are
the same when the slide has no calls. -/
inductive SameAnswer (resolver : Resolver) : Operation → Answer → Answer → Prop where
  | text {text : List Char} {shown : Instance} {left right : Except NumeralError TextResolution}
      (outcome : SameOutcome TextResolution.SameButNumbers left right) :
      SameAnswer resolver (.ofText text shown) (.text left) (.text right)
  | expression {expression : Expression} {shown : Instance} {left right : Resolution}
      (same : left.SameButNumber right) :
      SameAnswer resolver (.ofExpression expression shown) (.expression left) (.expression right)
  | path {path : Path} {shown : Instance} {left right : Except NumeralError (Except Absence Value)}
      (same : left = right) : SameAnswer resolver (.ofPath path shown) (.path left) (.path right)
  | slide {source : TemplateSlide} {shown : Instance} {left right : Except NumeralError SlideOutput}
      (outcome : SameOutcome (SameIf (source.CallFree resolver)) left right) :
      SameAnswer resolver (.ofSlide source shown) (.slide left) (.slide right)
  | clear : SameAnswer resolver .clear .cleared .cleared

variable {resolver : Resolver}

/-- From states whose caches can be trusted an operation gets the same answer, and leaves such
states. -/
theorem run_together (aliases : resolver.aliases.Separable) {operation : Operation}
    (separable : operation.Separable) {before other : List Diagnostic} {left right : ResolverState}
    (states : Alongside (BothTrusted resolver.root) before other left right) :
    operation.SameAnswer resolver (operation.run resolver left).1 (operation.run resolver right).1 ∧
      Alongside (BothTrusted resolver.root) before other (operation.run resolver left).2
        (operation.run resolver right).2 := by
  have reads := reads_separable aliases
  cases operation with
  | ofText text shown =>
    have together := resolveText_together (inStep_trusted resolver.root shown) reads text _ _ states
    exact ⟨.text together.1, together.2⟩
  | ofExpression expression shown =>
    have paths := aliases.expandExpression separable
    have together := resolve_together (inStep_trusted resolver.root shown) paths states
    exact ⟨.expression together.1, together.2⟩
  | ofPath path shown =>
    have together := inStep_trusted resolver.root shown path separable _ _ states.cache
    exact ⟨.path together.1.eq, together.2, states.recorded⟩
  | ofSlide source shown =>
    have together := bindSlide_sameIf (inStep_trusted resolver.root shown) reads source _ _ states
    exact ⟨.slide together.1, together.2⟩
  | clear => exact ⟨.clear, ⟨trusted_nil _, trusted_nil _⟩, states.recorded⟩

theorem runAll_trusted (aliases : resolver.aliases.Separable) {operations : List Operation}
    (separable : ∀ operation ∈ operations, operation.Separable) {state : ResolverState}
    (trusted : Trusted resolver.root state.cache) :
    List.Forall₂ (fun operation answer =>
        operation.SameAnswer resolver answer (operation.run resolver .start).1)
      operations (runAll resolver operations state).1 ∧
    (runAll resolver operations state).2.diagnostics = state.diagnostics ++
      operations.flatMap fun operation => (operation.run resolver .start).2.diagnostics := by
  induction operations generalizing state with
  | nil => exact ⟨.nil, (List.append_nil _).symm⟩
  | cons operation rest ih =>
    have states : Alongside (BothTrusted resolver.root) state.diagnostics [] state .start :=
      @Alongside.start (BothTrusted resolver.root) state .start ⟨trusted, trusted_nil _⟩
    obtain ⟨same, after⟩ := run_together aliases (separable operation List.mem_cons_self) states
    obtain ⟨answers, recorded⟩ :=
      ih (fun other member => separable other (List.mem_cons_of_mem _ member)) after.cache.1
    obtain ⟨noted, here, fresh⟩ := after.recorded
    refine ⟨.cons same answers, ?_⟩
    rw [List.nil_append] at fresh
    rw [List.flatMap_cons, fresh, ← List.append_assoc, ← here]
    exact recorded

/-- Every operation gets the answer that it gets from a new resolver, and the same problems are
recorded. Tables that are made of mappings or of directives are separable, and so are paths that are
read from texts. -/
theorem runAll_fresh (aliases : resolver.aliases.Separable) {operations : List Operation}
    (separable : ∀ operation ∈ operations, operation.Separable) :
    List.Forall₂ (fun operation answer =>
        operation.SameAnswer resolver answer (operation.run resolver .start).1)
      operations (runAll resolver operations .start).1 ∧
    (runAll resolver operations .start).2.diagnostics =
      operations.flatMap fun operation => (operation.run resolver .start).2.diagnostics :=
  runAll_trusted aliases separable (trusted_nil _)

def teams : Resolver :=
  .ofData (.map [(.text "Teams", .list [.map [(.text "Name", .text "red")],
    .map [(.text "Name", .text "blue")]])]) .empty true

def elementPage (collection : String) (index : Int) : Instance :=
  ⟨1, 0, [⟨collection, index⟩], 0, none, false, none⟩

/-- Names of teams are read with a call and without one. The third page has a context whose text is
that of a longer one. -/
def teamVisits : List Operation :=
  [.ofText "${Teams>Name}".toList (elementPage "Teams" 0),
    .ofText "${Photo(Teams>Name)}".toList (elementPage "Teams" 1),
    .ofText "${Teams>Name}".toList (elementPage "Teams[0]>Teams" 1), .clear,
    .ofPath ⟨⟨"Teams", none⟩, [(.context, ⟨"Name", none⟩)]⟩ (elementPage "Teams" 1),
    .ofSlide (.ofTexts 1 ["${Teams>Name}".toList] []) (elementPage "Teams" 1)]

theorem runAll_fresh_teams :
    teams.aliases.Separable ∧ (∀ operation ∈ teamVisits, operation.Separable) ∧
      TemplateSlide.CallFree (.ofTexts 1 ["${Teams>Name}".toList] []) teams ∧
      List.Forall₂ (fun operation answer =>
          operation.SameAnswer teams answer (operation.run teams .start).1)
        teamVisits (runAll teams teamVisits .start).1 := by
  have aliases : teams.aliases.Separable := AliasTable.separable_empty
  have separable : ∀ operation ∈ teamVisits, operation.Separable := by
    simp [teamVisits, Separable, Path.Separable, Path.segments]
  exact ⟨aliases, separable, by decide +kernel, (runAll_fresh aliases separable).1⟩

end Operation

section Plans

variable {resolver : Resolver}

theorem bindInstances_apart (aliases : resolver.aliases.Separable)
    {slides : List (Int × TemplateSlide)}
    (free : ∀ id source, Keyed.get? id slides = some source → source.CallFree resolver)
    (instances : List Instance) {state : ResolverState} (trusted : Trusted resolver.root state.cache) :
    (bindInstances resolver slides instances state).1 =
      (instances.filterMap fun shown => (Keyed.get? shown.slide slides).map (·, shown)).mapM
        fun made => (bindSlide resolver made.1 made.2 .start).1 := by
  induction instances generalizing state with
  | nil => rfl
  | cons shown rest ih =>
    rw [bindInstances]
    cases found : Keyed.get? shown.slide slides with
    | none =>
      rw [List.filterMap_cons_none (by rw [found]; rfl)]
      exact ih trusted
    | some source =>
      have states := @Alongside.start (BothTrusted resolver.root) state .start ⟨trusted, trusted_nil _⟩
      obtain ⟨outcome, after⟩ := bindSlide_sameIf (inStep_trusted resolver.root shown)
        (reads_separable aliases) source state .start states
      have same := outcome.eq_of_sameIf (free shown.slide source found)
      rw [List.filterMap_cons_some (by rw [found]; rfl), List.mapM_cons, ← same, ← ih after.cache.1]
      dsimp only
      rcases bindSlide resolver source shown state with ⟨_ | output, middle⟩
      · rfl
      · dsimp only
        cases (bindInstances resolver slides rest middle).1 <;> rfl

/-- The table of a plan is separable. -/
theorem separable_ofTemplates {templates : List SlideTemplate} {data : Value} {planning : Planning}
    (planned : SlidePlan.ofTemplates templates data = .ok planning) :
    planning.plan.aliases.Separable := by
  unfold SlidePlan.ofTemplates at planned
  obtain ⟨built, made, further⟩ := exists_of_bind_eq_ok planned
  split at further
  · obtain ⟨_, _, last⟩ := exists_of_bind_eq_ok further
    cases last
    exact AliasTable.separable_ofDirectives made
  · obtain ⟨_, _, last⟩ := exists_of_bind_eq_ok further
    cases last
    exact AliasTable.separable_ofDirectives made

/-- Without calls every slide of a plan is what it is when it is made alone. -/
theorem bind_apart {templates : List SlideTemplate} {data : Value} {planning : Planning}
    (planned : SlidePlan.ofTemplates templates data = .ok planning) {slides : List TemplateSlide}
    (same : resolver.aliases = planning.plan.aliases) (free : ∀ slide ∈ slides, slide.CallFree resolver) :
    (planning.plan.bind slides resolver).map (·.1) =
      (planning.plan.instances.filterMap fun shown =>
        (Keyed.get? shown.slide (Keyed.ofList (slides.map fun slide => (slide.id, slide)))).map
          (·, shown)).mapM fun made => (bindSlide resolver made.1 made.2 .start).1 := by
  have aliases : resolver.aliases.Separable := same ▸ separable_ofTemplates planned
  have listed : ∀ id source,
      Keyed.get? id (Keyed.ofList (slides.map fun slide => (slide.id, slide))) = some source →
        source.CallFree resolver := by
    intro id source found
    obtain ⟨slide, member, entry⟩ := List.mem_map.1 (Keyed.mem_of_get?_ofList found)
    cases entry
    exact free _ member
  have apart := @bindInstances_apart resolver aliases _ listed planning.plan.instances .start
    (trusted_nil _)
  rw [← apart]
  unfold SlidePlan.bind
  dsimp only
  split
  · rename_i error state bound
    rw [bound]
    rfl
  · rename_i outputs state bound
    rw [bound]
    rfl

end Plans

end DeckBinding
