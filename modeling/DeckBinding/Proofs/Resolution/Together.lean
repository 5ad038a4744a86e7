import DeckBinding.Paragraph.Reconciliation
import DeckBinding.Proofs.Resolution.Filling

set_option autoImplicit false

namespace DeckBinding

open DeckBinding.Number

section Runs

variable {σ ε α β : Type}

/-- The outcomes of two runs: the same error, or results that are alike. -/
inductive SameOutcome (same : α → α → Prop) : Except ε α → Except ε α → Prop where
  | error (error : ε) : SameOutcome same (.error error) (.error error)
  | ok {left right : α} (results : same left right) : SameOutcome same (.ok left) (.ok right)

/-- From related states a run comes to the same and leaves related states. -/
def Together (related : σ → σ → Prop) (same : α → α → Prop) (run : σ → Except ε α × σ) : Prop :=
  ∀ left right, related left right →
    SameOutcome same (run left).1 (run right).1 ∧ related (run left).2 (run right).2

/-- A run in front of others that gives the first item of a list, up to an error. -/
def collect (run : σ → Except ε α × σ) (others : σ → Except ε (List α) × σ) (state : σ) :
    Except ε (List α) × σ :=
  match run state with
  | (.error error, state) => (.error error, state)
  | (.ok item, state) => ((others state).1.map (item :: ·), (others state).2)

variable {related : σ → σ → Prop} {same : α → α → Prop} {alike : β → β → Prop}

theorem SameOutcome.map {left right : Except ε α} (outcome : SameOutcome same left right)
    {view other : α → β} (kept : ∀ left right, same left right → alike (view left) (other right)) :
    SameOutcome alike (left.map view) (right.map other) := by
  cases outcome with
  | error error => exact .error error
  | ok results => exact .ok (kept _ _ results)

theorem SameOutcome.eq {left right : Except ε α} (outcome : SameOutcome Eq left right) : left = right := by
  cases outcome with
  | error error => rfl
  | ok results => rw [results]

theorem SameOutcome.of_eq {left right : Except ε α} (equal : left = right)
    (refl : ∀ result, same result result) : SameOutcome same left right := by
  subst equal
  cases left with
  | error error => exact .error error
  | ok result => exact .ok (refl result)

theorem together_ok {item : α} (refl : same item item) :
    Together (ε := ε) related same fun state => (.ok item, state) :=
  fun _ _ states => ⟨.ok refl, states⟩

theorem Together.map {run : σ → Except ε α × σ} (first : Together related same run) {view : α → β}
    (kept : ∀ left right, same left right → alike (view left) (view right)) :
    Together related alike fun state => ((run state).1.map view, (run state).2) := by
  intro left right states
  obtain ⟨outcome, after⟩ := first left right states
  exact ⟨outcome.map kept, after⟩

/-- What is collected from runs that come to the same is the same, item by item. -/
theorem Together.collect {run : σ → Except ε α × σ} {others : σ → Except ε (List α) × σ}
    (first : Together related same run) (further : Together related (List.Forall₂ same) others) :
    Together related (List.Forall₂ same) (collect run others) := by
  intro left right states
  obtain ⟨outcome, after⟩ := first left right states
  unfold DeckBinding.collect
  rcases ran : run left with ⟨result, middle⟩
  rcases again : run right with ⟨result', middle'⟩
  rw [ran, again] at outcome after
  cases outcome with
  | error error => exact ⟨.error error, after⟩
  | @ok item item' results =>
    obtain ⟨items, last⟩ := further middle middle' after
    exact ⟨items.map fun _ _ rest => List.Forall₂.cons results rest, last⟩

theorem resolveTexts_cons (resolveText : List Char → σ → Except NumeralError TextResolution × σ)
    (text : List Char) (rest : List (List Char)) :
    resolveTexts resolveText (text :: rest) =
      collect (resolveText text) (resolveTexts resolveText rest) := by
  funext state
  rw [resolveTexts, collect]
  rcases resolveText text state with ⟨_ | _, _⟩ <;> rfl

theorem resolveTexts_together {related : σ → σ → Prop}
    {same : TextResolution → TextResolution → Prop}
    {resolveText : List Char → σ → Except NumeralError TextResolution × σ} {texts : List (List Char)}
    (each : ∀ text ∈ texts, Together related same (resolveText text)) :
    Together related (List.Forall₂ same) (resolveTexts resolveText texts) := by
  induction texts with
  | nil => exact together_ok .nil
  | cons text rest ih =>
    have further := ih fun other member => each other (List.mem_cons_of_mem _ member)
    rw [resolveTexts_cons]
    exact (each text List.mem_cons_self).collect further

end Runs

/-- What is kept is looked up for paths of some kind only, and with related caches they lead to the
same. -/
def InStep (root : Value) (shown : Instance) (readable : Path → Prop)
    (related : ContextCache → ContextCache → Prop) : Prop :=
  ∀ path, readable path → Together related Eq (resolvePath root path shown)

section Values

variable {resolver : Resolver} {shown : Instance} {readable : Path → Prop}
  {related : ContextCache → ContextCache → Prop}

theorem valueOf_together (inStep : InStep resolver.root shown readable related) {path : Path}
    (reads : readable path) : Together related Eq (resolver.valueOf path shown) := by
  intro left right caches
  obtain ⟨outcome, after⟩ := inStep path reads left right caches
  unfold Resolver.valueOf
  rcases first : resolvePath resolver.root path shown left with ⟨result, cache⟩
  rcases second : resolvePath resolver.root path shown right with ⟨result', cache'⟩
  rw [first, second] at outcome after
  obtain rfl := outcome.eq
  rcases result with error | absence | value
  · exact ⟨.error _, after⟩
  · dsimp only
    cases absence.reason with
    | error error => exact ⟨.error _, after⟩
    | ok reason => exact ⟨.error _, after⟩
  · exact ⟨.ok rfl, after⟩

theorem argumentValues_path (path : Path) (rest : List Argument) :
    resolver.argumentValues shown (.path path :: rest) =
      collect (resolver.valueOf path shown) (resolver.argumentValues shown rest) := by
  funext cache
  rw [Resolver.argumentValues, collect]
  rcases resolver.valueOf path shown cache with ⟨_ | _, _⟩ <;> rfl

theorem argumentValues_together (inStep : InStep resolver.root shown readable related)
    {arguments : List Argument} (reads : ∀ path ∈ arguments.filterMap Argument.path?, readable path) :
    Together related (List.Forall₂ Eq) (resolver.argumentValues shown arguments) := by
  induction arguments with
  | nil => exact together_ok .nil
  | cons argument rest ih =>
    cases argument with
    | literal text => exact (together_ok rfl).collect (ih reads)
    | path path =>
      have here := valueOf_together inStep (reads path List.mem_cons_self)
      have further := ih fun other member => reads other (List.mem_cons_of_mem _ member)
      rw [argumentValues_path]
      exact here.collect further

end Values

/-- Two states with related caches, in which the same problems were recorded behind some others. -/
structure Alongside (related : ContextCache → ContextCache → Prop) (before other : List Diagnostic)
    (left right : ResolverState) : Prop where
  cache : related left.cache right.cache
  recorded : ∃ noted, left.diagnostics = before ++ noted ∧ right.diagnostics = other ++ noted

/-- The paths in expressions that are read from a text are of some kind, once short names are
expanded. -/
def Resolver.Reads (resolver : Resolver) (readable : Path → Prop) : Prop :=
  ∀ body expression, Reading.ofBody body = .ok (.parsed expression) →
    ∀ path ∈ (resolver.aliases.expandExpression expression).paths, readable path

section Texts

variable {resolver : Resolver} {shown : Instance} {readable : Path → Prop}
  {related : ContextCache → ContextCache → Prop} {before other : List Diagnostic}
  {left right : ResolverState}

theorem Alongside.start (caches : related left.cache right.cache) :
    Alongside related left.diagnostics right.diagnostics left right :=
  ⟨caches, [], (List.append_nil _).symm, (List.append_nil _).symm⟩

theorem Alongside.record (states : Alongside related before other left right) (problem : Problem)
    (slide : Int) :
    Alongside related before other (left.record problem slide) (right.record problem slide) := by
  obtain ⟨noted, first, second⟩ := states.recorded
  refine ⟨states.cache, noted ++ [⟨problem, some slide⟩], ?_, ?_⟩
  · rw [ResolverState.record, first, List.append_assoc]
  · rw [ResolverState.record, second, List.append_assoc]

theorem obstructed_together (expression : Expression) (obstacle : Obstacle)
    (states : Alongside related before other left right) :
    (Resolver.obstructed expression shown obstacle left).1.SameButNumber
        (Resolver.obstructed expression shown obstacle right).1 ∧
      Alongside related before other (Resolver.obstructed expression shown obstacle left).2
        (Resolver.obstructed expression shown obstacle right).2 := by
  cases obstacle with
  | absent reason => exact ⟨.hidden reason, states⟩
  | failed error => exact ⟨.hidden _, states.record _ _⟩

theorem resolve_together (inStep : InStep resolver.root shown readable related) {expression : Expression}
    (reads : ∀ path ∈ (resolver.aliases.expandExpression expression).paths, readable path)
    (states : Alongside related before other left right) :
    (resolver.resolve expression shown left).1.SameButNumber
        (resolver.resolve expression shown right).1 ∧
      Alongside related before other (resolver.resolve expression shown left).2
        (resolver.resolve expression shown right).2 := by
  unfold Resolver.resolve Resolver.resolveExpanded
  unfold Expression.paths at reads
  generalize resolver.aliases.expandExpression expression = expression at reads ⊢
  cases source : expression.source with
  | path path =>
    rw [source] at reads
    obtain ⟨outcome, after⟩ :=
      valueOf_together inStep (reads path List.mem_cons_self) left.cache right.cache states.cache
    dsimp only
    rw [← outcome.eq]
    have kept : Alongside related before other
        { left with cache := (resolver.valueOf path shown left.cache).2 }
        { right with cache := (resolver.valueOf path shown right.cache).2 } :=
      ⟨after, states.recorded⟩
    cases (resolver.valueOf path shown left.cache).1 with
    | error obstacle => exact obstructed_together expression obstacle kept
    | ok value =>
      cases written : value.format expression.format with
      | ok text =>
        simp only [written]
        exact ⟨.value text, kept⟩
      | error error =>
        simp only [written]
        exact obstructed_together expression (.failed error) kept
  | call call =>
    rw [source] at reads
    obtain ⟨outcome, after⟩ :=
      argumentValues_together inStep reads left.cache right.cache states.cache
    rw [List.forall₂_eq_eq_eq] at outcome
    dsimp only
    rw [← outcome.eq]
    have kept : Alongside related before other
        { left with cache := (resolver.argumentValues shown call.arguments left.cache).2 }
        { right with cache := (resolver.argumentValues shown call.arguments right.cache).2 } :=
      ⟨after, states.recorded⟩
    cases (resolver.argumentValues shown call.arguments left.cache).1 with
    | error obstacle => exact obstructed_together expression obstacle kept
    | ok arguments =>
      exact ⟨.call ⟨left.issued, right.issued, rfl, rfl⟩, after, states.recorded⟩

theorem fill_together (inStep : InStep resolver.root shown readable related)
    (reads : resolver.Reads readable) (ps : List Piece) :
    Together (Alongside related before other) (List.Forall₂ Filling.SameButNumber)
      (resolver.fill shown ps) := by
  induction ps with
  | nil => exact together_ok .nil
  | cons piece rest ih =>
    cases piece with
    | plain c => exact (together_ok (.kept [c])).collect ih
    | bound body =>
      cases read : Reading.ofBody body with
      | error error =>
        intro left right states
        simp only [Resolver.fill, read]
        exact ⟨.error error, states⟩
      | ok reading =>
        cases reading with
        | literal text error =>
          intro left right states
          have further := ih _ _ (states.record (.literalExpression text error) shown.slide)
          simp only [Resolver.fill, read]
          refine ⟨further.1.map ?_, further.2⟩
          exact fun _ _ fillings => List.Forall₂.cons (.kept text) fillings
        | parsed expression =>
          intro left right states
          have here := resolve_together inStep (reads body expression read) states
          have further := ih _ _ here.2
          simp only [Resolver.fill, read]
          refine ⟨further.1.map ?_, further.2⟩
          exact fun _ _ fillings => List.Forall₂.cons (.filled here.1) fillings

/-- Two resolved texts that differ at most in the numbers of calls, and in the places that what
stands behind a number moves to. -/
def TextResolution.SameButNumbers (left right : TextResolution) : Prop :=
  ∃ parts others, List.Forall₂ Filling.SameButNumber parts others ∧
    left = .ofFillings parts ∧ right = .ofFillings others

/-- A text comes to the same from both states. -/
theorem resolveText_together (inStep : InStep resolver.root shown readable related)
    (reads : resolver.Reads readable) (text : List Char) :
    Together (Alongside related before other) TextResolution.SameButNumbers
      (resolver.resolveText text shown) := by
  have filled := @fill_together resolver shown readable related before other inStep reads
    (pieces (if resolver.plainsQuotes then withPlainQuotes text else text))
  exact filled.map fun parts others same => ⟨parts, others, same, rfl, rfl⟩

end Texts

end DeckBinding
