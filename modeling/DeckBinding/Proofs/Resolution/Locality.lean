import DeckBinding.Proofs.Resolution.Together

set_option autoImplicit false

namespace DeckBinding

open DeckBinding.Number

section Walks

variable {root : Value} {shown : Instance}

theorem resolvePath_congr (path : Path) {left right : ContextCache}
    (same : SameElements root shown.context left right) :
    (resolvePath root path shown left).1 = (resolvePath root path shown right).1 := by
  have found := same (sharedDepth path.chunks shown.context)
  unfold resolvePath
  dsimp only
  rcases first : contextElement root shown.context (sharedDepth path.chunks shown.context) left
    with ⟨element, _⟩
  rcases second : contextElement root shown.context (sharedDepth path.chunks shown.context) right
    with ⟨element', _⟩
  rw [first, second] at found
  dsimp only at found
  subst found
  rcases element with error | _ | element
  · rfl
  · rfl
  · rfl

theorem resolvePath_keeps {property : ContextCache → Prop}
    (kept : KeptBy root shown.context property) (path : Path) {cache : ContextCache}
    (holds : property cache) : property (resolvePath root path shown cache).2 := by
  have after := kept (sharedDepth path.chunks shown.context) cache holds
  unfold resolvePath
  dsimp only
  rcases walked : contextElement root shown.context (sharedDepth path.chunks shown.context) cache
    with ⟨element, later⟩
  rw [walked] at after
  rcases element with error | _ | element
  · exact after
  · exact after
  · exact after

/-- With caches that lead to the same elements paths stay in step. -/
theorem inStep_sameElements :
    InStep root shown (fun _ => True) (SameElements root shown.context) := by
  intro path _ left right same
  have kept (cache : ContextCache) :
      SameElements root shown.context (resolvePath root path shown cache).2 cache :=
    resolvePath_keeps (keptBy_sameElements cache) path (.refl cache)
  refine ⟨.of_eq (resolvePath_congr path same) fun _ => rfl, ?_⟩
  exact ((kept left).trans same).trans (kept right).symm

/-- One cache in both places, which has a property. -/
def Twice (property : ContextCache → Prop) (left right : ContextCache) : Prop :=
  left = right ∧ property left

theorem inStep_twice {property : ContextCache → Prop} (kept : KeptBy root shown.context property) :
    InStep root shown (fun _ => True) (Twice property) := by
  rintro path _ cache _ ⟨rfl, holds⟩
  exact ⟨.of_eq rfl fun _ => rfl, rfl, resolvePath_keeps kept path holds⟩

end Walks

variable {resolver : Resolver} {shown : Instance}

/-- Two states from which every path leads to the same value on a slide of the result. -/
def Alike (resolver : Resolver) (shown : Instance) (left right : ResolverState) : Prop :=
  SameElements resolver.root shown.context left.cache right.cache

theorem Alike.record {left right : ResolverState} (alike : Alike resolver shown left right)
    (problem : Problem) (slide : Int) : Alike resolver shown (left.record problem slide) right :=
  alike

section Keeping

variable {property : ContextCache → Prop}

theorem resolve_keeps (kept : KeptBy resolver.root shown.context property)
    (expression : Expression) {state : ResolverState} (holds : property state.cache) :
    property (resolver.resolve expression shown state).2.cache := by
  have reads : ∀ path ∈ (resolver.aliases.expandExpression expression).paths, True :=
    fun _ _ => trivial
  have together := resolve_together (inStep_twice kept) reads (Alongside.start ⟨rfl, holds⟩)
  exact together.2.cache.2

end Keeping

/-- What a resolution from a state is, compared with one from another state: the outcomes are the
same but for a number, and a call takes the next number. -/
structure Agrees (state : ResolverState) (outcome other : Resolution × ResolverState) : Prop where
  same : outcome.1.SameButNumber other.1
  numbered : NumberedFrom state.issued outcome.1.deferred?.toList
  issued : outcome.2.issued = state.issued + outcome.1.deferred?.toList.length

theorem obstructed_numbered (expression : Expression) (obstacle : Obstacle)
    {state after : ResolverState} (issued : after.issued = state.issued) :
    NumberedFrom state.issued
        (Resolver.obstructed expression shown obstacle after).1.deferred?.toList ∧
      (Resolver.obstructed expression shown obstacle after).2.issued = state.issued +
        (Resolver.obstructed expression shown obstacle after).1.deferred?.toList.length := by
  cases obstacle with
  | absent reason => exact ⟨trivial, issued⟩
  | failed error => exact ⟨trivial, issued⟩

/-- A call takes the next number. -/
theorem resolve_numbered (expression : Expression) (state : ResolverState) :
    NumberedFrom state.issued (resolver.resolve expression shown state).1.deferred?.toList ∧
      (resolver.resolve expression shown state).2.issued = state.issued +
        (resolver.resolve expression shown state).1.deferred?.toList.length := by
  unfold Resolver.resolve Resolver.resolveExpanded
  generalize resolver.aliases.expandExpression expression = expression
  cases expression.source with
  | path path =>
    dsimp only
    cases (resolver.valueOf path shown state.cache).1 with
    | error obstacle => exact obstructed_numbered expression obstacle rfl
    | ok value =>
      dsimp only
      split
      · exact ⟨trivial, rfl⟩
      · exact obstructed_numbered expression _ rfl
  | call call =>
    dsimp only
    cases (resolver.argumentValues shown call.arguments state.cache).1 with
    | error obstacle => exact obstructed_numbered expression obstacle rfl
    | ok arguments => exact ⟨⟨rfl, trivial⟩, rfl⟩

theorem resolve_agrees (expression : Expression) {left right : ResolverState}
    (alike : Alike resolver shown left right) :
    Agrees left (resolver.resolve expression shown left)
      (resolver.resolve expression shown right) := by
  have reads : ∀ path ∈ (resolver.aliases.expandExpression expression).paths, True :=
    fun _ _ => trivial
  have together := resolve_together inStep_sameElements reads (Alongside.start alike)
  obtain ⟨numbered, issued⟩ := @resolve_numbered resolver shown expression left
  exact ⟨together.1, numbered, issued⟩

theorem resolve_alike (expression : Expression) {left right : ResolverState}
    (alike : Alike resolver shown left right) :
    Alike resolver shown (resolver.resolve expression shown left).2 right :=
  resolve_keeps (keptBy_sameElements right.cache) expression alike

/-- What a piece of a text may turn into: a character or a literal expression stays, and a value is
the one from the state at the start, but for the number of a call. -/
inductive Stands (resolver : Resolver) (shown : Instance) (start : ResolverState) :
    Piece → Filling → Prop where
  | plain (c : Char) : Stands resolver shown start (.plain c) (.kept [c])
  | literal {body : List Char} {error : ExpressionError}
      (read : Reading.ofBody body = .ok (.literal (braced body) error)) :
      Stands resolver shown start (.bound body) (.kept (braced body))
  | value {body : List Char} {expression : Expression} {resolution : Resolution}
      (read : Reading.ofBody body = .ok (.parsed expression))
      (same : resolution.SameButNumber (resolver.resolve expression shown start).1) :
      Stands resolver shown start (.bound body) (.filled resolution)

theorem Stands.sameButNumber {start : ResolverState} {piece : Piece} {left right : Filling}
    (first : Stands resolver shown start piece left)
    (second : Stands resolver shown start piece right) : left.SameButNumber right := by
  cases first with
  | plain c =>
    cases second with
    | plain => exact .kept [c]
  | @literal body error read =>
    cases second with
    | literal => exact .kept (braced body)
    | value read' =>
      rw [read] at read'
      cases read'
  | value read same =>
    cases second with
    | literal read' =>
      rw [read] at read'
      cases read'
    | value read' same' =>
      rw [read] at read'
      cases read'
      exact .filled (same.trans same'.symm)

theorem literal_of_ofBody {body text : List Char} {error : ExpressionError}
    (read : Reading.ofBody body = .ok (.literal text error)) : text = braced body := by
  unfold Reading.ofBody at read
  split at read
  · cases read
  · cases read
    rfl
  · cases read

theorem Stands.atomic {start : ResolverState} {piece : Piece} {filling : Filling}
    (stands : Stands resolver shown start piece filling)
    (fits : ∀ body, piece = .bound body → ∀ c ∈ body, isBodyChar c = true) : filling.Atomic := by
  cases stands with
  | plain c => exact .character c
  | literal read => exact .literal (fits _ rfl)
  | @value body expression resolution read same => exact .value resolution

/-- Filling pieces, started from a state alike the one at the start of all. -/
structure Fills (resolver : Resolver) (shown : Instance) (start : ResolverState) (ps : List Piece)
    (state : ResolverState) (fillings : List Filling) (after : ResolverState) : Prop where
  stands : List.Forall₂ (Stands resolver shown start) ps fillings
  numbered : NumberedFrom state.issued (deferredCalls fillings)
  issued : after.issued = state.issued + (deferredCalls fillings).length

theorem Fills.kept_cons {start state before after : ResolverState} {piece : Piece}
    {rest : List Piece} {text : List Char} {fillings : List Filling}
    (fills : Fills resolver shown start rest before fillings after)
    (stands : Stands resolver shown start piece (.kept text)) (issued : before.issued = state.issued) :
    Fills resolver shown start (piece :: rest) state (.kept text :: fillings) after where
  stands := .cons stands fills.stands
  numbered := issued ▸ fills.numbered
  issued := issued ▸ fills.issued

theorem Fills.filled_cons {start state before after : ResolverState} {piece : Piece}
    {rest : List Piece} {resolution : Resolution} {other : Resolution × ResolverState}
    {fillings : List Filling}
    (fills : Fills resolver shown start rest before fillings after)
    (stands : Stands resolver shown start piece (.filled resolution))
    (agrees : Agrees state (resolution, before) other) :
    Fills resolver shown start (piece :: rest) state (.filled resolution :: fillings) after := by
  have calls : deferredCalls (.filled resolution :: fillings) =
      resolution.deferred?.toList ++ deferredCalls fillings := by
    cases resolution <;> rfl
  have issued := agrees.issued
  dsimp only at issued
  refine ⟨.cons stands fills.stands, ?_, ?_⟩
  · rw [calls]
    exact agrees.numbered.append (issued ▸ fills.numbered)
  · rw [calls, List.length_append, fills.issued, issued, Nat.add_assoc]

theorem fill_fills {start state after : ResolverState} {ps : List Piece} {fillings : List Filling}
    (alike : Alike resolver shown state start)
    (filled : resolver.fill shown ps state = (.ok fillings, after)) :
    Fills resolver shown start ps state fillings after := by
  induction ps generalizing state fillings with
  | nil =>
    cases filled
    exact ⟨.nil, trivial, rfl⟩
  | cons piece rest ih =>
    cases piece with
    | plain c =>
      rw [Resolver.fill] at filled
      rcases further : resolver.fill shown rest state with ⟨_ | more, last⟩
      · rw [further] at filled
        cases filled
      · rw [further] at filled
        cases filled
        exact (ih alike further).kept_cons (.plain c) rfl
    | bound body =>
      rw [Resolver.fill] at filled
      split at filled
      · cases filled
      · rename_i text error read
        obtain rfl := literal_of_ofBody read
        rcases further : resolver.fill shown rest
          (state.record (.literalExpression (braced body) error) shown.slide) with ⟨_ | more, last⟩
        · rw [further] at filled
          cases filled
        · rw [further] at filled
          cases filled
          exact (ih (alike.record _ _) further).kept_cons (.literal read) rfl
      · rename_i expression read
        have agrees := resolve_agrees expression alike
        have alikeAfter := resolve_alike expression alike
        rcases resolved : resolver.resolve expression shown state with ⟨resolution, before⟩
        rw [resolved] at filled agrees alikeAfter
        rcases further : resolver.fill shown rest before with ⟨_ | more, last⟩
        · simp only [further] at filled
          cases filled
        · simp only [further] at filled
          cases filled
          exact (ih alikeAfter further).filled_cons (.value read agrees.same) agrees

/-- Pieces that can be filled once can be filled from every state. -/
theorem exists_fill {start : ResolverState} {ps : List Piece} {others : List Filling}
    (stands : List.Forall₂ (Stands resolver shown start) ps others) (state : ResolverState) :
    ∃ fillings after, resolver.fill shown ps state = (.ok fillings, after) := by
  induction stands generalizing state with
  | nil => exact ⟨[], state, rfl⟩
  | cons first _ ih =>
    cases first with
    | plain c =>
      obtain ⟨fillings, after, further⟩ := ih state
      exact ⟨.kept [c] :: fillings, after, by rw [Resolver.fill, further]; rfl⟩
    | @literal body error read =>
      obtain ⟨fillings, after, further⟩ :=
        ih (state.record (.literalExpression (braced body) error) shown.slide)
      refine ⟨.kept (braced body) :: fillings, after, ?_⟩
      simp only [Resolver.fill, read, further]
      rfl
    | @value body expression resolution read same =>
      obtain ⟨fillings, after, further⟩ := ih (resolver.resolve expression shown state).2
      refine ⟨.filled (resolver.resolve expression shown state).1 :: fillings, after, ?_⟩
      simp only [Resolver.fill, read, further]
      rfl

end DeckBinding
