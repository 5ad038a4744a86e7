import DeckBinding.Proofs.Expression.Readable
import DeckBinding.Proofs.Resolution.Texts

set_option autoImplicit false

namespace DeckBinding

open DeckBinding.Number

variable {resolver : Resolver} {shown : Instance}

def Diagnostic.isParse (diagnostic : Diagnostic) : Bool :=
  diagnostic.kind = .parse

/-- What a run adds to the problems of a state, and the ones of them that are about parsing. -/
def Noted (before after : ResolverState) (parse : List Diagnostic) : Prop :=
  ∃ noted, after.diagnostics = before.diagnostics ++ noted ∧ noted.filter Diagnostic.isParse = parse

theorem Noted.refl (state : ResolverState) : Noted state state [] :=
  ⟨[], (List.append_nil _).symm, rfl⟩

theorem Noted.trans {first second third : ResolverState} {front back : List Diagnostic}
    (earlier : Noted first second front) (later : Noted second third back) :
    Noted first third (front ++ back) := by
  obtain ⟨noted, before, rfl⟩ := earlier
  obtain ⟨more, behind, rfl⟩ := later
  exact ⟨noted ++ more, by rw [behind, before, List.append_assoc], List.filter_append _ _⟩

/-- Resolving an expression notes failed resolutions only. -/
theorem noted_resolve (expression : Expression) (state : ResolverState) :
    Noted state (resolver.resolve expression shown state).2 [] := by
  have stopped (expression : Expression) (obstacle : Obstacle) (middle : ResolverState)
      (same : middle.diagnostics = state.diagnostics) :
      Noted state (Resolver.obstructed expression shown obstacle middle).2 [] := by
    cases obstacle with
    | absent reason => exact ⟨[], by rw [List.append_nil]; exact same, rfl⟩
    | failed error =>
      exact ⟨[⟨.unresolved expression.text error, some shown.slide⟩], by rw [← same]; rfl, rfl⟩
  have quiet (middle : ResolverState) (same : middle.diagnostics = state.diagnostics) :
      Noted state middle [] :=
    ⟨[], by rw [List.append_nil]; exact same, rfl⟩
  unfold Resolver.resolve Resolver.resolveExpanded
  cases (resolver.aliases.expandExpression expression).source with
  | path path =>
    dsimp only
    rcases resolver.valueOf path shown state.cache with ⟨obstacle | value, cache⟩
    · exact stopped _ _ _ rfl
    · dsimp only
      split
      · exact quiet _ rfl
      · exact stopped _ _ _ rfl
  | call call =>
    dsimp only
    rcases resolver.argumentValues shown call.arguments state.cache with ⟨obstacle | values, cache⟩
    · exact stopped _ _ _ rfl
    · exact quiet _ rfl

/-- The problems that are noted on a slide for expressions that stay literal. -/
def literalNotes (slide : Option Int) (found : List Reading) : List Diagnostic :=
  (found.filterMap Reading.problem?).map fun problem => ⟨problem, slide⟩

theorem literalNotes_cons (slide : Option Int) (reading : Reading) (found : List Reading) :
    literalNotes slide (reading :: found) =
      literalNotes slide [reading] ++ literalNotes slide found := by
  unfold literalNotes
  rw [← List.map_append, ← List.filterMap_append, List.singleton_append]

/-- Filling pieces notes each expression that stays literal, in order. -/
theorem noted_fill {state after : ResolverState} {ps : List Piece} {found : List Reading}
    {fillings : List Filling}
    (read : List.Forall₂ (fun body reading => Reading.ofBody body = .ok reading) (bodies ps) found)
    (filled : resolver.fill shown ps state = (.ok fillings, after)) :
    Noted state after (literalNotes shown.slide found) := by
  induction ps generalizing state found fillings with
  | nil =>
    cases read
    cases filled
    exact .refl _
  | cons piece rest ih =>
    cases piece with
    | plain c =>
      rw [Resolver.fill] at filled
      rcases further : resolver.fill shown rest state with ⟨_ | more, last⟩
      · rw [further] at filled
        cases filled
      · rw [further] at filled
        cases filled
        exact ih read further
    | bound body =>
      change List.Forall₂ _ (body :: bodies rest) found at read
      cases read with
      | @cons _ reading _ others here behind =>
        rw [literalNotes_cons]
        cases reading with
        | literal text error =>
          simp only [Resolver.fill, here] at filled
          rcases further : resolver.fill shown rest
            (state.record (.literalExpression text error) shown.slide) with ⟨_ | more, last⟩
          · rw [further] at filled
            cases filled
          · rw [further] at filled
            cases filled
            have recorded : Noted state (state.record (.literalExpression text error) shown.slide)
                (literalNotes shown.slide [.literal text error]) := ⟨_, rfl, rfl⟩
            exact recorded.trans (ih behind further)
        | parsed expression =>
          simp only [Resolver.fill, here] at filled
          rcases further : resolver.fill shown rest
            (resolver.resolve expression shown state).2 with ⟨_ | more, last⟩
          · rw [further] at filled
            cases filled
          · rw [further] at filled
            cases filled
            exact (noted_resolve expression state).trans (ih behind further)

theorem Reading.StandsFor.ofBody {body : List Char} {reading : Reading}
    (stands : reading.StandsFor body) : Reading.ofBody body = .ok reading := by
  unfold Reading.ofBody
  cases stands with
  | parsed read => rw [read]
  | literal refused => rw [refused]

variable {bound : Nat} {text : List Char}

theorem IndicesBelow.of_mem_piecesOf (below : IndicesBelow bound text) {body : List Char}
    (member : .bound body ∈ resolver.piecesOf text) : IndicesBelow bound body := by
  unfold Resolver.piecesOf at member
  split at member
  · exact below.withPlainQuotes.of_infix (infix_of_mem_pieces member)
  · exact below.of_infix (infix_of_mem_pieces member)

theorem exists_stands (below : IndicesBelow bound text) (start : ResolverState) :
    ∃ fillings, List.Forall₂ (Stands resolver shown start) (resolver.piecesOf text) fillings := by
  refine exists_stands_iff.2 ?_
  intro piece member
  cases piece with
  | plain c => exact ⟨_, .plain c⟩
  | bound body =>
    obtain ⟨reading, read, stands, _⟩ := exists_reading (below.of_mem_piecesOf member)
    cases stands with
    | parsed => exact ⟨_, .value read (resolve_agrees _ (.refl _)).same⟩
    | literal => exact ⟨_, .literal read⟩

/-- Resolving a text whose indices have numerals ends. Each complete expression is replaced, or
stays as it is and is noted. -/
theorem resolveText_of_indicesBelow (below : IndicesBelow bound text) (state : ResolverState) :
    ∃ fillings after found, resolver.resolveText text shown state = (.ok (.ofFillings fillings), after) ∧
      List.Forall₂ (Stands resolver shown state) (resolver.piecesOf text) fillings ∧
      List.Forall₂ Reading.StandsFor (bodies (resolver.piecesOf text)) found ∧
      Noted state after (literalNotes shown.slide found) := by
  obtain ⟨others, possible⟩ := @exists_stands resolver shown _ _ below state
  obtain ⟨fillings, after, filled⟩ := exists_fill possible state
  have stands := (fill_fills (.refl _) filled).stands
  obtain ⟨found, _, read⟩ := exists_mapM fun body member =>
    exists_reading (below.of_mem_piecesOf (mem_bodies.1 member))
  have readings := read.imp fun _ _ spec => spec.1
  refine ⟨fillings, after, found, ?_, stands, readings, ?_⟩
  · unfold Resolver.resolveText
    unfold Resolver.piecesOf at filled
    simp only [filled]
    rfl
  · exact noted_fill (readings.imp fun _ _ stands => stands.ofBody) filled

end DeckBinding
