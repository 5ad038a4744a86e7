import DeckBinding.Proofs.Resolution.Literal

set_option autoImplicit false

namespace DeckBinding

open DeckBinding.Number

/-- A text in which every part has a literal part behind it, and one stands in front. -/
def weave (lead : List Char) (parts literals : List (List Char)) : List Char :=
  lead ++ (List.zipWith (· ++ ·) parts literals).flatten

/-- The start and end of the parts of such a text, when the first part starts at a position. -/
def wovenSpans (start : Nat) : List (List Char) → List (List Char) → List (Nat × Nat)
  | part :: parts, literal :: literals =>
    (start, start + part.length) :: wovenSpans (start + part.length + literal.length) parts literals
  | _, _ => []

def Expression.ofBraced (part : List Char) : Except (ReadFailure ExpressionError) Expression :=
  Expression.read (part.drop 2).dropLast part

/-- The start and end of every complete expression of a text that can be read. -/
def acceptedSpans (cs : List Char) : List (Nat × Nat) :=
  (expressionSpans cs).filter fun span => (Expression.ofBraced (slice cs span)).isOk

def Resolver.resolveEach (resolver : Resolver) (shown : Instance) :
    List Expression → ResolverState → List Resolution × ResolverState
  | [], state => ([], state)
  | expression :: rest, state =>
    let (resolution, state) := resolver.resolve expression shown state
    let (resolutions, state) := resolver.resolveEach shown rest state
    (resolution :: resolutions, state)

def expressionTexts (expressions : List Expression) : List (List Char) :=
  expressions.map fun expression => expression.text.toList

def resolutionTexts (resolutions : List Resolution) : List (List Char) :=
  resolutions.map fun resolution => resolution.text.toList

/-- A text with its accepted expressions replaced by resolutions. -/
structure Substitutes (cs : List Char) (expressions : List Expression) (resolutions : List Resolution)
    (result : TextResolution) : Prop where
  parsed : List.Forall₂ (fun span expression => Expression.ofBraced (slice cs span) = .ok expression)
    (acceptedSpans cs) expressions
  woven : ∃ lead literals, literals.length = expressions.length ∧
    cs = weave lead (expressionTexts expressions) literals ∧
    acceptedSpans cs = wovenSpans lead.length (expressionTexts expressions) literals ∧
    result.text = weave lead (resolutionTexts resolutions) literals ∧
    result.spans = wovenSpans lead.length (resolutionTexts resolutions) literals
  count : result.spans.length = expressions.length
  ordered : result.spans.Pairwise fun left right => left.2 ≤ right.1
  forward : ∀ span ∈ result.spans, span.1 ≤ span.2
  delimits : result.spans.map (slice result.text) = resolutionTexts resolutions
  hides : result.hidden = true ↔ ∃ reason, .hidden reason ∈ resolutions
  reasons : result.reasons = resolutions.filterMap Resolution.reason?
  deferred : result.deferred = resolutions.filterMap Resolution.deferred?

theorem length_wovenSpans {start : Nat} {parts literals : List (List Char)}
    (same : literals.length = parts.length) : (wovenSpans start parts literals).length = parts.length := by
  induction parts generalizing start literals with
  | nil => rfl
  | cons part parts ih =>
    obtain ⟨literal, literals, rfl⟩ := List.exists_cons_of_length_eq_add_one same
    rw [wovenSpans, List.length_cons, ih (Nat.succ.inj same), List.length_cons]

/-- Parts stand in order behind the start, each behind the one in front of it. -/
theorem pairwise_wovenSpans (start : Nat) (parts literals : List (List Char)) :
    (∀ span ∈ wovenSpans start parts literals, start ≤ span.1 ∧ span.1 ≤ span.2) ∧
      (wovenSpans start parts literals).Pairwise fun left right => left.2 ≤ right.1 := by
  induction parts generalizing start literals with
  | nil => simp [wovenSpans]
  | cons part parts ih =>
    cases literals with
    | nil => simp [wovenSpans]
    | cons literal literals =>
      obtain ⟨inside, apart⟩ := ih (start + part.length + literal.length) literals
      rw [wovenSpans]
      refine ⟨?_, List.pairwise_cons.2 ⟨fun span member => ?_, apart⟩⟩
      · intro span member
        rcases List.mem_cons.1 member with rfl | later
        · dsimp only
          omega
        · have bounds := inside span later
          omega
      · have bounds := inside span member
        dsimp only
        omega

theorem weave_cons (lead part literal : List Char) (parts literals : List (List Char)) :
    weave lead (part :: parts) (literal :: literals) = lead ++ (part ++ weave literal parts literals) := by
  simp [weave]

/-- Each span holds its part. -/
theorem map_slice_wovenSpans (lead : List Char) {parts literals : List (List Char)}
    (same : literals.length = parts.length) :
    (wovenSpans lead.length parts literals).map (slice (weave lead parts literals)) = parts := by
  induction parts generalizing lead literals with
  | nil => rfl
  | cons part parts ih =>
    obtain ⟨literal, literals, rfl⟩ := List.exists_cons_of_length_eq_add_one same
    have behind := ih (lead ++ part ++ literal) (Nat.succ.inj same)
    have whole : weave lead (part :: parts) (literal :: literals) =
        weave (lead ++ part ++ literal) parts literals := by
      simp [weave]
    rw [wovenSpans, List.map_cons, whole]
    rw [List.length_append, List.length_append] at behind
    rw [behind, ← whole, weave_cons, slice_append]

/-- The pieces of a text, the expressions that are read from them, what these are resolved to, and
the fillings of the text. -/
inductive Substituted : List Piece → List Expression → List Resolution → List Filling → Prop
  | nil : Substituted [] [] [] []
  | plain {ps : List Piece} {expressions : List Expression} {resolutions : List Resolution}
      {fillings : List Filling} (c : Char) (rest : Substituted ps expressions resolutions fillings) :
      Substituted (.plain c :: ps) expressions resolutions (.kept [c] :: fillings)
  | literal {ps : List Piece} {expressions : List Expression} {resolutions : List Resolution}
      {fillings : List Filling} {body : List Char} (refused : (Expression.ofBraced (braced body)).isOk = false)
      (rest : Substituted ps expressions resolutions fillings) :
      Substituted (.bound body :: ps) expressions resolutions (.kept (braced body) :: fillings)
  | value {ps : List Piece} {expressions : List Expression} {resolutions : List Resolution}
      {fillings : List Filling} {body : List Char} {expression : Expression} {resolution : Resolution}
      (read : Expression.ofBraced (braced body) = .ok expression)
      (rest : Substituted ps expressions resolutions fillings) :
      Substituted (.bound body :: ps) (expression :: expressions) (resolution :: resolutions)
        (.filled resolution :: fillings)

/-- The accepted expressions among the pieces behind a text. -/
def acceptedFrom (front : List Char) (ps : List Piece) : List (Nat × Nat) :=
  (spansFrom front.length ps).filter fun span => (Expression.ofBraced (slice (front ++ ps.flatMap Piece.text) span)).isOk

theorem acceptedFrom_plain (front : List Char) (c : Char) (ps : List Piece) :
    acceptedFrom front (.plain c :: ps) = acceptedFrom (front ++ [c]) ps := by
  simp [acceptedFrom, spansFrom, Piece.text]

theorem acceptedFrom_bound (front body : List Char) (ps : List Piece) :
    acceptedFrom front (.bound body :: ps) =
      if (Expression.ofBraced (braced body)).isOk then
        (front.length, front.length + (braced body).length) :: acceptedFrom (front ++ braced body) ps
      else acceptedFrom (front ++ braced body) ps := by
  unfold acceptedFrom
  rw [spansFrom, List.flatMap_cons, Piece.text, List.filter_cons, slice_append, List.length_append,
    List.append_assoc]

theorem ofBraced_braced (body : List Char) :
    Expression.ofBraced (braced body) = Expression.read body (braced body) := by
  have inner : ((braced body).drop 2).dropLast = body := by simp [braced]
  rw [Expression.ofBraced, inner]

theorem text_of_ofBraced {part : List Char} {expression : Expression}
    (read : Expression.ofBraced part = .ok expression) : expression.text.toList = part := by
  unfold Expression.ofBraced Expression.read at read
  split at read
  · obtain ⟨call, _, last⟩ := exists_of_bind_eq_ok read
    cases last
    exact String.toList_ofList
  · dsimp only at read
    split at read
    · cases read
    · cases read
      exact String.toList_ofList

theorem hides_iff (resolutions : List Resolution) :
    (!(resolutions.filterMap Resolution.reason?).isEmpty) = true ↔ ∃ reason, .hidden reason ∈ resolutions := by
  rw [Bool.not_eq_true', List.isEmpty_eq_false_iff_exists_mem]
  constructor
  · rintro ⟨reason, member⟩
    obtain ⟨resolution, among, found⟩ := List.mem_filterMap.1 member
    cases resolution with
    | hidden reason => exact ⟨reason, among⟩
    | _ => cases found
  · rintro ⟨reason, member⟩
    exact ⟨reason, List.mem_filterMap.2 ⟨_, member, rfl⟩⟩

namespace Substituted

variable {ps : List Piece} {expressions : List Expression} {resolutions : List Resolution}
  {fillings : List Filling}

theorem resolutions_eq (sub : Substituted ps expressions resolutions fillings) :
    fillings.filterMap Filling.resolution? = resolutions := by
  induction sub with
  | nil => rfl
  | plain _ _ ih => exact ih
  | literal _ _ ih => exact ih
  | value _ _ ih => exact congrArg _ ih

theorem length_eq (sub : Substituted ps expressions resolutions fillings) :
    resolutions.length = expressions.length := by
  induction sub with
  | nil => rfl
  | plain _ _ ih => exact ih
  | literal _ _ ih => exact ih
  | value _ _ ih => exact congrArg _ ih

/-- The accepted expressions of the pieces are the ones that are read. -/
theorem parsed (sub : Substituted ps expressions resolutions fillings) (front : List Char) :
    List.Forall₂ (fun span expression =>
        Expression.ofBraced (slice (front ++ ps.flatMap Piece.text) span) = .ok expression)
      (acceptedFrom front ps) expressions := by
  induction sub generalizing front with
  | nil => exact .nil
  | plain c _ ih =>
    have behind := ih (front ++ [c])
    rw [List.append_assoc] at behind
    rw [acceptedFrom_plain]
    exact behind
  | @literal _ _ _ _ body refused _ ih =>
    have behind := ih (front ++ braced body)
    rw [List.append_assoc] at behind
    rw [acceptedFrom_bound, refused]
    exact behind
  | @value _ _ _ _ body expression resolution read _ ih =>
    have behind := ih (front ++ braced body)
    rw [List.append_assoc] at behind
    rw [acceptedFrom_bound, read]
    refine .cons ?_ behind
    rw [List.flatMap_cons, Piece.text, slice_append, read]

/-- The text and what it is filled with have the same literal parts. -/
theorem exists_literals (sub : Substituted ps expressions resolutions fillings) :
    ∃ lead literals, literals.length = expressions.length ∧
      ps.flatMap Piece.text = weave lead (expressionTexts expressions) literals ∧
      fillingsText fillings = weave lead (resolutionTexts resolutions) literals ∧
      (∀ start, filledSpans start fillings =
        wovenSpans (start + lead.length) (resolutionTexts resolutions) literals) ∧
      ∀ front : List Char, acceptedFrom front ps =
        wovenSpans (front.length + lead.length) (expressionTexts expressions) literals := by
  induction sub with
  | nil => exact ⟨[], [], rfl, rfl, rfl, fun _ => rfl, fun _ => rfl⟩
  | plain c _ ih =>
    obtain ⟨lead, literals, same, source, text, spans, accepted⟩ := ih
    refine ⟨[c] ++ lead, literals, same, ?_, ?_, fun start => ?_, fun front => ?_⟩
    · rw [List.flatMap_cons, source, Piece.text, weave, weave, List.append_assoc]
    · rw [fillingsText_cons, text, Filling.text, weave, weave, List.append_assoc]
    · rw [filledSpans, spans, List.length_append, Nat.add_assoc]
    · rw [acceptedFrom_plain, accepted, List.length_append, List.length_append, Nat.add_assoc]
  | @literal _ _ _ _ body refused _ ih =>
    obtain ⟨lead, literals, same, source, text, spans, accepted⟩ := ih
    refine ⟨braced body ++ lead, literals, same, ?_, ?_, fun start => ?_, fun front => ?_⟩
    · rw [List.flatMap_cons, source, Piece.text, weave, weave, List.append_assoc]
    · rw [fillingsText_cons, text, Filling.text, weave, weave, List.append_assoc]
    · rw [filledSpans, spans, List.length_append, Nat.add_assoc]
    · rw [acceptedFrom_bound, refused, accepted, List.length_append, List.length_append, Nat.add_assoc]
      rfl
  | @value _ _ _ _ body expression resolution read _ ih =>
    have whole := text_of_ofBraced read
    have taken : (Expression.ofBraced (braced body)).isOk = true := by
      rw [read]
      rfl
    obtain ⟨lead, literals, same, source, text, spans, accepted⟩ := ih
    refine ⟨[], lead :: literals, congrArg _ same, ?_, ?_, fun start => ?_, fun front => ?_⟩
    · rw [List.flatMap_cons, source, Piece.text, ← whole]
      exact (weave_cons [] _ lead _ literals).symm
    · rw [fillingsText_cons, text, Filling.text]
      exact (weave_cons [] _ lead _ literals).symm
    · rw [filledSpans, spans]
      rfl
    · rw [acceptedFrom_bound, taken, accepted, List.length_append, ← whole]
      rfl

/-- What a text is filled with replaces the accepted expressions of its pieces. -/
theorem substitutes {cs : List Char} (sub : Substituted (pieces cs) expressions resolutions fillings) :
    Substitutes cs expressions resolutions (.ofFillings fillings) := by
  obtain ⟨lead, literals, same, source, text, spans, accepted⟩ := sub.exists_literals
  have among := sub.resolutions_eq
  have fits : literals.length = (resolutionTexts resolutions).length := by
    rw [same, resolutionTexts, List.length_map, sub.length_eq]
  have placed := spans 0
  have taken := accepted []
  rw [flatMap_text_pieces] at source
  rw [Nat.zero_add] at placed
  rw [acceptedFrom, flatMap_text_pieces, List.length_nil, Nat.zero_add, List.nil_append] at taken
  obtain ⟨inside, apart⟩ := pairwise_wovenSpans lead.length (resolutionTexts resolutions) literals
  constructor
  · have parsed := sub.parsed []
    rwa [acceptedFrom, flatMap_text_pieces, List.length_nil, List.nil_append] at parsed
  · exact ⟨lead, literals, same, source, taken, text, placed⟩
  · rw [TextResolution.ofFillings_spans, placed, length_wovenSpans fits, ← fits, same]
  · rw [TextResolution.ofFillings_spans, placed]
    exact apart
  · rw [TextResolution.ofFillings_spans, placed]
    exact fun span member => (inside span member).2
  · rw [TextResolution.ofFillings_spans, TextResolution.ofFillings_text, placed, text]
    exact map_slice_wovenSpans lead fits
  · rw [TextResolution.hidden, TextResolution.ofFillings_reasons, hideReasons, among]
    exact hides_iff resolutions
  · rw [TextResolution.ofFillings_reasons, hideReasons, among]
  · rw [TextResolution.ofFillings_deferred, deferredCalls, among]

end Substituted

/-- Two states that resolution takes the same way: only the problems met so far may differ. -/
def SameMemory (left right : ResolverState) : Prop :=
  left.cache = right.cache ∧ left.issued = right.issued

variable {resolver : Resolver} {shown : Instance}

theorem resolve_sameMemory (expression : Expression) {left right : ResolverState}
    (same : SameMemory left right) :
    (resolver.resolve expression shown left).1 = (resolver.resolve expression shown right).1 ∧
      SameMemory (resolver.resolve expression shown left).2 (resolver.resolve expression shown right).2 := by
  obtain ⟨cache, issued, diagnostics⟩ := left
  obtain ⟨cache', issued', diagnostics'⟩ := right
  obtain ⟨rfl, rfl⟩ := same
  unfold Resolver.resolve Resolver.resolveExpanded
  generalize resolver.aliases.expandExpression expression = expression
  have stopped (obstacle : Obstacle) (cache : ContextCache) :
      (Resolver.obstructed expression shown obstacle ⟨cache, issued, diagnostics⟩).1 =
          (Resolver.obstructed expression shown obstacle ⟨cache, issued, diagnostics'⟩).1 ∧
        SameMemory (Resolver.obstructed expression shown obstacle ⟨cache, issued, diagnostics⟩).2
          (Resolver.obstructed expression shown obstacle ⟨cache, issued, diagnostics'⟩).2 := by
    cases obstacle with
    | absent reason => exact ⟨rfl, rfl, rfl⟩
    | failed error => exact ⟨rfl, rfl, rfl⟩
  cases expression.source with
  | path path =>
    dsimp only
    rcases resolver.valueOf path shown cache with ⟨obstacle | value, after⟩
    · exact stopped obstacle after
    · dsimp only
      split
      · exact ⟨rfl, rfl, rfl⟩
      · exact stopped _ after
  | call call =>
    dsimp only
    rcases resolver.argumentValues shown call.arguments cache with ⟨obstacle | arguments, after⟩
    · exact stopped obstacle after
    · exact ⟨rfl, rfl, rfl⟩

/-- Filling pieces resolves the expressions that are read from them one after the other. -/
theorem exists_substituted {ps : List Piece} {found : List Reading}
    (read : List.Forall₂ (fun body reading => Reading.ofBody body = .ok reading) (bodies ps) found)
    {state other : ResolverState} (same : SameMemory state other) :
    ∃ fillings after, resolver.fill shown ps state = (.ok fillings, after) ∧
      Substituted ps (found.filterMap Reading.expression?)
        (resolver.resolveEach shown (found.filterMap Reading.expression?) other).1 fillings := by
  induction ps generalizing found state other with
  | nil =>
    cases read
    exact ⟨[], state, rfl, .nil⟩
  | cons piece rest ih =>
    cases piece with
    | plain c =>
      obtain ⟨fillings, after, filled, sub⟩ := ih read same
      refine ⟨_, after, ?_, .plain c sub⟩
      rw [Resolver.fill, filled]
      rfl
    | bound body =>
      change List.Forall₂ _ (body :: bodies rest) found at read
      cases read with
      | @cons _ reading _ others here behind =>
        have taken := ofBraced_braced body
        unfold Reading.ofBody at here
        cases parsed : Expression.read body (braced body) with
        | ok expression =>
          rw [parsed] at here taken
          cases here
          obtain ⟨resolved, later⟩ := @resolve_sameMemory resolver shown expression state other same
          obtain ⟨fillings, after, filled, sub⟩ := ih behind later
          refine ⟨.filled (resolver.resolve expression shown state).1 :: fillings, after, ?_, ?_⟩
          · simp only [Resolver.fill, Reading.ofBody, parsed, filled]
            rfl
          · rw [resolved]
            exact .value taken sub
        | error failure =>
          rw [parsed] at here taken
          cases failure with
          | malformed error =>
            cases here
            obtain ⟨fillings, after, filled, sub⟩ := @ih _ behind
              (state.record (.literalExpression (braced body) error) shown.slide) _ same
            refine ⟨.kept (braced body) :: fillings, after, ?_, .literal (by rw [taken]; rfl) sub⟩
            simp only [Resolver.fill, Reading.ofBody, parsed, filled]
            rfl
          | numeral error => cases here

/-- Resolving a text with plain quotes replaces the complete expressions that are found in it, in
order, by what they are resolved to, keeps every other character, and notes the expressions that are
refused. -/
theorem resolveText_substitutes {text : List Char} {expressions : List Expression}
    {refused : List Diagnostic} (plains : resolver.plainsQuotes = true)
    (read : readExpressions (some shown.slide) text = .ok (expressions, refused)) (state : ResolverState) :
    ∃ result after, resolver.resolveText text shown state = (.ok result, after) ∧
      Substitutes (withPlainQuotes text) expressions (resolver.resolveEach shown expressions state).1 result ∧
      Noted state after refused := by
  unfold readExpressions at read
  obtain ⟨found, readings, last⟩ := exists_of_bind_eq_ok read
  cases last
  have items := mapM_eq_ok_iff.1 readings
  obtain ⟨fillings, after, filled, sub⟩ := @exists_substituted resolver shown _ found items state state ⟨rfl, rfl⟩
  refine ⟨.ofFillings fillings, after, ?_, sub.substitutes, noted_fill items filled⟩
  unfold Resolver.resolveText
  rw [plains]
  simp only [if_true, filled]
  rfl

/-- A value with braces of its own, an expression that cannot be read, and a call. -/
theorem resolveText_substitutes_braces :
    ∃ result after,
      Resolver.resolveText ⟨.map [(.text "A", .text "$\x7bB\x7d")], .empty, true⟩
          ("x".toList ++ braced "A".toList ++ braced "!".toList ++ braced "f(A)".toList)
          ⟨3, 0, [], 0, none, false, none⟩ .start = (.ok result, after) ∧
        result.spans.map (slice result.text) = [braced "B".toList, "[[f#0]]".toList] ∧
        Noted .start after [⟨.literalExpression (braced "!".toList)
          (.path (.malformedSegment "!".toList "!".toList)), some 3⟩] := by
  have read : readExpressions (some 3)
      ("x".toList ++ braced "A".toList ++ braced "!".toList ++ braced "f(A)".toList) =
        .ok ([⟨"$\x7bA\x7d", .path ⟨⟨"A", none⟩, []⟩, none, []⟩,
            ⟨"$\x7bf(A)\x7d", .call ⟨none, "f", [.path ⟨⟨"A", none⟩, []⟩]⟩, none, []⟩],
          [⟨.literalExpression (braced "!".toList) (.path (.malformedSegment "!".toList "!".toList)), some 3⟩]) := by
    decide +kernel
  obtain ⟨result, after, ran, substitutes, noted⟩ := @resolveText_substitutes
    ⟨.map [(.text "A", .text "$\x7bB\x7d")], .empty, true⟩ ⟨3, 0, [], 0, none, false, none⟩ _ _ _ rfl read
    .start
  refine ⟨result, after, ran, substitutes.delimits.trans ?_, noted⟩
  decide +kernel

end DeckBinding
