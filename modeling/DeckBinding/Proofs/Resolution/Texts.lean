import DeckBinding.Proofs.Resolution.Locality

set_option autoImplicit false

namespace DeckBinding

open DeckBinding.Number

def Resolver.piecesOf (resolver : Resolver) (text : List Char) : List Piece :=
  pieces (if resolver.plainsQuotes then withPlainQuotes text else text)

/-- A piece as a resolver takes it. -/
def Resolver.prepare (resolver : Resolver) (piece : Piece) : Piece :=
  if resolver.plainsQuotes then piece.withPlainQuotes else piece

theorem piecesOf_eq_map (resolver : Resolver) (text : List Char) :
    resolver.piecesOf text = (pieces text).map resolver.prepare := by
  have function : resolver.prepare =
      if resolver.plainsQuotes then Piece.withPlainQuotes else id := by
    funext piece
    unfold Resolver.prepare
    split
    · rfl
    · rfl
  unfold Resolver.piecesOf
  rw [function]
  split
  · exact pieces_withPlainQuotes text
  · exact (List.map_id _).symm

variable {resolver : Resolver} {shown : Instance}

theorem piecesOf_of_bare {run : List Char} (bare : expressionSpans run = []) :
    resolver.piecesOf run = run.map .plain := by
  rw [piecesOf_eq_map, pieces_eq_map_plain bare, List.map_map]
  refine List.map_congr_left ?_
  intro c _
  unfold Function.comp Resolver.prepare
  split
  · rfl
  · rfl

theorem stands_plain (start : ResolverState) (run : List Char) :
    List.Forall₂ (Stands resolver shown start) (run.map .plain) (run.map fun c => .kept [c]) := by
  induction run with
  | nil => exact .nil
  | cons c rest ih => exact .cons (.plain c) ih

theorem fillingsText_plain (run : List Char) :
    fillingsText (run.map fun c => .kept [c]) = run := by
  induction run with
  | nil => rfl
  | cons c rest ih =>
    rw [List.map_cons, fillingsText_cons, ih]
    rfl

/-- Characters are filled in one way only. -/
theorem eq_of_stands_plain {start : ResolverState} {run : List Char} {fillings : List Filling}
    (stands : List.Forall₂ (Stands resolver shown start) (run.map .plain) fillings) :
    fillings = run.map fun c => .kept [c] := by
  induction run generalizing fillings with
  | nil =>
    cases stands
    rfl
  | cons c rest ih =>
    cases stands with
    | cons first more =>
      cases first
      rw [ih more]
      rfl

theorem atomic_of_stands {start : ResolverState} {text : List Char} {fillings : List Filling}
    (stands : List.Forall₂ (Stands resolver shown start) (resolver.piecesOf text) fillings) :
    ∀ filling ∈ fillings, filling.Atomic := by
  have fits : ∀ body, .bound body ∈ resolver.piecesOf text → ∀ c ∈ body, isBodyChar c = true :=
    fun body member => isBodyChar_of_mem_pieces member
  generalize resolver.piecesOf text = ps at stands fits
  induction stands with
  | nil => simp
  | cons first _ ih =>
    intro filling member
    rcases List.mem_cons.1 member with rfl | later
    · exact first.atomic fun body same => fits body (same ▸ List.mem_cons_self)
    · exact ih (fun body among => fits body (List.mem_cons_of_mem _ among)) filling later

/-- Two ways of filling the same pieces differ in numbers at most. -/
theorem sameButNumber_of_stands {start : ResolverState} {ps : List Piece}
    {parts others : List Filling}
    (left : List.Forall₂ (Stands resolver shown start) ps parts)
    (right : List.Forall₂ (Stands resolver shown start) ps others) :
    List.Forall₂ Filling.SameButNumber parts others := by
  induction left generalizing others with
  | nil =>
    cases right
    exact .nil
  | cons first _ ih =>
    cases right with
    | cons second more => exact .cons (first.sameButNumber second) (ih more)

/-- Pieces can be filled when each of them can. -/
theorem exists_stands_iff {start : ResolverState} {ps : List Piece} :
    (∃ fillings, List.Forall₂ (Stands resolver shown start) ps fillings) ↔
      ∀ piece ∈ ps, ∃ filling, Stands resolver shown start piece filling := by
  induction ps with
  | nil => simp
  | cons piece rest ih =>
    rw [List.forall_mem_cons, ← ih]
    constructor
    · rintro ⟨fillings, stands⟩
      cases stands with
      | cons first more => exact ⟨⟨_, first⟩, ⟨_, more⟩⟩
    · rintro ⟨⟨filling, first⟩, ⟨fillings, more⟩⟩
      exact ⟨filling :: fillings, .cons first more⟩

section Keeping

variable {property : ContextCache → Prop}

theorem resolveText_keeps (kept : KeptBy resolver.root shown.context property) (text : List Char)
    {state : ResolverState} (holds : property state.cache) :
    property (resolver.resolveText text shown state).2.cache := by
  have reads : resolver.Reads fun _ => True := fun _ _ _ _ _ => trivial
  have together := resolveText_together (inStep_twice kept) reads text state state
    (Alongside.start ⟨rfl, holds⟩)
  exact together.2.cache.2

theorem resolveTexts_keeps (kept : KeptBy resolver.root shown.context property)
    (texts : List (List Char)) {state : ResolverState} (holds : property state.cache) :
    property (resolveTexts (fun text state => resolver.resolveText text shown state) texts
      state).2.cache := by
  have reads : resolver.Reads fun _ => True := fun _ _ _ _ _ => trivial
  have each : ∀ text ∈ texts, Together
      (Alongside (Twice property) state.diagnostics state.diagnostics) TextResolution.SameButNumbers
      (resolver.resolveText text shown) :=
    fun text _ => resolveText_together (inStep_twice kept) reads text
  have together := resolveTexts_together each state state (Alongside.start ⟨rfl, holds⟩)
  exact together.2.cache.2

end Keeping

/-- What each of several texts turns into. -/
abbrev FillTexts (resolver : Resolver) (shown : Instance) (start : ResolverState) :
    List (List Char) → List (List Filling) → Prop :=
  List.Forall₂ fun text fillings =>
    List.Forall₂ (Stands resolver shown start) (resolver.piecesOf text) fillings

/-- Resolving texts one after the other, started from a state alike the one at the start of all. -/
structure TextsFill (resolver : Resolver) (shown : Instance) (start : ResolverState)
    (texts : List (List Char)) (state : ResolverState) (filled : List (List Filling))
    (after : ResolverState) : Prop where
  stands : FillTexts resolver shown start texts filled
  numbered : NumberedFrom state.issued (deferredCalls filled.flatten)
  issued : after.issued = state.issued + (deferredCalls filled.flatten).length

theorem resolveText_fills {start state after : ResolverState} {text : List Char}
    {resolution : TextResolution} (alike : Alike resolver shown state start)
    (resolved : resolver.resolveText text shown state = (.ok resolution, after)) :
    ∃ fillings, resolution = .ofFillings fillings ∧
      Fills resolver shown start (resolver.piecesOf text) state fillings after := by
  unfold Resolver.resolveText at resolved
  rcases filled : resolver.fill shown (resolver.piecesOf text) state with ⟨_ | fillings, last⟩
  · simp only [Resolver.piecesOf] at filled
    simp only [filled] at resolved
    cases resolved
  · have fills := fill_fills alike filled
    simp only [Resolver.piecesOf] at filled
    simp only [filled] at resolved
    cases resolved
    exact ⟨fillings, rfl, fills⟩

theorem exists_resolveText {start : ResolverState} {text : List Char} {others : List Filling}
    (stands : List.Forall₂ (Stands resolver shown start) (resolver.piecesOf text) others)
    (state : ResolverState) :
    ∃ resolution after, resolver.resolveText text shown state = (.ok resolution, after) := by
  obtain ⟨fillings, after, filled⟩ := exists_fill stands state
  unfold Resolver.piecesOf at filled
  refine ⟨.ofFillings fillings, after, ?_⟩
  unfold Resolver.resolveText
  simp only [filled]
  rfl

theorem resolveTexts_fills {start state after : ResolverState} {texts : List (List Char)}
    {resolutions : List TextResolution} (alike : Alike resolver shown state start)
    (resolved : resolveTexts (fun text state => resolver.resolveText text shown state) texts state =
      (.ok resolutions, after)) :
    ∃ filled, resolutions = filled.map .ofFillings ∧
      TextsFill resolver shown start texts state filled after := by
  induction texts generalizing state resolutions with
  | nil =>
    cases resolved
    exact ⟨[], rfl, .nil, trivial, rfl⟩
  | cons text rest ih =>
    rw [resolveTexts] at resolved
    rcases first : resolver.resolveText text shown state with ⟨_ | resolution, middle⟩
    · simp only [first] at resolved
      cases resolved
    · obtain ⟨fillings, rfl, fills⟩ := resolveText_fills alike first
      have alikeAfter := resolveText_keeps (keptBy_sameElements start.cache) text alike
      rw [first] at alikeAfter
      simp only [first] at resolved
      rcases further : resolveTexts (fun text state => resolver.resolveText text shown state)
        rest middle with ⟨_ | more, last⟩
      · simp only [further] at resolved
        cases resolved
      · simp only [further] at resolved
        cases resolved
        obtain ⟨others, rfl, behind⟩ := ih alikeAfter further
        have calls := deferredCalls_append fillings others.flatten
        refine ⟨fillings :: others, rfl, .cons fills.stands behind.stands, ?_, ?_⟩
        · rw [List.flatten_cons, calls]
          exact fills.numbered.append (fills.issued ▸ behind.numbered)
        · rw [List.flatten_cons, calls, List.length_append, behind.issued, fills.issued,
            Nat.add_assoc]

theorem exists_resolveTexts {start : ResolverState} {texts : List (List Char)}
    (readable : ∀ text ∈ texts, ∃ others,
      List.Forall₂ (Stands resolver shown start) (resolver.piecesOf text) others)
    (state : ResolverState) :
    ∃ resolutions after,
      resolveTexts (fun text state => resolver.resolveText text shown state) texts state =
        (.ok resolutions, after) := by
  induction texts generalizing state with
  | nil => exact ⟨[], state, rfl⟩
  | cons text rest ih =>
    obtain ⟨_, stands⟩ := readable text List.mem_cons_self
    obtain ⟨resolution, middle, first⟩ := exists_resolveText stands state
    obtain ⟨resolutions, after, further⟩ :=
      ih (fun other member => readable other (List.mem_cons_of_mem _ member)) middle
    refine ⟨resolution :: resolutions, after, ?_⟩
    simp only [resolveTexts, first, further]
    rfl

end DeckBinding
