import DeckBinding.Binding
import DeckBinding.Proofs.Paragraph.Reconciliation
import DeckBinding.Proofs.Resolution.Together

set_option autoImplicit false

namespace DeckBinding

open DeckBinding.Number

def Expression.isCall (expression : Expression) : Bool :=
  match expression.source with
  | .path _ => false
  | .call _ => true

def Piece.isCall : Piece → Bool
  | .plain _ => false
  | .bound body =>
    match Reading.ofBody body with
    | .ok (.parsed expression) => expression.isCall
    | _ => false

def Resolver.CallFree (resolver : Resolver) (text : List Char) : Prop :=
  ∀ piece ∈ resolver.piecesOf text, piece.isCall = false

instance (resolver : Resolver) (text : List Char) : Decidable (resolver.CallFree text) :=
  inferInstanceAs (Decidable (∀ piece ∈ resolver.piecesOf text, piece.isCall = false))

def TemplateSlide.CallFree (source : TemplateSlide) (resolver : Resolver) : Prop :=
  ∀ shape ∈ source.shapes, ∀ runs ∈ shape.paragraphs, resolver.CallFree runs.flatten

instance (source : TemplateSlide) (resolver : Resolver) : Decidable (source.CallFree resolver) :=
  inferInstanceAs (Decidable (∀ shape ∈ source.shapes, ∀ runs ∈ shape.paragraphs,
    resolver.CallFree runs.flatten))

section Calls

variable {resolver : Resolver} {shown : Instance}

theorem isCall_expandExpression (table : AliasTable) (expression : Expression) :
    (table.expandExpression expression).isCall = expression.isCall := by
  unfold Expression.isCall
  rw [AliasTable.source_expandExpression]
  cases expression.source <;> rfl

theorem obstructed_deferred? (expression : Expression) (obstacle : Obstacle) (state : ResolverState) :
    (Resolver.obstructed expression shown obstacle state).1.deferred? = none := by
  cases obstacle <;> rfl

/-- Only an expression that calls a function leaves a call to the document. -/
theorem resolve_deferred? {expression : Expression} (path : expression.isCall = false)
    (state : ResolverState) : (resolver.resolve expression shown state).1.deferred? = none := by
  rw [← isCall_expandExpression resolver.aliases] at path
  unfold Resolver.resolve Resolver.resolveExpanded
  unfold Expression.isCall at path
  generalize resolver.aliases.expandExpression expression = expression at path ⊢
  cases source : expression.source with
  | call call =>
    rw [source] at path
    cases path
  | path path =>
    dsimp only
    cases (resolver.valueOf path shown state.cache).1 with
    | error obstacle => exact obstructed_deferred? expression obstacle _
    | ok value =>
      dsimp only
      split
      · rfl
      · exact obstructed_deferred? expression _ _

theorem deferredCalls_of_stands {start : ResolverState} {ps : List Piece} {fillings : List Filling}
    (stands : List.Forall₂ (Stands resolver shown start) ps fillings)
    (free : ∀ piece ∈ ps, piece.isCall = false) : deferredCalls fillings = [] := by
  induction stands with
  | nil => rfl
  | @cons piece filling rest fillings first more ih =>
    have behind := ih fun other member => free other (List.mem_cons_of_mem _ member)
    have here := free piece List.mem_cons_self
    cases first with
    | plain c => exact behind
    | literal read => exact behind
    | @value body expression resolution read same =>
      have path : expression.isCall = false := by simpa only [Piece.isCall, read] using here
      have none := @resolve_deferred? resolver shown expression path start
      generalize (resolver.resolve expression shown start).1 = other at same none
      cases same with
      | value text => exact behind
      | hidden reason => exact behind
      | call same => cases none

theorem deferred_resolveText {text : List Char} (free : resolver.CallFree text)
    {state after : ResolverState} {resolution : TextResolution}
    (resolved : resolver.resolveText text shown state = (.ok resolution, after)) :
    resolution.deferred = [] := by
  obtain ⟨fillings, rfl, fills⟩ := resolveText_fills (SameElements.refl state.cache) resolved
  exact deferredCalls_of_stands fills.stands free

/-- The texts that a paragraph is resolved in have no calls when the paragraph has none. -/
theorem callFree_of_mem_groupTexts {runs : List (List Char)} (free : resolver.CallFree runs.flatten)
    {text : List Char} (member : text ∈ groupTexts (runGroups runs)) : resolver.CallFree text := by
  obtain ⟨group, among, rfl⟩ := mem_groupTexts member
  intro piece inside
  apply free
  rw [piecesOf_groups (grouping_runGroups runs)]
  exact List.mem_flatMap.2 ⟨group, among, inside⟩

end Calls

section Slides

/-- Two results that are the same on a condition. -/
def SameIf {α : Type} (condition : Prop) (left right : α) : Prop :=
  condition → left = right

theorem eq_of_sameIf {α : Type} {condition : Prop} {left right : List α}
    (same : List.Forall₂ (SameIf condition) left right) (holds : condition) : left = right := by
  rw [← List.forall₂_eq_eq_eq]
  exact same.imp fun _ _ equal => equal holds

theorem SameOutcome.eq_of_sameIf {ε α : Type} {condition : Prop} {left right : Except ε α}
    (outcome : SameOutcome (SameIf condition) left right) (holds : condition) : left = right := by
  cases outcome with
  | error error => rfl
  | ok same => rw [same holds]

variable {resolver : Resolver} {shown : Instance}

theorem bindParagraphs_cons (runs : List (List Char)) (rest : List (List (List Char))) :
    bindParagraphs resolver shown (runs :: rest) =
      collect (reconcile (fun text state => resolver.resolveText text shown state) runs)
        (bindParagraphs resolver shown rest) := by
  funext state
  rw [bindParagraphs, collect]
  rcases reconcile (fun text state => resolver.resolveText text shown state) runs state
    with ⟨_ | _, _⟩ <;> rfl

theorem bindShapes_cons (shape : TextShape) (rest : List TextShape) :
    bindShapes resolver shown (shape :: rest) =
      collect (fun state =>
          ((bindParagraphs resolver shown shape.paragraphs state).1.map (.ofParagraphs shape),
            (bindParagraphs resolver shown shape.paragraphs state).2))
        (bindShapes resolver shown rest) := by
  funext state
  rw [bindShapes, collect]
  rcases bindParagraphs resolver shown shape.paragraphs state with ⟨_ | _, _⟩ <;> rfl

variable {readable : Path → Prop} {related : ContextCache → ContextCache → Prop}
  {before other : List Diagnostic} {condition : Prop}

theorem resolveText_sameIf (inStep : InStep resolver.root shown readable related)
    (reads : resolver.Reads readable) {text : List Char} (free : condition → resolver.CallFree text) :
    Together (Alongside related before other) (SameIf condition)
      (resolver.resolveText text shown) := by
  intro left right states
  obtain ⟨outcome, after⟩ := resolveText_together inStep reads text left right states
  rcases ran : resolver.resolveText text shown left with ⟨result, middle⟩
  rcases again : resolver.resolveText text shown right with ⟨result', middle'⟩
  rw [ran, again] at outcome after
  refine ⟨?_, after⟩
  cases outcome with
  | error error => exact .error error
  | ok same =>
    refine .ok fun holds => ?_
    have none := deferred_resolveText (free holds) ran
    obtain ⟨parts, others, alike, rfl, rfl⟩ := same
    rw [eq_of_no_deferredCalls alike none]

theorem reconcile_sameIf (inStep : InStep resolver.root shown readable related)
    (reads : resolver.Reads readable) {runs : List (List Char)}
    (free : condition → resolver.CallFree runs.flatten) :
    Together (Alongside related before other) (SameIf condition)
      (reconcile (fun text state => resolver.resolveText text shown state) runs) := by
  have each : ∀ text ∈ groupTexts (runGroups runs),
      Together (Alongside related before other) (SameIf condition) (resolver.resolveText text shown) :=
    fun text member => resolveText_sameIf inStep reads fun holds =>
      callFree_of_mem_groupTexts (free holds) member
  exact (resolveTexts_together each).map fun left right same holds => by rw [eq_of_sameIf same holds]

theorem bindParagraphs_sameIf (inStep : InStep resolver.root shown readable related)
    (reads : resolver.Reads readable) {paragraphs : List (List (List Char))}
    (free : condition → ∀ runs ∈ paragraphs, resolver.CallFree runs.flatten) :
    Together (Alongside related before other) (List.Forall₂ (SameIf condition))
      (bindParagraphs resolver shown paragraphs) := by
  induction paragraphs with
  | nil => exact together_ok .nil
  | cons runs rest ih =>
    rw [bindParagraphs_cons]
    apply Together.collect
    · exact reconcile_sameIf inStep reads fun holds => free holds runs List.mem_cons_self
    · exact ih fun holds other member => free holds other (List.mem_cons_of_mem _ member)

theorem bindShapes_sameIf (inStep : InStep resolver.root shown readable related)
    (reads : resolver.Reads readable) {shapes : List TextShape}
    (free : condition → ∀ shape ∈ shapes, ∀ runs ∈ shape.paragraphs, resolver.CallFree runs.flatten) :
    Together (Alongside related before other) (List.Forall₂ (SameIf condition))
      (bindShapes resolver shown shapes) := by
  induction shapes with
  | nil => exact together_ok .nil
  | cons shape rest ih =>
    rw [bindShapes_cons]
    apply Together.collect
    · have paragraphs := @bindParagraphs_sameIf resolver shown readable related before other condition
        inStep reads shape.paragraphs fun holds => free holds shape List.mem_cons_self
      exact paragraphs.map fun left right same holds => by rw [eq_of_sameIf same holds]
    · exact ih fun holds other member => free holds other (List.mem_cons_of_mem _ member)

/-- A slide comes to the same from both states when it has no calls. -/
theorem bindSlide_sameIf (inStep : InStep resolver.root shown readable related)
    (reads : resolver.Reads readable) (source : TemplateSlide) :
    Together (Alongside related before other) (SameIf (source.CallFree resolver))
      (bindSlide resolver source shown) := by
  have shapes := @bindShapes_sameIf resolver shown readable related before other
    (source.CallFree resolver) inStep reads source.shapes fun holds => holds
  exact shapes.map fun left right same holds => by rw [eq_of_sameIf same holds]

end Slides

end DeckBinding
