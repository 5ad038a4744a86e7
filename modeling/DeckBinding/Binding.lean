import DeckBinding.Paragraph.Reconciliation
import DeckBinding.Plan.Basic
import DeckBinding.Resolution.Resolver

set_option autoImplicit false

namespace DeckBinding

open DeckBinding.Number

/-- Where a run stands on a slide: its shape, its paragraph in the shape, and its place there. -/
structure RunAddress where
  shape : Int
  paragraph : Nat
  run : Nat
deriving DecidableEq

/-- The order of addresses: by shape, then by paragraph, then by run. -/
def RunAddress.before (left right : RunAddress) : Bool :=
  left.shape < right.shape || (left.shape == right.shape &&
    (left.paragraph < right.paragraph || (left.paragraph == right.paragraph &&
      left.run ≤ right.run)))

/-- The runs of a slide that get new texts. -/
abbrev Patches := List (RunAddress × List Char)

inductive SlideEdit where
  | setRun (address : RunAddress) (text : List Char)
  | place (shape : Int) (call : Deferred)
  | hide (shape : Int)

/-- All that is needed to make one slide: the template slide, the new texts of runs, the shapes to
hide, and the calls left to the document. -/
structure SlideOutput where
  source : TemplateSlide
  shown : Instance
  patches : Patches
  hidden : List Int
  deferred : List (Int × Deferred)

/-- The numbers of a list from the greatest to the least, each once. -/
def descending (numbers : List Int) : List Int :=
  (numbers.mergeSort fun left right => right ≤ left).eraseDups

/-- The changes in order: texts, calls, and then hidden shapes from the last to the first, so that
removing one moves none that is still to be hidden. -/
def SlideOutput.edits (output : SlideOutput) : List SlideEdit :=
  output.patches.map (fun patch => .setRun patch.1 patch.2)
    ++ output.deferred.map (fun entry => .place entry.1 entry.2)
    ++ (descending output.hidden).map .hide

def changedRuns (shape : Int) (paragraph : Nat) (runs texts : List (List Char)) : Patches :=
  ((runs.zip texts).zipIdx.filter fun ((old, new), _) => old != new).map
    fun ((_, new), run) => (⟨shape, paragraph, run⟩, new)

/-- Resolves the paragraphs of a shape in order, from a position on. -/
def bindParagraphs (resolver : Resolver) (shown : Instance) :
    List (List (List Char)) → ResolverState → Except NumeralError (List Reconciled) × ResolverState
  | [], state => (.ok [], state)
  | runs :: rest, state =>
    let resolveText := fun text state => resolver.resolveText text shown state
    match reconcile resolveText runs state with
    | (.error error, state) => (.error error, state)
    | (.ok reconciled, state) =>
      let (further, state) := bindParagraphs resolver shown rest state
      (further.map (reconciled :: ·), state)

/-- What the resolution of a shape changes: runs, and either the shape is hidden or calls are
left. -/
structure ShapeOutput where
  patches : Patches
  hidden : List Int
  deferred : List (Int × Deferred)

/-- The changes of a shape whose paragraphs are resolved. -/
def ShapeOutput.ofParagraphs (shape : TextShape) (resolved : List Reconciled) : ShapeOutput :=
  let hides := resolved.any Reconciled.hidden
  { patches := (shape.paragraphs.zip resolved).zipIdx.flatMap fun ((runs, reconciled), paragraph) =>
      changedRuns shape.index paragraph runs reconciled.texts
    hidden := if hides then [shape.index] else []
    deferred :=
      if hides then []
      else (resolved.flatMap (·.deferred)).map fun call => (shape.index, call) }

def bindShapes (resolver : Resolver) (shown : Instance) :
    List TextShape → ResolverState → Except NumeralError (List ShapeOutput) × ResolverState
  | [], state => (.ok [], state)
  | shape :: rest, state =>
    match bindParagraphs resolver shown shape.paragraphs state with
    | (.error error, state) => (.error error, state)
    | (.ok resolved, state) =>
      let (further, state) := bindShapes resolver shown rest state
      (further.map (ShapeOutput.ofParagraphs shape resolved :: ·), state)

def bindSlide (resolver : Resolver) (source : TemplateSlide) (shown : Instance)
    (state : ResolverState) : Except NumeralError SlideOutput × ResolverState :=
  let (found, state) := bindShapes resolver shown source.shapes state
  let output := found.map fun shapes =>
    { source, shown
      patches := (Keyed.ofList (shapes.flatMap (·.patches))).mergeSort
        fun left right => left.1.before right.1
      hidden := shapes.flatMap (·.hidden)
      deferred := shapes.flatMap (·.deferred) : SlideOutput }
  (output, state)

def bindInstances (resolver : Resolver) (slides : List (Int × TemplateSlide)) :
    List Instance → ResolverState → Except NumeralError (List SlideOutput) × ResolverState
  | [], state => (.ok [], state)
  | shown :: rest, state =>
    match Keyed.get? shown.slide slides with
    | none => bindInstances resolver slides rest state
    | some source =>
      match bindSlide resolver source shown state with
      | (.error error, state) => (.error error, state)
      | (.ok output, state) =>
        let (further, state) := bindInstances resolver slides rest state
        (further.map (output :: ·), state)

def SlidePlan.bind (plan : SlidePlan) (slides : List TemplateSlide) (resolver : Resolver) :
    Except NumeralError (List SlideOutput × List Diagnostic) :=
  let table := Keyed.ofList (slides.map fun slide => (slide.id, slide))
  match bindInstances resolver table plan.instances .start with
  | (.error error, _) => .error error
  | (.ok outputs, state) => .ok (outputs, state.diagnostics)

/-- The slides made from a template and data, with what was noticed on the way. -/
structure Generation where
  outputs : List SlideOutput
  plan : SlidePlan
  notices : List Notice
  diagnostics : List Diagnostic
  warnings : List Warning

/-- Plans and resolves analyzed slides for data, without a document. -/
def generateFrom (analyses : List Analysis) (slides : List TemplateSlide) (data : Value)
    (plainsQuotes : Bool) : Except NumeralError Generation := do
  let planning ← SlidePlan.ofTemplates (analyses.map (·.template)) data
  let resolver := Resolver.ofData data planning.plan.aliases plainsQuotes
  let (outputs, unresolved) ← planning.plan.bind slides resolver
  .ok {
    outputs
    plan := planning.plan
    notices := planning.notices
    diagnostics := analyses.flatMap (·.diagnostics) ++ planning.plan.diagnostics ++ unresolved
    warnings := analyses.flatMap (·.warnings) ++ planning.warnings }

/-- Plans and resolves a template for data, without a document. -/
def generate (slides : List TemplateSlide) (data : Value) (plainsQuotes : Bool) :
    Except NumeralError Generation := do
  let analyses ← analyzeSlides slides
  generateFrom analyses slides data plainsQuotes

end DeckBinding
