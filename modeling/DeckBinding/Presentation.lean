import DeckBinding.Binding
import DeckBinding.Configuration.Loading
import DeckBinding.Deck.Edit

set_option autoImplicit false

namespace DeckBinding

open DeckBinding.Number

inductive RunError where
  | configuration (error : ConfigurationError)
  | deck (error : DeckError)
  | data (error : DataError)
  | numeral (error : NumeralError)

def RunError.message : RunError → String
  | .configuration error => error.message
  | .deck error => error.message
  | .data error => error.message
  | .numeral error => error.message

def RunError.isMissingInput : RunError → Bool
  | .configuration (.missingInputs _) => true
  | .configuration (.notFound _) => true
  | .data (.notFound _) => true
  | _ => false

def Except.forRun {ε α : Type} (wrap : ε → RunError) : Except ε α → Except RunError α
  | .ok value => .ok value
  | .error error => .error (wrap error)

/-- An open template: the deck, and the folder from which relative paths of pictures are seen. -/
structure Template where
  deck : Deck
  assets : Location

namespace Configuration

/-- Opens the template. Pictures are looked for beside it when no folder is configured. -/
def openTemplate (configuration : Configuration) (store : FileStore) : Except RunError Template := do
  let path ← Except.forRun .configuration (configuration.location "template")
  let assets? ← Except.forRun .configuration configuration.assetsFolder?
  let deck ← Except.forRun .deck (Deck.ofFile store path)
  .ok ⟨deck, assets?.getD path.parent⟩

def inspect (configuration : Configuration) (store : FileStore) :
    Except RunError (List Analysis) := do
  let template ← configuration.openTemplate store
  Except.forRun .numeral (analyzeSlides template.deck.templates)

def loadData (configuration : Configuration) (store : FileStore) : Except RunError Value := do
  let path ← Except.forRun .configuration (configuration.location "data")
  Except.forRun .data (DeckBinding.loadData store path)

/-- Plans the slides for the data. The diagnostics of the analysis come first. -/
def plan (configuration : Configuration) (store : FileStore) :
    Except RunError (SlidePlan × List Warning) := do
  Except.forRun .configuration (configuration.validate store requiredInputs)
  let analyses ← configuration.inspect store
  let data ← configuration.loadData store
  let planning ← Except.forRun .numeral
    (SlidePlan.ofTemplates (analyses.map (·.template)) data)
  let noted := analyses.flatMap (·.diagnostics) ++ planning.plan.diagnostics
  .ok ({ planning.plan with diagnostics := noted },
    analyses.flatMap (·.warnings) ++ planning.warnings)

end Configuration

def Slide.apply (mode : HideMode) (assets : Location) (store : FileStore) (slide : Slide) :
    SlideEdit → Except DeckError (Slide × List Warning)
  | .setRun address text => do
    let changed ← slide.setRun address.shape address.paragraph address.run text
    .ok (changed, [])
  | .place shape call =>
    match slide.place shape call assets store with
    | (.ok warnings, changed) => .ok (changed, warnings)
    | (.error error, _) => .error error
  | .hide shape => do
    let changed ← slide.hide mode shape
    .ok (changed, [])

def Slide.applyAll (mode : HideMode) (assets : Location) (store : FileStore) (slide : Slide) :
    List SlideEdit → Except DeckError (Slide × List Warning)
  | [] => .ok (slide, [])
  | edit :: rest => do
    let (changed, first) ← slide.apply mode assets store edit
    let (changed, others) ← changed.applyAll mode assets store rest
    .ok (changed, first ++ others)

namespace Deck

/-- The slide with a number, the last one if there are several. -/
def withId? (deck : Deck) (id : Int) : Option Slide :=
  deck.toSlides.reverse.find? fun slide => slide.id == id

/-- Appends a copy of the template slide of an output and makes the changes of the output on it. -/
def append (deck : Deck) (mode : HideMode) (assets : Location) (store : FileStore)
    (output : SlideOutput) : Except DeckError (Deck × List Warning) :=
  match deck.withId? output.source.id with
  | none => .ok (deck, [])
  | some source => do
    let handle := deck.next
    let (changed, warnings) ←
      (copyOf source deck.nextId).applyAll mode assets store output.edits
    .ok ((deck.clone source none).set handle changed, warnings)

def appendAll (deck : Deck) (mode : HideMode) (assets : Location) (store : FileStore) :
    List SlideOutput → Except DeckError (Deck × List Warning)
  | [] => .ok (deck, [])
  | output :: rest => do
    let (changed, first) ← deck.append mode assets store output
    let (changed, others) ← changed.appendAll mode assets store rest
    .ok (changed, first ++ others)

def removeAll (deck : Deck) : List Handle → Except DeckError Deck
  | [] => .ok deck
  | handle :: rest => do
    let deck ← deck.remove handle
    deck.removeAll rest

end Deck

structure Presentation where
  output : Location
  slideCount : Nat
  plan : SlidePlan
  diagnostics : List Diagnostic
  notices : List Notice
  warnings : List Warning

/-- What a run tells while it makes so many slides. -/
def makingNotices (count : Nat) : List Notice :=
  ⟨.functionProcessing, 60, ""⟩
    :: (List.range count).map fun index =>
      ⟨.functionProcessing, 60 + 30 * (index + 1 : Nat) / (count : Nat), ""⟩

/-- Everything about a finished deck except that it is saved. -/
structure Making where
  deck : Deck
  presentation : Presentation

namespace Configuration

/-- Makes the deck for the data, up to saving it. -/
def make (configuration : Configuration) (store : FileStore) : Except RunError Making := do
  Except.forRun .configuration (configuration.validate store requiredInputs)
  let path ← Except.forRun .configuration (configuration.location "template")
  let template ← configuration.openTemplate store
  let slides := template.deck.templates
  let analyses ← Except.forRun .numeral (analyzeSlides slides)
  let data ← configuration.loadData store
  let made ← Except.forRun .numeral
    (generateFrom analyses slides data configuration.plainsQuotes)
  let (deck, placing) ← Except.forRun .deck
    (template.deck.appendAll configuration.hideMode template.assets store made.outputs)
  let removed := if configuration.removesTemplates then template.deck.slides.map (·.1) else []
  let deck ← Except.forRun .deck (deck.removeAll removed)
  let output ← Except.forRun .configuration (configuration.location "output")
  let count := made.outputs.length
  let slideCount := count + (slides.length - removed.length)
  let notices :=
    [⟨.templateAnalysis, 0, path.text⟩] ++ made.notices
      ++ [⟨.dataBinding, 40, s!"{count} slide(s)"⟩] ++ makingNotices count
      ++ [⟨.finalization, 90, ""⟩, ⟨.finalization, 100, s!"{slideCount} slide(s)"⟩]
  let finished :=
    if made.diagnostics.isEmpty then []
    else [Warning.finishedWithDiagnostics made.diagnostics.length]
  .ok {
    deck
    presentation := {
      output, slideCount
      plan := made.plan
      diagnostics := made.diagnostics
      notices := (Progress.start.reportAll notices).notices
      warnings := made.warnings ++ placing ++ finished } }

/-- Makes the deck for the data and saves it. Files change only in the saving. -/
def generate (configuration : Configuration) (store : FileStore) :
    Except RunError Presentation × FileStore :=
  match configuration.make store with
  | .error error => (.error error, store)
  | .ok making =>
    match making.deck.save store making.presentation.output with
    | (.ok _, store) => (.ok making.presentation, store)
    | (.error error, store) => (.error (.deck error), store)

end Configuration

end DeckBinding
