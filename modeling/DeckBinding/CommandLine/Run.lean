import DeckBinding.CommandLine.Arguments
import DeckBinding.Presentation

set_option autoImplicit false

namespace DeckBinding.CommandLine

open DeckBinding.Number

/-- How a run of the program ends: its arguments are refused, help is asked for, it ends with an
exit code after it wrote a text, or it breaks on a configured path that is no text. -/
inductive Ending where
  | refused (error : ArgumentError)
  | help
  | exit (code : Nat) (printed : String)
  | broken (error : ConfigurationError)

def Ending.code : Ending → Nat
  | .refused _ => 2
  | .help => 0
  | .exit code _ => code
  | .broken _ => 1

def refusal (error : ArgumentError) : String :=
  "slidebind: error: " ++ error.message

def helpText : String :=
  "usage: slidebind [-h] [--config CONFIG] [--template TEMPLATE] [--data DATA]\n"
    ++ "                 [--output OUTPUT] [--inspect | --plan-only]\n\n"
    ++ "Generate a PowerPoint presentation from a template and JSON/YAML data.\n"

def printed (lines : List String) : String :=
  String.join (lines.map (· ++ "\n"))

/-- A line between sections. -/
def rule : String := String.ofList (List.replicate 60 '=')

/-- Texts that can be printed before the first that cannot, and why it cannot. -/
def printable {ε : Type} : List (Except ε String) → List String × Option ε
  | [] => ([], none)
  | .ok line :: rest => let (lines, error?) := printable rest; (line :: lines, error?)
  | .error error :: _ => ([], some error)

def directiveLine (directive : Directive) : String :=
  let name :=
    match directive with
    | .foreach .. => "foreach"
    | .range .. => "range"
    | .alias .. => "alias"
  let ending :=
    match directive with
    | .alias _ given => if given.isEmpty then "" else s!" as {given}"
    | _ => ""
  s!"  Directive:       #{name} {directive.path}{ending}"

def analysisLines (template : SlideTemplate) : List (Except NumeralError String) :=
  let collection :=
    match template.collection with
    | some collection =>
      if collection.isEmpty then []
      else [.ok s!"  Collection:      {collection}",
        (write template.itemsPerSlide).map fun items => s!"  Items per slide: {items}"]
    | none => []
  [.ok s!"Slide {template.position + 1} (id {template.slide}): {template.kind.label}"]
    ++ collection
    ++ template.directives.map (fun directive => .ok (directiveLine directive))
    ++ template.expressions.map (fun expression => .ok s!"  Expression:      {expression.text}")

def diagnosticLines (diagnostics : List Diagnostic) : List String :=
  if diagnostics.isEmpty then []
  else s!"\nDiagnostics ({diagnostics.length}):" :: diagnostics.map fun d => s!"  {d.text}"

def failureLine (error : RunError) : String :=
  if error.isMissingInput then s!"\nError: {error.message}"
  else s!"\nError generating presentation: {error.message}"

def shownPath (configuration : Configuration) (key : String) :
    Except ConfigurationError String :=
  match configuration.location? key with
  | .ok (some location) => .ok location.text
  | .ok none => .ok "(not configured)"
  | .error error => .error error

def heading (request : Request) (configuration : Configuration) :
    Except ConfigurationError (List String) := do
  let template ← shownPath configuration "template"
  let data ← shownPath configuration "data"
  let output ←
    if request.inspects || request.plansOnly then .ok []
    else (shownPath configuration "output").map fun output => [s!"Output:        {output}"]
  .ok ([rule, "slidebind Presentation Generator", rule, s!"Configuration: {request.config.shown}",
    s!"Template:      {template}", s!"Data:          {data}"] ++ output ++ [rule])

/-- Shows the analysis of the template: the exit code and the lines. -/
def inspect (configuration : Configuration) (store : FileStore) : Nat × List String :=
  match configuration.inspect store with
  | .error error => (1, [failureLine error])
  | .ok analyses =>
    match printable (analyses.flatMap fun analysis => analysisLines analysis.template) with
    | (lines, none) => (0, lines ++ diagnosticLines (analyses.flatMap (·.diagnostics)))
    | (lines, some error) => (1, lines ++ [failureLine (.numeral error)])

/-- Shows the plan of the slides: the exit code and the lines. -/
def planOnly (configuration : Configuration) (store : FileStore) : Nat × List String :=
  let found := do
    let (plan, _) ← configuration.plan store
    let lines ← Except.forRun .numeral (plan.instances.mapM Instance.line)
    .ok (lines ++ diagnosticLines plan.diagnostics)
  match found with
  | .error error => (1, [failureLine error])
  | .ok lines => (0, lines)

/-- Makes the deck: the exit code and the lines, and the files afterwards. -/
def generate (configuration : Configuration) (store : FileStore) :
    (Nat × List String) × FileStore :=
  match configuration.generate store with
  | (.error error, store) => ((1, [failureLine error]), store)
  | (.ok made, store) =>
    ((0, diagnosticLines made.diagnostics ++ ["\n" ++ rule,
      s!"Done! {made.slideCount} slide(s) written to {made.output.text}", rule]), store)

def loadConfiguration (request : Request) (store : FileStore) :
    Except ConfigurationError Configuration :=
  match request.config with
  | .text path => Configuration.ofFile store (.ofText path)
  | .nothing => .error (.pathKind "list")

/-- The configuration with the paths that a request gives. -/
def override (configuration : Configuration) (request : Request) : Configuration :=
  ((configuration.overridePath "template" request.template).overridePath "data"
    request.data).overridePath "output" request.output

def configurationFailure (request : Request) (error : ConfigurationError) : List String :=
  match error with
  | .notFound _ =>
    [s!"Error: {error.message}",
      s!"Please ensure the configuration file exists at: {request.config.shown}"]
  | _ => [s!"Error loading configuration: {error.message}"]

def act (request : Request) (configuration : Configuration) (store : FileStore) :
    (Nat × List String) × FileStore :=
  if request.inspects then (inspect configuration store, store)
  else if request.plansOnly then (planOnly configuration store, store)
  else generate configuration store

/-- Carries out a request: how it ends, and the files afterwards. -/
def perform (request : Request) (store : FileStore) : Ending × FileStore :=
  match loadConfiguration request store with
  | .error error => (.exit 1 (printed (configurationFailure request error)), store)
  | .ok configuration =>
    let configuration := override configuration request
    match heading request configuration with
    | .error error => (.broken error, store)
    | .ok lines =>
      let ((code, more), store) := act request configuration store
      (.exit code (printed (lines ++ more)), store)

/-- Runs the program with arguments: how it ends, and the files afterwards. -/
def run (arguments : List String) (store : FileStore) : Ending × FileStore :=
  match readRequest arguments with
  | .error error => (.refused error, store)
  | .ok .help => (.help, store)
  | .ok (.run request) => perform request store

end DeckBinding.CommandLine
