import DeckBinding.Alias.Table
import DeckBinding.Number.Binary64
import DeckBinding.Path.Walk
import DeckBinding.Plan.Instance
import DeckBinding.Plan.Window
import DeckBinding.Progress
import DeckBinding.Template.Analysis
import DeckBinding.Value.Plain

set_option autoImplicit false

namespace DeckBinding

open DeckBinding.Number

/-- What the expansion of a template gives, in order: slides and problems. -/
inductive PlanEntry where
  | shown (slide : Instance)
  | noted (diagnostic : Diagnostic)
deriving DecidableEq

def PlanEntry.instance? : PlanEntry → Option Instance
  | .shown slide => some slide
  | .noted _ => none

def PlanEntry.diagnostic? : PlanEntry → Option Diagnostic
  | .shown _ => none
  | .noted diagnostic => some diagnostic

/-- The items a path leads to from a value. What is no collection is empty, and noted. -/
def collectionItems (value : Value) (path : String) : Except Problem (List Value) :=
  match walk value path.toList with
  | .error failure => .error (.collectionPath path failure)
  | .ok none => .error (.collectionMissing path)
  | .ok (some .null) => .error (.collectionMissing path)
  | .ok (some found) =>
    match found.items? with
    | some items => .ok items
    | none => .error (.notACollection path)

/-- Expands the items of a collection with what is made of them; problems are noted in front. -/
def withItems (value : Value) (path : String) (slide : Int)
    (expand : List Value → List PlanEntry) : List PlanEntry :=
  match collectionItems value path with
  | .ok items => expand items
  | .error problem => .noted ⟨problem, some slide⟩ :: expand []

/-- The number of pages for some items. The quotient is taken as a double, so that a quotient too
small for one gives no page. -/
def pageCount (items size : Nat) : Nat :=
  ((Binary64.ofQuotient false items size).ceil?.getD 0).toNat

/-- The slides of a template that show a collection page by page. -/
def flatEntries (template : SlideTemplate) (data : Value) (context : ContextPath) :
    List PlanEntry :=
  withItems data (template.collection.getD "") template.slide fun items =>
    let size := template.itemsPerSlide
    (List.range (pageCount (items.length - template.offset) size)).map fun page =>
      .shown {
        slide := template.slide
        position := 0
        context
        offset := (template.offset + page * size : Nat)
        parentIndex := none
        empty := false
        collection := template.collection }

/-- The slides of a nested template below one element; a collection without items left to show gets
one slide that is empty. -/
def leafEntries (template : SlideTemplate) (context : ContextPath) (items : List Value) :
    List PlanEntry :=
  let parentIndex := context.getLast?.map (·.index)
  let size := template.itemsPerSlide
  if items.length ≤ template.offset then
    [.shown {
      slide := template.slide
      position := 0
      context
      offset := 0
      parentIndex
      empty := true
      collection := template.collection }]
  else
    (List.range (pageCount (items.length - template.offset) size)).map fun page =>
      .shown {
        slide := template.slide
        position := 0
        context
        offset := (template.offset + page * size : Nat)
        parentIndex
        empty := false
        collection := template.collection }

/-- The slides of a nested template below an element, for the collections that are left. -/
def nestedEntries (template : SlideTemplate) (context : ContextPath) (element : Value) :
    List String → List PlanEntry
  | [] => []
  | [chunk] => withItems element chunk template.slide (leafEntries template context)
  | chunk :: rest =>
    withItems element chunk template.slide fun items =>
      items.zipIdx.flatMap fun (item, index) =>
        nestedEntries template (context ++ [⟨chunk, index⟩]) item rest

/-- The slides of one template in a window, for one element of the window's collection. -/
def memberEntries (window : Window) (data : Value) (index : Nat) (element : Value)
    (template : SlideTemplate) : List PlanEntry :=
  let context : ContextPath := [⟨window.collection, index⟩]
  let once : PlanEntry := .shown {
    slide := template.slide
    position := 0
    context
    offset := index
    parentIndex := none
    empty := false
    collection := some window.collection }
  match template.chunks with
  | [] => [once]
  | chunk :: rest =>
    if template.kind = .static ∨ (rest = [] ∧ chunk = window.collection) then [once]
    else if chunk = window.collection then nestedEntries template context element rest
    else flatEntries template data context

def Window.visits (window : Window) (index : Nat) : Bool :=
  window.first ≤ index && (index - window.first) % window.step == 0

/-- The template slides of a window that are shown. -/
def Window.members (window : Window) (templates : List SlideTemplate) : List SlideTemplate :=
  ((templates.drop window.start).take (window.stop + 1 - window.start)).filter (·.kind != .cloned)

/-- The slides of a window: for each visited element in turn, those of each member. -/
def windowEntries (templates : List SlideTemplate) (window : Window) (data : Value) :
    List PlanEntry :=
  let slide := (templates[window.start]?.map (·.slide)).getD 0
  withItems data window.collection slide fun items =>
    (items.zipIdx.filter fun (_, index) => window.visits index).flatMap fun (element, index) =>
      (window.members templates).flatMap (memberEntries window data index element)

/-- The slides that the template slide at a position gives: those of a window, if it is the first
one of it, and none if it is a later one; else its own. -/
def entriesAt (templates : List SlideTemplate) (windows : List Window) (data : Value)
    (template : SlideTemplate) (position : Nat) : List PlanEntry :=
  match windowAt? windows position with
  | some window =>
    if window.start = position then windowEntries templates window data else []
  | none =>
    match template.kind with
    | .static => [.shown {
        slide := template.slide
        position := 0
        context := []
        offset := 0
        parentIndex := none
        empty := false
        collection := none }]
    | .source => flatEntries template data []
    | .cloned => []

def planEntries (templates : List SlideTemplate) (windows : List Window) (data : Value) :
    List PlanEntry :=
  templates.zipIdx.flatMap fun (template, position) =>
    entriesAt templates windows data template position

structure SlidePlan where
  instances : List Instance
  aliases : AliasTable
  chains : List (Int × List String)
  templates : List (Int × SlideTemplate)
  diagnostics : List Diagnostic
  nested : Bool

def SlidePlan.countOf (plan : SlidePlan) (slide : Int) : Nat :=
  plan.instances.countP (·.slide == slide)

structure Planning where
  plan : SlidePlan
  notices : List Notice
  warnings : List Warning

/-- The templates in order of position, with positions counted from zero. -/
def inOrder (templates : List SlideTemplate) : List SlideTemplate :=
  (templates.mergeSort fun left right => left.position ≤ right.position).zipIdx.map
    fun (template, position) => { template with position := (position : Int) }

def AliasTable.expandDirectives (table : AliasTable) :
    List Directive → Except NumeralError (List Directive)
  | [] => .ok []
  | directive :: rest => do
    let directive ← table.expandDirective directive
    let further ← table.expandDirectives rest
    .ok (directive :: further)

/-- A template built anew from its directives and expressions with the aliases expanded. -/
def AliasTable.expandTemplate (table : AliasTable) (template : SlideTemplate) :
    Except NumeralError Analysis := do
  let directives ← table.expandDirectives template.directives
  SlideTemplate.build template.slide template.position directives
    (template.expressions.map table.expandExpression)

/-- The templates with the aliases expanded, and the warnings of building them anew. -/
def AliasTable.expandTemplates (table : AliasTable) :
    List SlideTemplate → Except NumeralError (List SlideTemplate × List Warning)
  | [] => .ok ([], [])
  | template :: rest => do
    let built ← table.expandTemplate template
    let (templates, warnings) ← table.expandTemplates rest
    .ok (built.template :: templates, built.warnings ++ warnings)

def Directive.isAlias : Directive → Bool
  | .alias .. => true
  | _ => false

def SlidePlan.ofTemplates (templates : List SlideTemplate) (data : Value) :
    Except NumeralError Planning := do
  let templates := inOrder templates
  let declared := templates.flatMap fun template => template.directives.filter Directive.isAlias
  let built ← AliasTable.ofDirectives declared
  let (templates, warnings) ←
    if built.table.entries.isEmpty then .ok (templates, [])
    else built.table.expandTemplates templates
  let (windows, noted) := findWindows templates
  let entries := planEntries templates windows data.plain
  .ok {
    plan := {
      instances := Instance.numbered (entries.filterMap PlanEntry.instance?)
      aliases := built.table
      chains := Keyed.ofList
        ((templates.filter fun template => !template.chunks.isEmpty).map fun template =>
          (template.slide, template.chunks))
      templates := Keyed.ofList (templates.map fun template => (template.slide, template))
      diagnostics := built.diagnostics ++ noted ++ entries.filterMap PlanEntry.diagnostic?
      nested := !windows.isEmpty }
    notices := [
      ⟨.aliasTransformation, 15, s!"{declared.length} alias directive(s)"⟩,
      ⟨.planGeneration, 25, ""⟩]
    warnings := built.warnings ++ warnings }

end DeckBinding
