import DeckBinding.Directive.Reader
import DeckBinding.Expression.Reading
import DeckBinding.Template.Basic
import DeckBinding.Warning

set_option autoImplicit false

namespace DeckBinding

open DeckBinding.Number

/-- The collection a path goes on from behind its last `>`. -/
def Path.contextCollection? (path : Path) : Option String :=
  (path.chunks.dropLast.getLast?.bind List.getLast?).map (·.key)

/-- The collection of a slide, judged by its expressions: one that an element is selected of behind
a `>`, else the first one that an element is selected of, else what the first path with `>` goes on
from. -/
def inferCollection? (expressions : List Expression) : Option String :=
  let nested := (expressions.filter Expression.usesContext).flatMap Expression.references
  let all := expressions.flatMap Expression.references
  match nested.find? fun reference => '>' ∈ reference.1.toList with
  | some (key, _) => some key
  | none =>
    match all with
    | (key, _) :: _ => some key
    | [] =>
      expressions.findSome? fun expression => expression.paths.findSome? Path.contextCollection?

def slideKind (directives : List Directive) (expressions : List Expression) : SlideKind :=
  let begins := directives.any fun directive => directive.rangeBegin?.isSome
  let ends := directives.any fun directive => directive.rangeEnd?.isSome
  let repeats := directives.any fun
    | .foreach .. => true
    | _ => false
  if ends && !begins then .cloned
  else if repeats || begins then .source
  else if expressions.any fun expression =>
      !expression.references.isEmpty || expression.usesContext then .source
  else .static

/-- The first instruction to repeat the slide: the collection, the page size and the start. -/
def firstForeach? (directives : List Directive) : Option (String × Nat × Nat) :=
  directives.findSome? fun
    | .foreach path max offset => some (path, max, offset)
    | _ => none

/-- The greatest index the expressions select of a collection. -/
def highestIndex? (collection : Option String) (expressions : List Expression) : Option Nat :=
  let references := expressions.flatMap Expression.references
  (references.filterMap fun (key, index) =>
    if some key = collection then some index else none).max?

/-- A template with what was noticed while it was built. -/
structure Analysis where
  template : SlideTemplate
  diagnostics : List Diagnostic
  warnings : List Warning

/-- The warning for a page size that is not the number of items the expressions refer to. -/
def pageSizeWarnings (slide : Int) (max : Nat) (highest : Option Nat) :
    Except NumeralError (List Warning) :=
  match highest with
  | some index =>
    if 0 < max ∧ max ≠ index + 1 then do
      let _ ← write max
      let _ ← write (index + 1)
      .ok [.pageSizeDiffers slide max (index + 1)]
    else .ok []
  | none => .ok []

/-- The template of a slide from its directives and expressions. The page size must have a
numeral. -/
def SlideTemplate.build (slide position : Int) (directives : List Directive)
    (expressions : List Expression) : Except NumeralError Analysis := do
  let kind := slideKind directives expressions
  let foreach? := firstForeach? directives
  let collection := match foreach? with
    | some (path, _, _) => some path
    | none =>
      (inferCollection? expressions).or (directives.findSome? Directive.rangeBegin?)
  let highest := highestIndex? collection expressions
  let (max, offset) := match foreach? with
    | some (_, max, offset) => (max, offset)
    | none => (0, 0)
  let template : SlideTemplate :=
    { slide, position, kind, directives, expressions, highest, max, offset
      collection := if kind = .static then none else collection }
  let warnings ← pageSizeWarnings slide max highest
  let _ ← write template.itemsPerSlide
  .ok ⟨template, [], warnings⟩

def readTexts (slide : Option Int) :
    List (List Char) → Except NumeralError (List Expression × List Diagnostic)
  | [] => .ok ([], [])
  | text :: rest => do
    let (expressions, diagnostics) ← readExpressions slide text
    let (further, noted) ← readTexts slide rest
    .ok (expressions ++ further, diagnostics ++ noted)

/-- Analyzes a slide at a position. Expressions are read from whole paragraphs, whatever their
runs. -/
def TemplateSlide.analyze (slide : TemplateSlide) (position : Int) :
    Except NumeralError Analysis := do
  let (expressions, unread) ← readTexts (some slide.id) (slide.shapes.flatMap TextShape.texts)
  let (directives, refused) ← readDirectives (some slide.id) slide.notes
  let built ← SlideTemplate.build slide.id position directives expressions
  .ok { built with diagnostics := unread ++ refused }

def analyzeFrom (position : Nat) : List TemplateSlide → Except NumeralError (List Analysis)
  | [] => .ok []
  | slide :: rest => do
    let analysis ← slide.analyze position
    let further ← analyzeFrom (position + 1) rest
    .ok (analysis :: further)

def analyzeSlides (slides : List TemplateSlide) : Except NumeralError (List Analysis) :=
  analyzeFrom 0 slides

end DeckBinding
