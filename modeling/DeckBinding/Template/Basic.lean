import DeckBinding.Directive.Basic
import DeckBinding.Expression.Basic
import DeckBinding.Text.Split

set_option autoImplicit false

namespace DeckBinding

open DeckBinding.Text

/-- The text of a shape: its paragraphs, each cut into runs. `index` is the place of the shape on
its slide. -/
structure TextShape where
  index : Int
  name : String
  paragraphs : List (List (List Char))

/-- The paragraphs of a shape without the cuts between runs. -/
def TextShape.texts (shape : TextShape) : List (List Char) :=
  shape.paragraphs.map List.flatten

/-- What a template slide says: the texts of its shapes and its notes. -/
structure TemplateSlide where
  id : Int
  shapes : List TextShape
  notes : List Char

/-- A slide with one shape of one run for each text. -/
def TemplateSlide.ofTexts (id : Int) (texts : List (List Char)) (notes : List Char) :
    TemplateSlide :=
  { id, notes
    shapes := texts.zipIdx.map fun (text, index) => ⟨index, s!"Text {index}", [[text]]⟩ }

/-- What becomes of a template slide: it is shown once, it is shown for items of a collection, or it
only ends a range and is never shown. -/
inductive SlideKind where
  | static
  | source
  | cloned
deriving DecidableEq

def SlideKind.label : SlideKind → String
  | .static => "static"
  | .source => "source"
  | .cloned => "cloned"

/-- What the analysis of a template slide found. The collection is a path text with `>` where it is
nested; `highest` is the greatest index that refers to it; a `max` of zero stands for none. -/
structure SlideTemplate where
  slide : Int
  position : Int
  kind : SlideKind
  directives : List Directive
  expressions : List Expression
  collection : Option String
  highest : Option Nat
  max : Nat
  offset : Nat
deriving DecidableEq

namespace SlideTemplate

/-- How many items one slide shows; never none. -/
def itemsPerSlide (template : SlideTemplate) : Nat :=
  if 0 < template.max then template.max
  else match template.highest with
    | some index => index + 1
    | none => 1

theorem itemsPerSlide_pos (template : SlideTemplate) : 0 < template.itemsPerSlide := by
  unfold itemsPerSlide
  split
  · assumption
  · split <;> omega

/-- Whether an expression on the slide goes on from the current element of a collection. -/
def usesContext (template : SlideTemplate) : Bool :=
  template.expressions.any Expression.usesContext

def chunks (template : SlideTemplate) : List String :=
  match template.collection with
  | none => []
  | some collection => if collection.isEmpty then [] else splitString '>' collection

def isNested (template : SlideTemplate) : Bool :=
  1 < template.chunks.length

def rangeBegin? (template : SlideTemplate) : Option String :=
  template.directives.findSome? Directive.rangeBegin?

def rangeEnd? (template : SlideTemplate) : Option String :=
  template.directives.findSome? Directive.rangeEnd?

def hasForeach (template : SlideTemplate) : Bool :=
  template.directives.any fun
    | .foreach .. => true
    | _ => false

end SlideTemplate

theorem chunks_of_collection {template : SlideTemplate} {key : String}
    (here : template.collection = some key) (full : key.toList ≠ []) :
    template.chunks = splitString '>' key := by
  have filled : key.isEmpty = false := by
    rw [← Bool.not_eq_true, String.isEmpty_iff]
    rintro rfl
    exact full rfl
  unfold SlideTemplate.chunks
  rw [here]
  dsimp only
  rw [filled]
  rfl

end DeckBinding
