import DeckBinding.Presentation
import DeckBinding.Proofs.Deck.Rewriting
import DeckBinding.Proofs.Keyed
import Mathlib.Data.Nat.Init

set_option autoImplicit false

/-! The slide of an output. The changes of an output are made one after another on a copy of its template
slide, while pictures are appended and shapes removed; what comes out is given here at once, by the places
that the shapes have on the template slide. -/

namespace DeckBinding

open DeckBinding.Text

variable {mode : HideMode} {assets : Location} {store : FileStore}

/-- A picture for a slide: its size in pixels and its place. -/
structure Picture where
  width : Nat
  height : Nat
  box : Box

/-- The picture of the file that a path leads to, over a box; none if no file is there. -/
def pictureAt? (store : FileStore) (path : Location) (box : Box) : Option Picture :=
  match store.contains path, pictureSize store path with
  | .ok true, .ok (width, height) =>
    (pictureBox width height box).toOption.map fun place => ⟨width, height, place⟩
  | _, _ => none

/-- The picture that a call places over a box. Only `Image` with a path places one. -/
def Deferred.picture? (call : Deferred) (box : Box) (assets : Location) (store : FileStore) :
    Option Picture :=
  if lowerString call.name = "image" then
    (call.arguments.head?.bind fun argument => (Slide.picturePath assets argument).toOption).bind
      fun path => pictureAt? store path box
  else none

/-- The greatest number of a shape, or one if there is none. -/
def lastNumber (shapes : List Shape) : Nat := shapes.foldl (fun last shape => max last shape.number) 1

def pictureShapes (last : Nat) : List Picture → List Shape
  | [] => []
  | picture :: rest =>
    ⟨last + 1, s!"Picture {last}", false, picture.box, .picture picture.width picture.height⟩
      :: pictureShapes (last + 1) rest

/-- The text of a run after a call has taken its token out of the shape that holds it. -/
def withoutToken (entry : Int × Deferred) (address : RunAddress) (text : List Char) : List Char :=
  if address.shape = entry.1 then remove entry.2.token.toList text else text

namespace Slide

variable {slide changed : Slide}

def picture? (slide : Slide) (assets : Location) (store : FileStore) (entry : Int × Deferred) :
    Option Picture :=
  slide.shapes[entry.1.toNat]?.bind fun shape => entry.2.picture? shape.box assets store

end Slide

def HideMode.leave (mode : HideMode) (hidden : List Int) (shapes : List Shape) : List Shape :=
  match mode with
  | .remove => (shapes.zipIdx.filter fun entry => (entry.2 : Int) ∉ hidden).map (·.1)
  | .blank => shapes.mapIdx fun index shape =>
    { shape with hidden := shape.hidden || (index : Int) ∈ hidden }

section Leaving

variable {index : Nat} {rest : List Int} {shapes : List Shape} {shape : Shape}

end Leaving

/-- The text of a run on the slide of an output: the new text as a deck holds it, or else the old
one, without the tokens of the calls that are left to the shape. -/
def SlideOutput.renderedText (output : SlideOutput) (address : RunAddress) (text : List Char) :
    List Char :=
  output.deferred.foldl (fun text entry => withoutToken entry address text)
    (((Keyed.get? address output.patches).map heldText).getD text)

/-- The slide of an output with a number. Its shapes are those of the template slide with the texts
of the output, as far as they are not hidden; the pictures of its calls come behind them. -/
def Slide.rendered (source : Slide) (mode : HideMode) (assets : Location) (store : FileStore)
    (output : SlideOutput) (id : Int) : Slide :=
  { Deck.copyOf source id with
    shapes := mode.leave output.hidden (source.rewrite output.renderedText).shapes ++
      pictureShapes (lastNumber source.shapes)
        (output.deferred.filterMap (source.picture? assets store)) }

end DeckBinding
