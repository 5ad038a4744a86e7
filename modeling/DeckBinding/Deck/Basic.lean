import DeckBinding.Deck.Notes
import DeckBinding.Deck.Shape
import DeckBinding.Keyed

set_option autoImplicit false

namespace DeckBinding

structure Slide where
  id : Int
  shapes : List Shape
  notes : Notes
  background : Bool

def Slide.template (slide : Slide) : TemplateSlide where
  id := slide.id
  shapes := slide.shapes.zipIdx.filterMap fun (shape, index) => shape.says? index
  notes := slide.notes.spoken

/-- The number by which a slide is known as long as a deck is open, also after it was removed. -/
abbrev Handle := Nat

/-- An open deck: its slides in order, the slides removed from it, and the next free handle. -/
structure Deck where
  slides : List (Handle × Slide)
  removed : List (Handle × Slide)
  next : Handle

namespace Deck

def ofSlides (slides : List Slide) : Deck where
  slides := slides.zipIdx.map fun (slide, handle) => (handle, slide)
  removed := []
  next := slides.length

def toSlides (deck : Deck) : List Slide := deck.slides.map (·.2)

def templates (deck : Deck) : List TemplateSlide := deck.toSlides.map Slide.template

/-- A slide that is or was in the deck. -/
def known? (deck : Deck) (handle : Handle) : Option Slide :=
  (Keyed.get? handle deck.slides).or (Keyed.get? handle deck.removed)

theorem toSlides_ofSlides (slides : List Slide) : (ofSlides slides).toSlides = slides := by
  simp [ofSlides, toSlides, Function.comp_def]

end Deck

end DeckBinding
