import DeckBinding.Binding
import DeckBinding.Deck.Edit
import DeckBinding.Proofs.Outcome

set_option autoImplicit false

namespace DeckBinding

section Items

variable {α : Type}

end Items

namespace ShapeBody

end ShapeBody

namespace Shape

/-- A shape whose runs have new texts; each is made from the old one, seen in its paragraph and at
its place there. -/
def rewrite (change : Nat → Nat → List Char → List Char) (shape : Shape) : Shape :=
  shape.withParagraphs (shape.paragraphs.mapIdx fun paragraph runs => runs.mapIdx (change paragraph))

variable {first second : Nat → Nat → List Char → List Char} {shape : Shape}

end Shape

namespace Slide

/-- A slide whose runs have new texts, each made from its address and the old one. -/
def rewrite (change : RunAddress → List Char → List Char) (slide : Slide) : Slide :=
  { slide with
    shapes := slide.shapes.mapIdx fun index shape =>
      shape.rewrite fun paragraph run => change ⟨index, paragraph, run⟩ }

variable {first second : RunAddress → List Char → List Char} {slide changed : Slide}

end Slide

end DeckBinding
