import DeckBinding.Deck.Shape
import DeckBinding.Number.Binary64

set_option autoImplicit false

namespace DeckBinding

open DeckBinding.Number

/-- Why a picture has no size in a box: a quotient or a side is no double, a side has no end, or the
picture is so narrow that the quotient of its sides is zero. -/
inductive FitError where
  | quotientTooLarge
  | sideTooLarge
  | endless
  | zeroRatio
deriving DecidableEq

def FitError.message : FitError → String
  | .quotientTooLarge => "integer division result too large for a float"
  | .sideTooLarge => "int too large to convert to float"
  | .endless => "cannot convert float infinity to integer"
  | .zeroRatio => "float division by zero"

def ratio (num den : Int) : Except FitError Binary64 :=
  match Binary64.ofIntQuotient? num den with
  | some ratio => .ok ratio
  | none => .error .quotientTooLarge

def sideLength (side : Int) : Except FitError Binary64 :=
  match Binary64.ofInt? side with
  | some length => .ok length
  | none => .error .sideTooLarge

def wholeLength (length : Binary64) : Except FitError Int :=
  match length.truncate? with
  | some whole => .ok whole
  | none => .error .endless

/-- The sides of a picture that fills a box in one direction and fits in the other: the width is
filled when the picture is wider than the box for its height, else the height. -/
def fittedSides (width height : Int) (box : Box) : Except FitError (Int × Int) := do
  let picture ← ratio width height
  let frame ← ratio box.width box.height
  if frame.lessThan picture then
    let side ← sideLength box.width
    match side.div? picture with
    | none => .error .zeroRatio
    | some length => .ok (box.width, ← wholeLength length)
  else
    let side ← sideLength box.height
    let fitted ← wholeLength (side.mul picture)
    .ok (fitted, box.height)

/-- The place of a picture in the middle of a box, scaled to fit. A picture or a box without extent
leaves the box as it is. -/
def fitWithin (width height : Int) (box : Box) : Except FitError Box :=
  if width = 0 || height = 0 || box.width = 0 || box.height = 0 then .ok box
  else do
    let (fittedWidth, fittedHeight) ← fittedSides width height box
    .ok ⟨box.left + Int.fdiv (box.width - fittedWidth) 2,
      box.top + Int.fdiv (box.height - fittedHeight) 2, fittedWidth, fittedHeight⟩

end DeckBinding
