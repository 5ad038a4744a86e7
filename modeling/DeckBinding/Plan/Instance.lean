import DeckBinding.Number.Numeral

set_option autoImplicit false

namespace DeckBinding

open DeckBinding.Number

/-- The current element of an iterated collection. -/
structure ContextSegment where
  name : String
  index : Int
deriving DecidableEq

/-- The current elements of nested collections, the outermost first. -/
abbrev ContextPath := List ContextSegment

def ContextSegment.text (segment : ContextSegment) : Except NumeralError String := do
  let index ← write segment.index
  .ok s!"{segment.name}[{index}]"

namespace ContextPath

def texts : ContextPath → Except NumeralError (List String)
  | [] => .ok []
  | segment :: rest => do
    let text ← segment.text
    let more ← texts rest
    .ok (text :: more)

/-- A context as text, with `>` between its segments. -/
def text (context : ContextPath) : Except NumeralError String := do
  let parts ← context.texts
  .ok (">".intercalate parts)

end ContextPath

/-- One slide of the result: the template slide it is made from, the elements it stands below, and
the shift of indices into its collection. An empty one stands in for a collection without items. -/
structure Instance where
  slide : Int
  position : Int
  context : ContextPath
  offset : Int
  parentIndex : Option Int
  empty : Bool
  collection : Option String
deriving DecidableEq

namespace Instance

/-- An instance in short: its slide, its context and its offset. -/
def describe (shown : Instance) : Except NumeralError String := do
  let slide ← write shown.slide
  let context ← shown.context.text
  let offset ← write shown.offset
  let place := if shown.context.isEmpty then "" else "@" ++ context
  let mark := if shown.empty then " (empty)" else ""
  .ok s!"{slide}{place}#{offset}{mark}"

def numbered (instances : List Instance) : List Instance :=
  instances.zipIdx.map fun (shown, position) => { shown with position := (position : Int) }

/-- An instance in short, behind its position. -/
def line (shown : Instance) : Except NumeralError String := do
  let description ← shown.describe
  .ok s!"{shown.position}: {description}"

end Instance

end DeckBinding
