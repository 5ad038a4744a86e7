import DeckBinding.Plan.Instance
import DeckBinding.Value.Basic

set_option autoImplicit false

namespace DeckBinding

open DeckBinding.Number

inductive Absence where
  | noContextElement (context : ContextPath)
  | noIteration (collection : String)
  | noElement (collection : String) (index : Int)
  | emptyParent (collection : String)
  | noMember (name path : String)
  | outOfRange (index : Int) (collection : String)
deriving DecidableEq

def Absence.reason : Absence → Except NumeralError String
  | .noContextElement context => do
    let place ← context.text
    .ok s!"no element for context {place}"
  | .noIteration collection => .ok s!"no iteration context for '{collection}'"
  | .noElement collection index => do
    let number ← write index
    .ok s!"'{collection}' has no element {number}"
  | .emptyParent collection => .ok s!"'{collection}' is empty"
  | .noMember name path => .ok s!"no member '{name}' in '{path}'"
  | .outOfRange index collection => do
    let number ← write index
    .ok s!"index {number} out of range for '{collection}'"

/-- A function call left to the document. The token stands in the text where the call stood. -/
structure Deferred where
  name : String
  owner : Option String
  arguments : List Value
  token : String
  format : Option String

/-- What an expression turns into: a text, a call left to the document, or nothing, which hides its
shape for a reason. -/
inductive Resolution where
  | value (text : String)
  | call (deferred : Deferred)
  | hidden (reason : String)

namespace Resolution

def text : Resolution → String
  | .value text => text
  | .call deferred => deferred.token
  | .hidden _ => ""

def reason? : Resolution → Option String
  | .hidden reason => some reason
  | _ => none

def deferred? : Resolution → Option Deferred
  | .call deferred => some deferred
  | _ => none

end Resolution

/-- A piece of a text after resolution: characters that stay, or what stands for an expression. -/
inductive Filling where
  | kept (text : List Char)
  | filled (resolution : Resolution)

namespace Filling

def text : Filling → List Char
  | .kept text => text
  | .filled resolution => resolution.text.toList

def resolution? : Filling → Option Resolution
  | .kept _ => none
  | .filled resolution => some resolution

end Filling

/-- The start and end of what stands for expressions, when the first filling starts at a
position. -/
def filledSpans (start : Nat) : List Filling → List (Nat × Nat)
  | [] => []
  | .kept text :: rest => filledSpans (start + text.length) rest
  | .filled resolution :: rest =>
    let stop := start + resolution.text.toList.length
    (start, stop) :: filledSpans stop rest

/-- A text with its expressions replaced: the reasons for hiding its shape, the calls left to the
document, and the start and end of what stands for each expression. -/
structure TextResolution where
  text : List Char
  reasons : List String
  deferred : List Deferred
  spans : List (Nat × Nat)

namespace TextResolution

def ofFillings (fillings : List Filling) : TextResolution :=
  let resolutions := fillings.filterMap Filling.resolution?
  { text := fillings.flatMap Filling.text
    reasons := resolutions.filterMap Resolution.reason?
    deferred := resolutions.filterMap Resolution.deferred?
    spans := filledSpans 0 fillings }

def hidden (resolution : TextResolution) : Bool :=
  !resolution.reasons.isEmpty

end TextResolution

end DeckBinding
