set_option autoImplicit false

namespace DeckBinding

/-- Where a range marker stands: at the first slide of a range, at the last one, or on its own. -/
inductive RangeBoundary where
  | single
  | begins
  | ends
deriving DecidableEq

/-- An instruction in the notes of a slide: repeat the slide over a collection, mark a range of
slides that repeats over one, or give a path a short name. A `max` of zero stands for none. -/
inductive Directive where
  | foreach (path : String) (max offset : Nat)
  | range (boundary : RangeBoundary) (path : String)
  | alias (path name : String)
deriving DecidableEq

namespace Directive

def path : Directive → String
  | .foreach path _ _ => path
  | .range _ path => path
  | .alias path _ => path

def rangeBegin? : Directive → Option String
  | .range .begins path => some path
  | _ => none

def rangeEnd? : Directive → Option String
  | .range .ends path => some path
  | _ => none

end Directive

end DeckBinding
