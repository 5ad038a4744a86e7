import DeckBinding.Path.Reader
import DeckBinding.Value.Access

set_option autoImplicit false

namespace DeckBinding

/-- The value a segment leads to: a member, then an element of it when the segment has an index.
An absent value has no members. -/
def Segment.from? (segment : Segment) (value : Value) : Option Value :=
  match value with
  | .null => none
  | value =>
    match segment.index with
    | none => value.member? segment.name
    | some index => (value.member? segment.name).bind fun found => found.item? index

def followSegments (value : Value) : List Segment → Option Value
  | [] => some value
  | segment :: rest => (segment.from? value).bind fun next => followSegments next rest

def Path.segments (path : Path) : List Segment :=
  path.first :: path.rest.map (·.2)

/-- The value a path leads to from a value, joins of both kinds read as members. -/
def Path.from? (path : Path) (value : Value) : Option Value :=
  followSegments value path.segments

/-- The value a path text leads to from a value; the text may not hold `>`. -/
def walk (value : Value) (text : List Char) : Except (ReadFailure PathError) (Option Value) := do
  let path ← Path.readAbsolute text
  .ok (path.from? value)

theorem followSegments_append (value : Value) (front back : List Segment) :
    followSegments value (front ++ back) =
      (followSegments value front).bind fun next => followSegments next back := by
  induction front generalizing value with
  | nil => rfl
  | cons segment front ih =>
    simp only [List.cons_append, followSegments]
    cases segment.from? value with
    | none => rfl
    | some next => simp [ih]

end DeckBinding
