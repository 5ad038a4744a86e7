import DeckBinding.Number.Binary64

set_option autoImplicit false

namespace DeckBinding

open DeckBinding.Number

/-- The place in a text of `size` characters that a position names: a negative one counts from the
end, and none lies outside of the text. -/
def placeIn (size : Nat) (position : Int) : Nat :=
  if position < 0 then (position + size).toNat else min position.toNat size

def between (text : List Char) (start stop : Int) : List Char :=
  (text.take (placeIn text.length stop)).drop (placeIn text.length start)

def behind (text : List Char) (start : Int) : List Char :=
  text.drop (placeIn text.length start)

/-- The end of the first span that a position lies strictly inside of, or the position itself. -/
def pushOut (spans : List (Int × Int)) (position : Int) : Int :=
  match spans.find? fun (start, stop) => start < position && position < stop with
  | some (_, stop) => stop
  | none => position

/-- The positions where a text is cut into pieces in proportion to lengths, all but the last. No cut
lies inside a span, and none lies before the one in front of it. -/
def cutPositions (size : Nat) (ratio : Binary64) (spans : List (Int × Int)) (running : Int)
    (previous : Nat) : List Int → List Nat
  | [] => []
  | [_] => []
  | length :: rest =>
    let running := running + length
    let exact := (Binary64.ofQuotient (running < 0) running.natAbs 1).mul ratio
    let cut := (min (max (pushOut spans (exact.round?.getD 0)) previous) size).toNat
    cut :: cutPositions size ratio spans running cut rest

/-- A text cut at positions, when the first piece starts at a position. -/
def cutFrom (text : List Char) (start : Nat) : List Nat → List (List Char)
  | [] => [text.drop start]
  | cut :: rest => (text.take cut).drop start :: cutFrom text cut rest

/-- The number of characters of a text of `size` characters for each one of the lengths; none when
the text is less than half or more than twice as long as all of them together. -/
def spreadRatio? (size : Nat) (lengths : List Int) : Option Binary64 :=
  let whole := lengths.foldl (· + ·) 0
  if whole ≤ 0 || size == 0 then none
  else
    let ratio := Binary64.ofQuotient false size whole.toNat
    if ratio.lessThan (.ofQuotient false 1 2) || (Binary64.ofQuotient false 2 1).lessThan ratio then
      none
    else some ratio

/-- A text in pieces in proportion to lengths, if it is about as long as all of them together. -/
def splitProportionally? (text : List Char) (lengths : List Int) (spans : List (Int × Int)) :
    Option (List (List Char)) :=
  (spreadRatio? text.length lengths).map fun ratio =>
    cutFrom text 0 (cutPositions text.length ratio spans 0 0 lengths)

/-- The values in a text and the texts between them, when what lies before a position is done. -/
def piecesByValue (text : List Char) (start : Int) : List (Int × Int) → List (List Char)
  | [] => if start < text.length then [behind text start] else []
  | (first, stop) :: rest =>
    (if start < first then [between text start first] else [])
      ++ (if first < stop then [between text first stop] else [])
      ++ piecesByValue text (max start stop) rest

/-- A piece for each value, together with the text in front of it; the last one takes the rest. -/
def foldedByValue (text : List Char) (start : Int) : List (Int × Int) → List (List Char)
  | [] => []
  | [_] => [behind text start]
  | (_, stop) :: rest => between text start stop :: foldedByValue text stop rest

/-- A text in at most `count` pieces that keep each value whole; none when there are more values. -/
def splitByValue? (text : List Char) (count : Nat) (spans : List (Int × Int)) :
    Option (List (List Char)) :=
  let pieces := piecesByValue text 0 spans
  if pieces.length ≤ count then some pieces
  else
    let values := spans.filter fun (start, stop) => start < stop
    if values.isEmpty || count < values.length then none
    else some (foldedByValue text 0 values)

/-- Spreads a text over as many pieces as there are lengths: in proportion to the lengths, else by
its values, else all in the first piece. `spans` are the parts that stay whole. -/
def redistribute (text : List Char) (lengths : List Int) (spans : List (Int × Int)) :
    List (List Char) :=
  if lengths.length = 1 then [text]
  else match splitProportionally? text lengths spans with
    | some pieces => pieces
    | none =>
      let pieces := (splitByValue? text lengths.length spans).getD [text]
      pieces ++ List.replicate (lengths.length - pieces.length) []

/-- Why lengths, some of which are below zero, give no positions for cuts: several of them together
are no double, or a position has no end. -/
inductive SpreadError where
  | lengthTooLarge
  | endless
deriving DecidableEq

def SpreadError.message : SpreadError → String
  | .lengthTooLarge => "int too large to convert to float"
  | .endless => "cannot convert float infinity to integer"

def cutError? (ratio : Binary64) (running : Int) : List Int → Option SpreadError
  | [] => none
  | [_] => none
  | length :: rest =>
    match Binary64.ofInt? (running + length) with
    | none => some .lengthTooLarge
    | some exact =>
      match (exact.mul ratio).round? with
      | none => some .endless
      | some _ => cutError? ratio (running + length) rest

def spreadError? (text : List Char) (lengths : List Int) : Option SpreadError :=
  if lengths.length = 1 then none
  else (spreadRatio? text.length lengths).bind fun ratio => cutError? ratio 0 lengths

end DeckBinding
