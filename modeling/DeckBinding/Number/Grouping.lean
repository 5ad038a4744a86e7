import DeckBinding.Number.Power

set_option autoImplicit false

namespace DeckBinding.Number

/-- Digits, least significant first, with a comma behind every third of them that is followed by
another. -/
def groupReversed : List Char → List Char
  | a :: b :: c :: d :: rest => a :: b :: c :: ',' :: groupReversed (d :: rest)
  | digits => digits

def groupThousands (digits : List Char) : List Char :=
  (groupReversed digits.reverse).reverse

/-- A natural number of units of `10 ^ -places` with exactly that many fraction digits. -/
def fixedPoint (grouped : Bool) (places units : Nat) : List Char :=
  let whole := Nat.toDigits 10 (units / tenTo places)
  let fraction := Nat.toDigits 10 (units % tenTo places)
  (if grouped then groupThousands whole else whole) ++
    (if places = 0 then []
     else '.' :: (List.replicate (places - fraction.length) '0' ++ fraction))

end DeckBinding.Number
