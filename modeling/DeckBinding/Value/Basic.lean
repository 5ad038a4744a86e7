import DeckBinding.Calendar.Moment
import DeckBinding.Number.Binary64
import DeckBinding.Number.Decimal

set_option autoImplicit false

namespace DeckBinding

open DeckBinding.Calendar DeckBinding.Number

/-- The data bound to a template: scalars, sequences and mappings. A record is a mapping whose
member names are fixed by its kind, a tuple a sequence of fixed length. -/
inductive Value where
  | null
  | bool (b : Bool)
  | int (n : Int)
  | float (x : Binary64)
  | decimal (d : Decimal)
  | date (day : Date)
  | moment (time : Moment)
  | text (s : String)
  | bytes (content : List UInt8)
  | list (items : List Value)
  | tuple (items : List Value)
  | map (entries : List (Value × Value))
  | record (fields : List (String × Value))
deriving Inhabited

abbrev Entries := List (Value × Value)

namespace Value

/-- The items of a sequence. Texts and bytes are scalars. -/
def items? : Value → Option (List Value)
  | .list items => some items
  | .tuple items => some items
  | _ => none

def isSequence (value : Value) : Bool :=
  value.items?.isSome

/-- A finite number in decimal form: a binary place is a decimal place whose digit takes in a factor
of five. -/
def decimalForm? : Value → Option (Bool × Nat × Int)
  | .bool b => some (false, if b then 1 else 0, 0)
  | .int n => some (n < 0, n.natAbs, 0)
  | .float (.finite negative significand exponent) =>
    some (negative, significand * twoTo exponent.toNat * Nat.pow 5 (-exponent).toNat, min exponent 0)
  | .decimal (.finite negative coefficient exponent) => some (negative, coefficient, exponent)
  | _ => none

def infinity? : Value → Option Bool
  | .float (.infinite negative) => some negative
  | .decimal (.infinite negative) => some negative
  | _ => none

/-- Whether two values are one number, whatever their kinds. -/
def sameNumber (left right : Value) : Bool :=
  match left.decimalForm?, right.decimalForm? with
  | some (m, c, e), some (n, d, f) =>
    Decimal.sameMagnitude c e d f && (m == n || c == 0)
  | none, none => left.infinity?.isSome && left.infinity? == right.infinity?
  | _, _ => false

mutual

/-- Whether two values are one key of a mapping. -/
def sameKey : Value → Value → Bool
  | .text s, .text t => s == t
  | .null, .null => true
  | .int m, .int n => m == n
  | .date d, .date e => d == e
  | .moment m, .moment n => m.sameInstant n
  | .bytes b, .bytes c => b == c
  | .tuple items, .tuple others => sameKeys items others
  | left, right => left.sameNumber right
termination_by structural left => left

def sameKeys : List Value → List Value → Bool
  | [], [] => true
  | item :: items, other :: others => sameKey item other && sameKeys items others
  | _, _ => false
termination_by structural items => items

end

end Value

namespace Entries

def find? (entries : Entries) (key : Value) : Option Value :=
  (List.find? (fun entry : Value × Value => entry.1.sameKey key) entries).map (·.2)

/-- Sets a member of a mapping: in its place when the key is there, else at the end. -/
def insert (entries : Entries) (key value : Value) : Entries :=
  match entries with
  | [] => [(key, value)]
  | (known, old) :: rest =>
    if known.sameKey key then (known, value) :: rest
    else (known, old) :: insert rest key value

/-- A mapping of the members in order; a repeated key keeps its first place and its last value. -/
def ofList (members : List (Value × Value)) : Entries :=
  members.foldl (fun entries member => insert entries member.1 member.2) []

end Entries

end DeckBinding
