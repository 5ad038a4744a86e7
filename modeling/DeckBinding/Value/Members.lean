import DeckBinding.Value.Integer

set_option autoImplicit false

namespace DeckBinding

namespace Value

/-- Whether a value counts as given: zeros, empty texts and containers, and null do not. -/
def isGiven : Value → Bool
  | .null => false
  | .bool b => b
  | .int n => n != 0
  | .float (.finite _ significand _) => significand != 0
  | .decimal (.finite _ coefficient _) => coefficient != 0
  | .text s => !s.isEmpty
  | .bytes content => !content.isEmpty
  | .list items => !items.isEmpty
  | .tuple items => !items.isEmpty
  | .map entries => !entries.isEmpty
  | _ => true

/-- Why a value cannot be the key of a member: its kind can be changed in place, or it is an
undefined decimal that must not be used. -/
inductive KeyError where
  | kind (name : String)
  | signaling
deriving DecidableEq

def KeyError.message : KeyError → String
  | .kind name => s!"unhashable type: '{name}'"
  | .signaling => "Cannot hash a signaling NaN value"

mutual

def keyError? : Value → Option KeyError
  | .list _ => some (.kind "list")
  | .map _ => some (.kind "dict")
  | .record _ => some (.kind "Record")
  | .decimal (.undefined _ true _) => some .signaling
  | .tuple items => keyErrorIn? items
  | _ => none
termination_by structural value => value

def keyErrorIn? : List Value → Option KeyError
  | [] => none
  | item :: rest =>
    match keyError? item with
    | some error => some error
    | none => keyErrorIn? rest
termination_by structural items => items

end

/-- Why a value is no mapping and cannot be read as one. -/
inductive MembersError where
  | notIterable (kind : String)
  | notAPair (index : Nat)
  | pairLength (index length : Nat)
  | key (error : KeyError)
deriving DecidableEq

def MembersError.message : MembersError → String
  | .notIterable kind => s!"'{kind}' object is not iterable"
  | .notAPair index =>
    s!"cannot convert dictionary update sequence element #{index} to a sequence"
  | .pairLength index length =>
    s!"dictionary update sequence element #{index} has length {length}; 2 is required"
  | .key error => error.message

/-- The parts of a value that has parts: characters, bytes, items or keys. -/
def parts? : Value → Option (List Value)
  | .text s => some (s.toList.map fun c => .text (String.singleton c))
  | .bytes content => some (content.map fun byte => .int byte.toNat)
  | .map entries => some (entries.map (·.1))
  | value => value.items?

def pairMembers (entries : Entries) (index : Nat) : List Value → Except MembersError Entries
  | [] => .ok entries
  | item :: rest =>
    match item.parts? with
    | none => .error (.notAPair index)
    | some [key, value] =>
      match key.keyError? with
      | none => pairMembers (entries.insert key value) (index + 1) rest
      | some error => .error (.key error)
    | some parts => .error (.pairLength index parts.length)

/-- The members of a mapping, or of a sequence of pairs. -/
def toMembers (value : Value) : Except MembersError Entries :=
  match value with
  | .map entries => .ok entries
  | value =>
    match value.parts? with
    | some items => pairMembers [] 0 items
    | none => .error (.notIterable value.kindName)

end Value

end DeckBinding
