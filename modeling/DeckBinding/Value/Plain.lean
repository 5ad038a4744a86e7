import DeckBinding.Value.Basic

set_option autoImplicit false

namespace DeckBinding.Value

mutual

/-- A value without records and tuples: a record becomes a mapping by its field names, a tuple a
list, and so for everything inside. -/
def plain : Value → Value
  | .null => .null
  | .bool b => .bool b
  | .int n => .int n
  | .float x => .float x
  | .decimal d => .decimal d
  | .date day => .date day
  | .moment time => .moment time
  | .text s => .text s
  | .bytes content => .bytes content
  | .list items => .list (plainItems items)
  | .tuple items => .list (plainItems items)
  | .map entries => .map (plainEntries entries)
  | .record fields => .map (plainFields fields)
termination_by structural value => value

def plainItems : List Value → List Value
  | [] => []
  | item :: rest => plain item :: plainItems rest
termination_by structural items => items

/-- The members without records and tuples; the keys stay. -/
def plainEntries : List (Value × Value) → List (Value × Value)
  | [] => []
  | (key, value) :: rest => (key, plain value) :: plainEntries rest
termination_by structural entries => entries

def plainFields : List (String × Value) → List (Value × Value)
  | [] => []
  | (name, value) :: rest => (.text name, plain value) :: plainFields rest
termination_by structural fields => fields

end

mutual

/-- Whether some value inside of a value, or the value itself, has a property. -/
def holds (property : Value → Bool) : Value → Bool
  | .list items => property (.list items) || holdsItem property items
  | .tuple items => property (.tuple items) || holdsItem property items
  | .map entries => property (.map entries) || holdsEntry property entries
  | .record fields => property (.record fields) || holdsField property fields
  | value => property value
termination_by structural value => value

def holdsItem (property : Value → Bool) : List Value → Bool
  | [] => false
  | item :: rest => holds property item || holdsItem property rest
termination_by structural items => items

def holdsEntry (property : Value → Bool) : List (Value × Value) → Bool
  | [] => false
  | (key, value) :: rest =>
    holds property key || holds property value || holdsEntry property rest
termination_by structural entries => entries

def holdsField (property : Value → Bool) : List (String × Value) → Bool
  | [] => false
  | (_, value) :: rest => holds property value || holdsField property rest
termination_by structural fields => fields

end

def holdsRecord (value : Value) : Bool :=
  value.holds fun part => match part with
    | .record _ => true
    | _ => false

/-- Whether there is an integer in a value that has too many digits to be written. -/
def holdsUnwritable (value : Value) : Bool :=
  value.holds fun part => match part with
    | .int n => (Number.write n).toOption.isNone
    | _ => false

/-- Whether two readings of a value are equal: records are each of a kind of their own, and what is
undefined equals nothing. -/
def equalsReading (value : Value) : Bool :=
  !value.holds fun part => match part with
    | .record _ => true
    | .float .undefined => true
    | .decimal (.undefined ..) => true
    | _ => false

theorem plainItems_eq_map (items : List Value) : plainItems items = items.map plain := by
  induction items with
  | nil => rfl
  | cons item rest ih => simp [plainItems, ih]

theorem plainEntries_eq_map (entries : List (Value × Value)) :
    plainEntries entries = entries.map fun entry => (entry.1, plain entry.2) := by
  induction entries with
  | nil => rfl
  | cons entry rest ih => simp [plainEntries, ih]

end DeckBinding.Value
