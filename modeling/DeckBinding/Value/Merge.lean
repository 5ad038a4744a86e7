import DeckBinding.Value.Basic

set_option autoImplicit false

namespace DeckBinding

mutual

/-- The members of one mapping laid over those of another: keys of the first keep their place, new
keys follow. -/
def Entries.merge (base : Entries) : List (Value × Value) → Entries
  | [] => base
  | (key, value) :: rest =>
    Entries.merge (base.insert key (Value.mergeOver (base.find? key) value)) rest
termination_by structural overlay => overlay

/-- A value laid over what was there before: mappings are merged, anything else is replaced. -/
def Value.mergeOver (current : Option Value) : Value → Value
  | .map overlay =>
    match current with
    | some (.map base) => .map (Entries.merge base overlay)
    | _ => .map overlay
  | value => value
termination_by structural value => value

end

end DeckBinding
