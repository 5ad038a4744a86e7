import DeckBinding.Value.Basic

set_option autoImplicit false

namespace DeckBinding.Value

/-- A named member of a mapping. What is no mapping has no members. -/
def member? (value : Value) (name : String) : Option Value :=
  match value with
  | .map entries => Entries.find? entries (.text name)
  | _ => none

/-- An item of a sequence by its position from zero. Nothing has items at other positions. -/
def item? (value : Value) (index : Int) : Option Value :=
  match value.items? with
  | some items => if index < 0 then none else items[index.toNat]?
  | none => none

theorem item?_of_neg (value : Value) {index : Int} (negative : index < 0) :
    value.item? index = none := by
  unfold item?
  split <;> simp [negative]

theorem item?_natCast (value : Value) (index : Nat) :
    value.item? index = value.items?.bind fun items => items[index]? := by
  unfold item?
  split <;> rename_i items
  · simp [items, Int.not_lt.2 (Int.natCast_nonneg index)]
  · simp [items]

end DeckBinding.Value
