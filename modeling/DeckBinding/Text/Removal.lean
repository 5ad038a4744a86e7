set_option autoImplicit false

namespace DeckBinding.Text

/-- Reads off the occurrences of a text that follow each other without overlap, and keeps the rest.
`skip` characters are still part of the last occurrence. -/
def removeFrom (part : List Char) (skip : Nat) : List Char → List Char
  | [] => []
  | c :: rest =>
    match skip with
    | skip + 1 => removeFrom part skip rest
    | 0 =>
      if part.isPrefixOf (c :: rest) then removeFrom part (part.length - 1) rest
      else c :: removeFrom part 0 rest

/-- A text without the occurrences of a part. The empty part occurs nowhere. -/
def remove (part cs : List Char) : List Char :=
  if part.isEmpty then cs else removeFrom part 0 cs

/-- Taking a part out adds no character. -/
theorem removeFrom_sublist (part : List Char) (skip : Nat) (cs : List Char) :
    (removeFrom part skip cs).Sublist cs := by
  induction cs generalizing skip with
  | nil => exact List.Sublist.refl _
  | cons c rest ih =>
    cases skip with
    | succ skip => exact (ih skip).trans (List.sublist_cons_self c rest)
    | zero =>
      simp only [removeFrom]
      split
      · exact (ih _).trans (List.sublist_cons_self c rest)
      · exact (ih 0).cons_cons c

end DeckBinding.Text
