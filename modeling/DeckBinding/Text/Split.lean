import DeckBinding.Text.Lines

set_option autoImplicit false

namespace DeckBinding.Text

def cutAt (separator : Char) : List Char → List Char × List (List Char)
  | [] => ([], [])
  | c :: rest =>
    let (part, more) := cutAt separator rest
    if c = separator then ([], part :: more) else (c :: part, more)

/-- The parts of a text between separators. There is always one. -/
def splitAt (separator : Char) (cs : List Char) : List (List Char) :=
  (cutAt separator cs).1 :: (cutAt separator cs).2

def splitString (separator : Char) (s : String) : List String :=
  (splitAt separator s.toList).map String.ofList

/-- The parts with the separator between them give the text back. -/
theorem joinWith_splitAt (separator : Char) (cs : List Char) :
    joinWith [separator] (splitAt separator cs) = cs := by
  induction cs with
  | nil => rfl
  | cons c rest ih =>
    unfold splitAt at ih ⊢
    simp only [cutAt]
    by_cases same : c = separator
    · simp [same, joinWith, ih]
    · rw [if_neg same]
      cases more : (cutAt separator rest).2 with
      | nil => simp_all [joinWith]
      | cons next more => simp_all [joinWith]

/-- A text without the separator is one part. -/
theorem splitAt_of_not_mem {separator : Char} {cs : List Char} (absent : separator ∉ cs) :
    splitAt separator cs = [cs] := by
  induction cs with
  | nil => rfl
  | cons c rest ih =>
    have apart : c ≠ separator := fun same => absent (same ▸ List.mem_cons_self)
    have alone := ih fun member => absent (List.mem_cons_of_mem c member)
    unfold splitAt at alone ⊢
    simp only [List.cons.injEq] at alone
    simp [cutAt, apart, alone.1, alone.2]

end DeckBinding.Text
