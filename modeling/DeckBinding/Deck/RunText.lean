import DeckBinding.Text.Quoted

set_option autoImplicit false

namespace DeckBinding

open DeckBinding.Text

/-- Why a deck cannot hold a text: it has a character that no document may have, or halves of
surrogate pairs from one position to another. -/
inductive RunTextError where
  | forbidden
  | surrogates (code first last : Nat)
deriving DecidableEq

def RunTextError.message : RunTextError → String
  | .forbidden =>
    "All strings must be XML compatible: Unicode or ASCII, no NULL bytes or control characters"
  | .surrogates code first last =>
    let place :=
      if first = last then
        s!"character '\\u{String.ofList (hexDigits 4 code)}' in position {first}"
      else s!"characters in position {first}-{last}"
    s!"'utf-8' codec can't encode {place}: surrogates not allowed"

def isControl (c : Char) : Bool :=
  c.toNat < 0x20 && c != '\t' && c != '\n'

/-- A character as a deck holds it: a control character is its number in four digits. -/
def heldChar (c : Char) : List Char :=
  if isControl c then '_' :: 'x' :: ((hexDigits 4 c.toNat).map Char.toUpper ++ ['_']) else [c]

def heldText (cs : List Char) : List Char :=
  cs.flatMap heldChar

/-- A text on a notes page as a deck holds it. The vertical tabulator breaks a line there. -/
def heldNotes (cs : List Char) : List Char :=
  cs.flatMap fun c => if c == '\x0b' then [c] else heldChar c

/-- The first halves of surrogate pairs that follow each other in a text, which starts at a
position: the number of the first half, and the positions of the first and the last one. -/
def surrogatesFrom? (position : Nat) : List Char → Option (Nat × Nat × Nat)
  | [] => none
  | c :: rest =>
    if isSurrogate (codeOf c) then
      let more := rest.takeWhile fun next => isSurrogate (codeOf next)
      some (codeOf c, position, position + more.length)
    else surrogatesFrom? (position + 1) rest

def runTextError? (cs : List Char) : Option RunTextError :=
  match surrogatesFrom? 0 (heldText cs) with
  | some (code, first, last) => some (.surrogates code first last)
  | none =>
    if cs.any fun c => c.toNat == 0xfffe || c.toNat == 0xffff then some .forbidden else none

/-- A text without control characters is held as it is. -/
theorem heldText_eq_self {cs : List Char} (plain : ∀ c ∈ cs, isControl c = false) :
    heldText cs = cs := by
  induction cs with
  | nil => rfl
  | cons c rest ih =>
    have first : heldChar c = [c] := by simp [heldChar, plain c List.mem_cons_self]
    have others : heldText rest = rest := ih fun d inside => plain d (List.mem_cons_of_mem c inside)
    unfold heldText at others ⊢
    rw [List.flatMap_cons, first, others]
    rfl

end DeckBinding
