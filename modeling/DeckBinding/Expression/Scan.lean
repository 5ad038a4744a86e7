set_option autoImplicit false

namespace DeckBinding

/-- A piece of template text: a character that stands as it is, or a complete expression, given by
what its braces hold. -/
inductive Piece where
  | plain (c : Char)
  | bound (body : List Char)
deriving DecidableEq

def isBodyChar (c : Char) : Bool :=
  c != '\x7b' && c != '\x7d'

/-- The complete expression at the front of a text: what its braces hold, and what follows. -/
def takeExpression? : List Char → Option (List Char × List Char)
  | '$' :: '\x7b' :: rest =>
    match rest.dropWhile isBodyChar with
    | '\x7d' :: after => some (rest.takeWhile isBodyChar, after)
    | _ => none
  | _ => none

theorem length_of_takeExpression? {cs body after : List Char}
    (found : takeExpression? cs = some (body, after)) : after.length < cs.length := by
  unfold takeExpression? at found
  split at found
  · rename_i rest
    split at found
    · rename_i closing matched
      simp only [Option.some.injEq, Prod.mk.injEq] at found
      have bound := (List.dropWhile_sublist isBodyChar (l := rest)).length_le
      rw [matched, found.2] at bound
      simp only [List.length_cons] at bound ⊢
      omega
    · cases found
  · cases found

def braced (body : List Char) : List Char :=
  '$' :: '\x7b' :: (body ++ ['\x7d'])

def pieces : List Char → List Piece
  | [] => []
  | c :: rest =>
    match _found : takeExpression? (c :: rest) with
    | some (body, after) => .bound body :: pieces after
    | none => .plain c :: pieces rest
termination_by cs => cs.length
decreasing_by
  · exact length_of_takeExpression? _found
  · simp only [List.length_cons]; omega

def Piece.text : Piece → List Char
  | .plain c => [c]
  | .bound body => braced body

/-- The start and end of the expressions among the pieces, when the first piece starts at a
position. -/
def spansFrom (start : Nat) : List Piece → List (Nat × Nat)
  | [] => []
  | .plain _ :: rest => spansFrom (start + 1) rest
  | .bound body :: rest =>
    let stop := start + (braced body).length
    (start, stop) :: spansFrom stop rest

/-- The start and end of every complete expression in a text. -/
def expressionSpans (cs : List Char) : List (Nat × Nat) :=
  spansFrom 0 (pieces cs)

/-- The plain quote an editor's typographic quote stands for; other characters stay. -/
def plainQuote (c : Char) : Char :=
  if c = '\u201c' ∨ c = '\u201d' then '"'
  else if c = '\u2018' ∨ c = '\u2019' then '\''
  else c

def Piece.withPlainQuotes : Piece → Piece
  | .plain c => .plain c
  | .bound body => .bound (body.map plainQuote)

/-- The text with plain quotes inside its expressions, and nothing else changed. -/
def withPlainQuotes (cs : List Char) : List Char :=
  (pieces cs).flatMap fun piece => piece.withPlainQuotes.text

theorem text_of_takeExpression? {cs body after : List Char}
    (found : takeExpression? cs = some (body, after)) : cs = braced body ++ after := by
  unfold takeExpression? at found
  split at found
  · rename_i rest
    split at found
    · rename_i closing matched
      simp only [Option.some.injEq, Prod.mk.injEq] at found
      have whole := List.takeWhile_append_dropWhile (p := isBodyChar) (l := rest)
      rw [matched, found.1, found.2] at whole
      simp [braced, ← whole]
    · cases found
  · cases found

/-- Cutting a text into pieces loses nothing. -/
theorem flatMap_text_pieces (cs : List Char) : (pieces cs).flatMap Piece.text = cs := by
  fun_induction pieces cs with
  | case1 => rfl
  | case2 c rest body after found ih =>
    rw [List.flatMap_cons, ih, Piece.text, text_of_takeExpression? found]
  | case3 c rest found ih => simp [Piece.text, ih]

end DeckBinding
