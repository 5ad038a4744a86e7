import DeckBinding.Text.Blank
import DeckBinding.Text.Digit
import DeckBinding.Text.Lines

set_option autoImplicit false

namespace DeckBinding

open DeckBinding.Text

/-- The notes page of a slide: there is none, it has no text, or it has one. -/
inductive Notes where
  | absent
  | textless
  | text (content : List Char)
deriving DecidableEq

/-- Whether a line holds only a slide number: up to three digits with blanks around them. -/
def isSlideNumber (line : List Char) : Bool :=
  let digits := (trimLeft line).takeWhile isDecimalDigit
  !digits.isEmpty && digits.length ≤ 3 && ((trimLeft line).drop digits.length).all isBlank

/-- The keywords of the lines that are left out of the notes of a copied slide. -/
def noteKeywords : List (List Char) :=
  ["foreach".toList, "range-begin".toList, "range-end".toList, "alias".toList]

/-- Whether a character stands for a small letter of a keyword: the letter in either case, or
another letter with the same capital or small form. -/
def isKeywordLetter (letter c : Char) : Bool :=
  c == letter || c == letter.toUpper || (letter == 'i' && (c == '\u0130' || c == '\u0131'))
    || (letter == 's' && c == '\u017f')

/-- What stands behind a keyword, if a text starts with it in any case. -/
def dropKeyword? : List Char → List Char → Option (List Char)
  | [], cs => some cs
  | _ :: _, [] => none
  | letter :: keyword, c :: rest => if isKeywordLetter letter c then dropKeyword? keyword rest else none

/-- Whether a line starts with a directive: a hash, a keyword and a colon. -/
def isDirectiveLine (line : List Char) : Bool :=
  match trimLeft line with
  | '#' :: rest =>
    noteKeywords.any fun keyword =>
      match dropKeyword? keyword rest with
      | some behind => (trimLeft behind).head? == some ':'
      | none => false
  | _ => false

namespace Notes

/-- The text of the notes without the lines that hold only a slide number. -/
def spoken : Notes → List Char
  | .text content => joinWith ['\n'] ((lines content).filter fun line => !isSlideNumber line)
  | _ => []

/-- The text of the notes without the lines that start with a directive, trimmed. -/
def kept (notes : Notes) : List Char :=
  trim (joinWith ['\n'] ((lines notes.spoken).filter fun line => !isDirectiveLine line))

/-- The notes of a copied slide. It has no notes page when nothing is kept. -/
def copy (notes : Notes) : Notes :=
  if notes.kept.isEmpty then .absent else .text notes.kept

end Notes

end DeckBinding
