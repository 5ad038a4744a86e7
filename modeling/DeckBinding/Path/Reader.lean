import DeckBinding.Number.Numeral
import DeckBinding.Path.Basic
import DeckBinding.Text.Word

set_option autoImplicit false

namespace DeckBinding

open DeckBinding.Number DeckBinding.Text

inductive PathError where
  | empty
  | malformedSegment (token path : List Char)
  | contextJoin (path : List Char)
deriving DecidableEq

def PathError.message : PathError → String
  | .empty => "Empty data path"
  | .malformedSegment token path =>
    s!"Malformed segment '{String.ofList token}' in path '{String.ofList path}'"
  | .contextJoin path => s!"Context operator not allowed in '{String.ofList path}'"

/-- A failure while a text is read: the text breaks the rules of its notation, or it holds a
numeral that cannot be converted. -/
inductive ReadFailure (ε : Type) where
  | malformed (error : ε)
  | numeral (error : NumeralError)
deriving DecidableEq

def ReadFailure.message : ReadFailure PathError → String
  | .malformed error => error.message
  | .numeral error => error.message

def takeName? : List Char → Option (List Char × List Char)
  | [] => none
  | c :: rest =>
    if isNameStart c then some (c :: rest.takeWhile isWord, rest.dropWhile isWord) else none

/-- The digits between brackets at the front of a text, with what follows the brackets. -/
def takeIndex? : List Char → Option (List Char × List Char)
  | '[' :: rest =>
    let rest := trimLeft rest
    let digits := rest.takeWhile isDecimalDigit
    match trimLeft (rest.drop digits.length) with
    | ']' :: after => if digits.isEmpty then none else some (digits, after)
    | _ => none
  | _ => none

/-- A segment before its index is converted: the name and the digits of the index. Blanks may stand
around the name and around the digits. -/
def splitSegment? (token : List Char) : Option (List Char × Option (List Char)) := do
  let (name, rest) ← takeName? (trimLeft token)
  match trimLeft rest with
  | [] => some (name, none)
  | rest => do
    let (digits, after) ← takeIndex? rest
    if after.all isBlank then some (name, some digits) else none

def readSegment (path token : List Char) : Except (ReadFailure PathError) Segment :=
  match splitSegment? token with
  | none => .error (.malformed (.malformedSegment token path))
  | some (name, none) => .ok ⟨String.ofList name, none⟩
  | some (name, some digits) =>
    match readDigits digits with
    | .ok index => .ok ⟨String.ofList name, some index⟩
    | .error error => .error (.numeral error)

/-- Cuts a text at its joins: the token in front of the first join, and each join with the token
behind it. -/
def cutAtJoins : List Char → List Char × List (Join × List Char)
  | [] => ([], [])
  | c :: rest =>
    let (token, more) := cutAtJoins rest
    match Join.ofChar? c with
    | some join => ([], (join, token) :: more)
    | none => (c :: token, more)

def readSegments (path : List Char) :
    List (Join × List Char) → Except (ReadFailure PathError) (List (Join × Segment))
  | [] => .ok []
  | (join, token) :: rest => do
    let segment ← readSegment path token
    let segments ← readSegments path rest
    .ok ((join, segment) :: segments)

/-- Reads a path: segments with `.` or `>` between them. -/
def Path.read (text : List Char) : Except (ReadFailure PathError) Path :=
  if (trim text).isEmpty then .error (.malformed .empty)
  else do
    let (token, more) := cutAtJoins (trim text)
    let first ← readSegment text token
    let rest ← readSegments text more
    .ok ⟨first, rest⟩

def Path.ofString (text : String) : Except (ReadFailure PathError) Path :=
  Path.read text.toList

/-- Reads a path that names a value below a given one, so one without `>`. -/
def Path.readAbsolute (text : List Char) : Except (ReadFailure PathError) Path := do
  let path ← Path.read text
  if path.usesContext then .error (.malformed (.contextJoin text)) else .ok path

end DeckBinding
