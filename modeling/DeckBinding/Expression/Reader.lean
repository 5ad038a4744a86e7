import DeckBinding.Expression.Basic
import DeckBinding.Expression.Scan
import DeckBinding.Path.Reader
import DeckBinding.Text.Quoted

set_option autoImplicit false

namespace DeckBinding

open DeckBinding.Text

inductive ExpressionError where
  | path (error : PathError)
  | openString (arguments : List Char)
  | emptyArgument
deriving DecidableEq

def ExpressionError.message : ExpressionError → String
  | .path error => error.message
  | .openString arguments => s!"Unterminated string in arguments '{String.ofList arguments}'"
  | .emptyArgument => "Empty function argument"

def ReadFailure.inExpression : ReadFailure PathError → ReadFailure ExpressionError
  | .malformed error => .malformed (.path error)
  | .numeral error => .numeral error

/-- The quote that is open behind a character, given the one that is open in front of it. -/
def nextQuote (current : Option Char) (c : Char) : Option Char :=
  match current with
  | some quote => if c = quote then none else some quote
  | none => if isQuote c then some c else none

/-- Cuts arguments at the commas outside quotes: the text in front of the first comma and the texts
behind each comma, with the quote left open at the end. -/
def cutArguments : Option Char → List Char → List Char × List (List Char) × Option Char
  | current, [] => ([], [], current)
  | current, c :: rest =>
    let (part, more, last) := cutArguments (nextQuote current c) rest
    if current = none ∧ c = ',' then ([], part :: more, last) else (c :: part, more, last)

/-- The arguments as texts without the blanks around them. No text at all is no argument. -/
def splitArguments (cs : List Char) : Except ExpressionError (List (List Char)) :=
  let (part, more, last) := cutArguments none cs
  if last.isSome then .error (.openString cs)
  else if more.isEmpty && (trim part).isEmpty then .ok []
  else .ok ((part :: more).map trim)

/-- The text inside quotes, when a text starts and ends with the same quote. -/
def unquoted? (cs : List Char) : Option (List Char) :=
  match cs with
  | quote :: rest =>
    if isQuote quote && rest.getLast? == some quote then some rest.dropLast else none
  | [] => none

def readArgument (cs : List Char) : Except (ReadFailure ExpressionError) Argument :=
  if cs.isEmpty then .error (.malformed .emptyArgument)
  else match unquoted? cs with
    | some inner => .ok (.literal (String.ofList inner))
    | none =>
      match Path.read cs with
      | .ok path => .ok (.path path)
      | .error failure => .error failure.inExpression

/-- A function call before its arguments are read. -/
structure CallText where
  owner : Option (List Char)
  name : List Char
  arguments : List Char
  /-- What stands behind the first colon after the call. -/
  format : Option (List Char)
deriving DecidableEq

/-- What may follow the closing bracket of a call: nothing but blanks, or a format behind a
colon. -/
def takeCallFormat? (cs : List Char) : Option (Option (List Char)) :=
  match trimLeft cs with
  | [] => some none
  | ':' :: format => some (some format)
  | _ => none

/-- Cuts a text at its last closing bracket that may end a call. -/
def cutAtClosing? : List Char → Option (List Char × Option (List Char))
  | [] => none
  | c :: rest =>
    match cutAtClosing? rest with
    | some (inner, format) => some (c :: inner, format)
    | none =>
      if c = ')' then (takeCallFormat? rest).map fun format => ([], format) else none

/-- The name of a called function at the front of a text, with its owner and what follows. -/
def takeFunctionName? (cs : List Char) :
    Option (Option (List Char) × List Char × List Char) := do
  let (name, rest) ← takeName? (trimLeft cs)
  match rest with
  | '.' :: rest => do
    let (second, rest) ← takeName? rest
    some (some name, second, rest)
  | rest => some (none, name, rest)

def splitCall? (cs : List Char) : Option CallText := do
  let (owner, name, rest) ← takeFunctionName? cs
  match trimLeft rest with
  | '(' :: rest => do
    let (arguments, format) ← cutAtClosing? rest
    some ⟨owner, name, arguments, format⟩
  | _ => none

/-- A format without the blanks around it; blanks alone are no format. -/
def trimmedFormat? (format : Option (List Char)) : Option String :=
  match format with
  | none => none
  | some cs => if (trim cs).isEmpty then none else some (String.ofList (trim cs))

def readCall (parts : CallText) : Except (ReadFailure ExpressionError) Call :=
  match splitArguments parts.arguments with
  | .error error => .error (.malformed error)
  | .ok texts => do
    let arguments ← texts.mapM readArgument
    .ok ⟨parts.owner.map String.ofList, String.ofList parts.name, arguments⟩

def cutAtColon : List Char → List Char × Option (List Char)
  | [] => ([], none)
  | c :: rest =>
    if c = ':' then ([], some rest)
    else
      let (front, behind) := cutAtColon rest
      (c :: front, behind)

/-- Reads what the braces of an expression hold: a function call or a path, and a format behind a
colon. `text` is the expression as it stands in the template. -/
def Expression.read (body text : List Char) : Except (ReadFailure ExpressionError) Expression :=
  match splitCall? body with
  | some parts => do
    let call ← readCall parts
    .ok ⟨String.ofList text, .call call, trimmedFormat? parts.format, (Source.call call).references⟩
  | none =>
    let (front, format) := cutAtColon body
    match Path.read front with
    | .error failure => .error failure.inExpression
    | .ok path => .ok ⟨String.ofList text, .path path, trimmedFormat? format, path.references⟩

end DeckBinding
