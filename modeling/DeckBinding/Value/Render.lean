import DeckBinding.Number.Shortest
import DeckBinding.Text.Quoted
import DeckBinding.Value.Basic

set_option autoImplicit false

namespace DeckBinding.Value

open DeckBinding.Number DeckBinding.Text

def boolText (b : Bool) : String :=
  if b then "True" else "False"

mutual

/-- A value as the expression that builds it; this is how items of a container are written. -/
def expression : Value → Except NumeralError String
  | .null => .ok "None"
  | .bool b => .ok (boolText b)
  | .int n => write n
  | .float x => .ok x.text
  | .decimal d => .ok ("Decimal('" ++ d.text ++ "')")
  | .date day => .ok day.expression
  | .moment time => .ok time.expression
  | .text s => .ok (quotedString s)
  | .bytes content => .ok (quotedBytes content)
  | .list items => do
    let parts ← expressions items
    .ok ("[" ++ ", ".intercalate parts ++ "]")
  | .tuple items => do
    let parts ← expressions items
    match parts with
    | [part] => .ok ("(" ++ part ++ ",)")
    | parts => .ok ("(" ++ ", ".intercalate parts ++ ")")
  | .map entries => do
    let parts ← entryExpressions entries
    .ok ("\x7b" ++ ", ".intercalate parts ++ "\x7d")
  | .record fields => do
    let parts ← fieldExpressions fields
    .ok ("Record(" ++ ", ".intercalate parts ++ ")")
termination_by structural value => value

def expressions : List Value → Except NumeralError (List String)
  | [] => .ok []
  | item :: rest => do
    let part ← expression item
    let parts ← expressions rest
    .ok (part :: parts)
termination_by structural items => items

def entryExpressions : List (Value × Value) → Except NumeralError (List String)
  | [] => .ok []
  | (key, value) :: rest => do
    let name ← expression key
    let part ← expression value
    let parts ← entryExpressions rest
    .ok ((name ++ ": " ++ part) :: parts)
termination_by structural entries => entries

def fieldExpressions : List (String × Value) → Except NumeralError (List String)
  | [] => .ok []
  | (name, value) :: rest => do
    let part ← expression value
    let parts ← fieldExpressions rest
    .ok ((name ++ "=" ++ part) :: parts)
termination_by structural fields => fields

end

/-- A value as text: texts and dates as they read, containers as expressions. -/
def display (value : Value) : Except NumeralError String :=
  match value with
  | .text s => .ok s
  | .decimal d => .ok d.text
  | .date day => .ok day.isoText
  | .moment time => .ok (time.isoText " ")
  | value => value.expression

/-- A value as it stands on a slide: nothing for an absent one, and a float that is an integer
without its fraction. -/
def render (value : Value) : Except NumeralError String :=
  match value with
  | .null => .ok ""
  | .float x =>
    match x.toInt? with
    | some n => write n
    | none => .ok x.text
  | value => value.display

end DeckBinding.Value
