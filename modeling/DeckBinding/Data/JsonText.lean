import DeckBinding.Data.Json
import DeckBinding.Text.Lines
import DeckBinding.Value.Render

set_option autoImplicit false

namespace DeckBinding.Json

open DeckBinding.Text

def writeChar (c : Char) : List Char :=
  if c == '"' then ['\\', '"']
  else if c == '\\' then ['\\', '\\']
  else if c.toNat < 32 then ['\\', 'u'] ++ hexDigits 4 c.toNat
  else [c]

def writeString (cs : List Char) : List Char :=
  '"' :: cs.flatMap writeChar ++ ['"']

mutual

/-- A value as a document. A scalar that the language does not have is written as a string. -/
def write : Value → List Char
  | .null => "null".toList
  | .bool b => (if b then "true" else "false").toList
  | .int n => (toString n).toList
  | .text s => writeString s.toList
  | .list items => '[' :: joinWith [','] (writeItems items) ++ [']']
  | .tuple items => '[' :: joinWith [','] (writeItems items) ++ [']']
  | .map entries => '\x7b' :: joinWith [','] (writeMembers entries) ++ ['\x7d']
  | value => writeString ((value.display.toOption.getD "").toList)
termination_by structural value => value

def writeItems : List Value → List (List Char)
  | [] => []
  | item :: rest => write item :: writeItems rest
termination_by structural items => items

def writeMembers : List (Value × Value) → List (List Char)
  | [] => []
  | (key, value) :: rest =>
    (writeString ((key.display.toOption.getD "").toList) ++ ':' :: write value)
      :: writeMembers rest
termination_by structural entries => entries

end

end DeckBinding.Json
