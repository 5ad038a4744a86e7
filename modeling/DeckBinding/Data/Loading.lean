import DeckBinding.Data.Json
import DeckBinding.Data.Yaml.Reader
import DeckBinding.File.Store
import DeckBinding.Text.Case

set_option autoImplicit false

namespace DeckBinding

open DeckBinding.Calendar DeckBinding.Number DeckBinding.Text

inductive DataError where
  | notFound (path : String)
  | unreadable (error : FileError)
  | json (path : String) (text : List Char) (failure : Json.Failure)
  | yaml (path : String) (failure : Yaml.Failure)

/-- The wording of a failure in a YAML text. A text that is no document has no wording of its
own. -/
def Yaml.Failure.message : Yaml.Failure → String
  | .scalar .malformed => ""
  | .scalar (.noCharacter code) =>
    if code < twoTo 31 then "chr() arg not in range(0x110000)"
    else "Python int too large to convert to C int"
  | .date error => error.message
  | .clock error => error.message
  | .offset size =>
    "offset must be a timedelta strictly between -timedelta(hours=24) and timedelta(hours=24), not "
      ++ spanExpression size ++ "."
  | .numeral error => error.message

/-- The wording of a data error. A numeral or a day that cannot be read, or a value that is too deep
inside of others, is reported without the file. -/
def DataError.message : DataError → String
  | .notFound path => s!"Data file not found: {path}"
  | .unreadable error => error.message
  | .json _ _ (.numeral error) => error.message
  | .json _ text (.tooDeep kind) => (Json.Failure.tooDeep kind).message text
  | .json path text failure => s!"Cannot parse data file {path}: {failure.message text}"
  | .yaml path (.scalar .malformed) => s!"Cannot parse data file {path}"
  | .yaml _ failure => failure.message

/-- Whether a file holds JSON, by the ending of its name in any case. -/
def isJsonFile (location : Location) : Bool :=
  lower location.suffix == ".json".toList

def readData (location : Location) (text : List Char) : Except DataError Value :=
  if isJsonFile location then
    match Json.read text with
    | .ok value => .ok value
    | .error failure => .error (.json location.text text failure)
  else
    match Yaml.read text with
    | .ok value => .ok value
    | .error failure => .error (.yaml location.text failure)

/-- The data in a file. An empty document is an empty mapping. -/
def loadData (store : FileStore) (location : Location) : Except DataError Value := do
  match store.textAt? location with
  | .error error => .error (.unreadable error)
  | .ok none => .error (.notFound location.text)
  | .ok (some text) =>
    match ← readData location text with
    | .null => .ok (.map [])
    | value => .ok value

end DeckBinding
