import DeckBinding.Data.Loading
import DeckBinding.Text.Case
import DeckBinding.Value.Access
import DeckBinding.Value.Members
import DeckBinding.Value.Merge
import DeckBinding.Value.Render

set_option autoImplicit false

namespace DeckBinding

open DeckBinding.Number DeckBinding.Text

/-- What becomes of a hidden shape: it is removed, or it stays and is marked as hidden. -/
inductive HideMode where
  | remove
  | blank
deriving DecidableEq

namespace HideMode

def name : HideMode → String
  | .remove => "remove"
  | .blank => "blank"

def ofName? (name : String) : Option HideMode :=
  [HideMode.remove, HideMode.blank].find? fun mode => mode.name == name

def refusal (given : String) : String :=
  s!"hide_mode must be one of ('remove', 'blank'), got '{given}'"

end HideMode

inductive ConfigurationError where
  | notFound (path : String)
  | unreadable (error : FileError)
  | yaml (failure : Yaml.Failure)
  | notAMapping (kind : String)
  | members (error : Value.MembersError)
  | rootKind (kind : String)
  | hideMode (given : String)
  | levelFormat
  | levelStyles
  | numeral (error : NumeralError)
  | notConfigured (key : String)
  | pathKind (kind : String)
  | pathOfBytes
  | nullCharacter
  | missingInputs (problems : List String)

/-- The styles of log messages, each with its mark and its format. -/
def styleTable : String :=
  "\x7b'%': (<class 'logging.PercentStyle'>, '%(levelname)s:%(name)s:%(message)s'), "
    ++ "'\x7b': (<class 'logging.StrFormatStyle'>, '\x7blevelname\x7d:\x7bname\x7d:\x7bmessage\x7d'), "
    ++ "'$': (<class 'logging.StringTemplateStyle'>, "
    ++ "'$\x7blevelname\x7d:$\x7bname\x7d:$\x7bmessage\x7d')\x7d"

def ConfigurationError.message : ConfigurationError → String
  | .notFound path => s!"Configuration file not found: {path}"
  | .unreadable error => error.message
  | .yaml failure => failure.message
  | .notAMapping kind => s!"'{kind}' object has no attribute 'get'"
  | .members error => error.message
  | .rootKind kind => s!"unsupported operand type(s) for /: 'PosixPath' and '{kind}'"
  | .hideMode given => "settings.generation." ++ HideMode.refusal given
  | .levelFormat => "Unknown level: '%(levelname)s:%(name)s:%(message)s'"
  | .levelStyles => "Level not an integer or a valid string: " ++ styleTable
  | .numeral error => error.message
  | .notConfigured key => s!"Path '{key}' not found in configuration"
  | .pathKind kind => s!"expected str, bytes or os.PathLike object, not {kind}"
  | .pathOfBytes =>
    "argument should be a str object or an os.PathLike object returning str, not <class 'bytes'>"
  | .nullCharacter => FileError.nullCharacter.message
  | .missingInputs problems =>
    "Missing input(s):\n" ++ "\n".intercalate (problems.map ("  - " ++ ·))

/-- The settings of a run. `paths` takes the place of the member of that name among `members`. -/
structure Configuration where
  file : Location
  projectRoot : Location
  members : Entries
  paths : Entries
  hideMode : HideMode
  logLevel : Nat

def defaultSettings : Value :=
  .map [
    (.text "logging", .map [(.text "level", .text "INFO")]),
    (.text "generation", .map [
      (.text "hide_mode", .text "remove"),
      (.text "normalize_quotes", .bool true),
      (.text "remove_template_slides", .bool true)])]

def requiredInputs : List String := ["template", "data"]

/-- The member that keys lead to, each a key of the mapping before it. -/
def memberAt? : Value → List String → Option Value
  | value, [] => some value
  | value, key :: rest =>
    match value.member? key with
    | some member => memberAt? member rest
    | none => none

namespace Configuration

/-- All members of a configuration as one mapping. -/
def tree (configuration : Configuration) : Value :=
  .map (configuration.members.insert (.text "paths") (.map configuration.paths))

/-- The member that a key with dots leads to. -/
def get? (configuration : Configuration) (key : String) : Option Value :=
  memberAt? configuration.tree (splitString '.' key)

def overridePath (configuration : Configuration) (key : String) (path : Option String) :
    Configuration :=
  match path with
  | none => configuration
  | some path =>
    { configuration with paths := configuration.paths.insert (.text key) (.text path) }

/-- Sets a path to a value written as text. Null leaves the path as it was. -/
def setPath (configuration : Configuration) (key : String) (value : Value) :
    Except NumeralError Configuration :=
  match value with
  | .null => .ok configuration
  | value => do
    let path ← value.display
    .ok (configuration.overridePath key (some path))

/-- The location that a path leads to: relative ones are seen from the project root. -/
def location (configuration : Configuration) (key : String) : Except ConfigurationError Location :=
  match configuration.paths.find? (.text key) with
  | none => .error (.notConfigured key)
  | some .null => .error (.notConfigured key)
  | some (.text path) =>
    let location := Location.ofText path
    if location.isAbsolute then
      if location.isNamable then .ok (location.resolve location) else .error .nullCharacter
    else .ok (configuration.projectRoot.join location)
  | some (.bytes _) => .error .pathOfBytes
  | some value => .error (.pathKind value.shortKindName)

/-- The location that a path leads to, if one is configured that can name a file. -/
def location? (configuration : Configuration) (key : String) :
    Except ConfigurationError (Option Location) :=
  match configuration.location key with
  | .ok location => .ok (some location)
  | .error (.notConfigured _) => .ok none
  | .error .nullCharacter => .ok none
  | .error error => .error error

def problems (configuration : Configuration) (store : FileStore) :
    List String → Except ConfigurationError (List String)
  | [] => .ok []
  | key :: rest => do
    let here ← match ← configuration.location? key with
      | none => .ok [s!"{key}: not configured"]
      | some location =>
        match store.contains location with
        | .ok true => .ok []
        | .ok false => .ok [s!"{key}: {location.text}"]
        | .error error => .error (.unreadable error)
    let others ← problems configuration store rest
    .ok (here ++ others)

def validate (configuration : Configuration) (store : FileStore) (required : List String) :
    Except ConfigurationError Unit := do
  let problems ← configuration.problems store required
  if problems.isEmpty then .ok () else .error (.missingInputs problems)

/-- The folder from which relative paths of pictures are seen, if one is configured. -/
def assetsFolder? (configuration : Configuration) : Except ConfigurationError (Option Location) :=
  match configuration.paths.find? (.text "assets_dir") with
  | none => .ok none
  | some value =>
    if value.isGiven then (configuration.location "assets_dir").map some else .ok none

/-- Whether a switch of the generation is on; it is when nothing is said about it. -/
def switch (configuration : Configuration) (name : String) : Bool :=
  match configuration.get? ("settings.generation." ++ name) with
  | some value => value.isGiven
  | none => true

/-- Whether typographic quotes in expressions are read as plain ones. -/
def plainsQuotes (configuration : Configuration) : Bool := configuration.switch "normalize_quotes"

def removesTemplates (configuration : Configuration) : Bool :=
  configuration.switch "remove_template_slides"

end Configuration

end DeckBinding
