import DeckBinding.Configuration.Basic

set_option autoImplicit false

namespace DeckBinding

open DeckBinding.Number DeckBinding.Text

def logLevels : List (String × Nat) :=
  [("CRITICAL", 50), ("FATAL", 50), ("ERROR", 40), ("WARNING", 30), ("WARN", 30), ("INFO", 20),
   ("DEBUG", 10), ("NOTSET", 0)]

/-- The level with a name in any case. An unknown name stands for the level of information; the
names of the message format and of the table of its styles are taken for levels and refused. -/
def logLevelOf (name : String) : Except ConfigurationError Nat :=
  let upper := upperString name
  if upper == "BASIC_FORMAT" then .error .levelFormat
  else if upper == "_STYLES" then .error .levelStyles
  else .ok ((Keyed.get? upper logLevels).getD 20)

namespace Configuration

def readHideMode (settings : Value) : Except ConfigurationError HideMode :=
  match memberAt? settings ["settings", "generation", "hide_mode"] with
  | none => .ok .remove
  | some (.text name) =>
    match HideMode.ofName? name with
    | some mode => .ok mode
    | none => .error (.hideMode name)
  | some value =>
    match value.display with
    | .ok given => .error (.hideMode given)
    | .error error => .error (.numeral error)

def readLogLevel (settings : Value) : Except ConfigurationError Nat :=
  match memberAt? settings ["settings", "logging", "level"] with
  | none => logLevelOf "INFO"
  | some value =>
    match value.display with
    | .ok name => logLevelOf name
    | .error error => .error (.numeral error)

/-- The members of the section of paths. A section that is not given has none. -/
def readPaths (members : Entries) : Except ConfigurationError Entries :=
  match members.find? (.text "paths") with
  | none => .ok []
  | some value =>
    if value.isGiven then
      match value.toMembers with
      | .ok paths => .ok paths
      | .error error => .error (.members error)
    else .ok []

/-- The folder from which relative paths are seen: the configured one, seen from the folder of the
configuration, or else the current one. -/
def readRoot (current folder : Location) (paths : Entries) : Except ConfigurationError Location :=
  match paths.find? (.text "project_root") with
  | none => .ok current
  | some .null => .ok current
  | some (.text root) =>
    let location := folder.join (.ofText root)
    if location.isNamable then .ok (current.resolve location) else .error .nullCharacter
  | some value => .error (.rootKind value.kindName)

/-- The configuration that a value says, as if it stood in a file in a folder. -/
def ofValue (current file folder : Location) (raw : Value) :
    Except ConfigurationError Configuration :=
  match raw with
  | .map given => do
    let paths ← readPaths given
    let projectRoot ← readRoot current folder paths
    let members := Entries.merge [(.text "settings", defaultSettings)] given
    let settings := Value.map members
    let hideMode ← readHideMode settings
    let logLevel ← readLogLevel settings
    .ok { file, projectRoot, members, paths, hideMode, logLevel }
  | value => .error (.notAMapping value.kindName)

/-- The configuration in a file. An empty document configures nothing. -/
def ofFile (store : FileStore) (file : Location) : Except ConfigurationError Configuration :=
  match store.textAt? file with
  | .error error => .error (.unreadable error)
  | .ok none => .error (.notFound file.text)
  | .ok (some text) =>
    match Yaml.read text with
    | .error failure => .error (.yaml failure)
    | .ok value =>
      ofValue store.current file file.parent (if value.isGiven then value else .map [])

end Configuration

end DeckBinding
