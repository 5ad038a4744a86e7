import DeckBinding.Text.Split

set_option autoImplicit false

namespace DeckBinding

open DeckBinding.Text

/-- A path of a file or folder: its root, which is empty where the path is relative, and the names
from there on. A doubled slash is a root of its own. -/
structure Location where
  root : String
  parts : List String
deriving DecidableEq, Inhabited

namespace Location

def rootOf : List Char → String
  | '/' :: '/' :: '/' :: _ => "/"
  | '/' :: '/' :: _ => "//"
  | '/' :: _ => "/"
  | _ => ""

/-- Reads a path text. Empty names and single dots have no meaning. -/
def ofText (text : String) : Location where
  root := rootOf text.toList
  parts := (splitString '/' text).filter fun name => name != "" && name != "."

/-- A path as text; an empty path is a single dot. -/
def text (location : Location) : String :=
  if location.root == "" && location.parts.isEmpty then "."
  else location.root ++ "/".intercalate location.parts

def isAbsolute (location : Location) : Bool := location.root != ""

/-- A path seen from a folder. A path with a root is the same from everywhere. -/
def join (folder location : Location) : Location :=
  if location.isAbsolute then location
  else ⟨folder.root, folder.parts ++ location.parts⟩

/-- The folder in which a path lies; that of a root or of an empty path is the path itself. -/
def parent (location : Location) : Location :=
  { location with parts := location.parts.dropLast }

/-- The ending of the last name of a path, from its last dot on; none when the dot is the first or
the last character. -/
def suffix (location : Location) : List Char :=
  let name := (location.parts.getLast?.getD "").toList
  let ending := name.reverse.takeWhile (· != '.')
  if ending.isEmpty || name.length ≤ ending.length + 1 then [] else '.' :: ending.reverse

/-- Whether a path can name a file: no name holds the null character. -/
def isNamable (location : Location) : Bool :=
  location.parts.all fun name => !name.contains '\x00'

/-- The names of a path without the steps back to a parent folder; there is none above the root. -/
def withoutSteps : List String → List String
  | names => (names.foldl (fun kept name =>
      if name == ".." then kept.tail else name :: kept) []).reverse

def resolve (current location : Location) : Location :=
  ⟨"/", withoutSteps (join current location).parts⟩

end Location

end DeckBinding
