import DeckBinding.Deck.Basic
import DeckBinding.File.Location
import DeckBinding.Text.Quoted

set_option autoImplicit false

namespace DeckBinding

open DeckBinding.Text

inductive FileContent where
  | text (content : String)
  | image (width height : Nat)
  | deck (slides : List Slide)

inductive FileEntry where
  | folder
  | file (content : FileContent)

/-- The files and folders a run can see, each known by its names from the root on. Relative paths
are seen from the folder `current`. -/
structure FileStore where
  current : Location
  folders : List (List String)
  files : List (List String × FileContent)

inductive FileError where
  | notFound (path : String)
  | taken (path : String)
  | notAFolder (path : String)
  | isAFolder (path : String)
  | overlong (path : String)
  | nullCharacter
  | notText (first : Nat)
deriving DecidableEq

def FileError.message : FileError → String
  | .notFound path => s!"[Errno 2] No such file or directory: {quotedString path}"
  | .taken path => s!"[Errno 17] File exists: {quotedString path}"
  | .notAFolder path => s!"[Errno 20] Not a directory: {quotedString path}"
  | .isAFolder path => s!"[Errno 21] Is a directory: {quotedString path}"
  | .overlong path => s!"[Errno 36] File name too long: {quotedString path}"
  | .nullCharacter => "embedded null byte"
  | .notText first =>
    s!"'utf-8' codec can't decode byte 0x{String.ofList (hexDigits 2 first)} in position 0: "
      ++ "invalid start byte"

/-- Where a path leads: to an entry, to a place in a folder where nothing stands, through a folder
that is missing, or through a file. One that is too long, or has a name that is, is not followed,
nor one that cannot name a file. -/
inductive Lookup where
  | found (names : List String) (entry : FileEntry)
  | vacant (names : List String)
  | missing
  | blocked
  | overlong
  | unnamable

/-- A name has at most this many bytes. -/
def nameLimit : Nat := 255

/-- A path has fewer bytes than this. -/
def pathLimit : Nat := 4096

namespace FileStore

/-- Whether a folder is known: it was made, or a file or folder lies in it. -/
def hasFolder (store : FileStore) (names : List String) : Bool :=
  names.isEmpty || names.isPrefixOf store.current.parts || store.folders.any names.isPrefixOf
    || store.files.any fun file => names.isPrefixOf file.1 && names != file.1

def entry? (store : FileStore) (names : List String) : Option FileEntry :=
  match Keyed.get? names store.files with
  | some content => some (.file content)
  | none => if store.hasFolder names then some .folder else none

/-- Follows names from a folder on, each step back included. -/
def follow (store : FileStore) (folder : List String) : List String → Lookup
  | [] => .found folder .folder
  | name :: rest =>
    let place := if name == ".." then folder.dropLast else folder ++ [name]
    if nameLimit < name.utf8ByteSize then .overlong
    else match store.entry? place, rest with
    | some .folder, rest => follow store place rest
    | some (.file content), [] => .found place (.file content)
    | some (.file _), _ => .blocked
    | none, [] => .vacant place
    | none, _ => .missing

def lookup (store : FileStore) (location : Location) : Lookup :=
  if !location.isNamable then .unnamable
  else if pathLimit ≤ location.text.utf8ByteSize then .overlong
  else store.follow [] (store.current.join location).parts

def contains (store : FileStore) (location : Location) : Except FileError Bool :=
  match store.lookup location with
  | .found .. => .ok true
  | .overlong => .error (.overlong location.text)
  | _ => .ok false

def read (store : FileStore) (location : Location) : Except FileError FileContent :=
  match store.lookup location with
  | .found _ (.file content) => .ok content
  | .found _ .folder => .error (.isAFolder location.text)
  | .blocked => .error (.notAFolder location.text)
  | .overlong => .error (.overlong location.text)
  | .unnamable => .error .nullCharacter
  | _ => .error (.notFound location.text)

def withPlainLineEnds : List Char → List Char
  | [] => []
  | '\r' :: '\n' :: rest => '\n' :: withPlainLineEnds rest
  | '\r' :: rest => '\n' :: withPlainLineEnds rest
  | c :: rest => c :: withPlainLineEnds rest

/-- The text in a file. A picture starts with a byte that starts no character. -/
def readText (store : FileStore) (location : Location) : Except FileError (List Char) := do
  match ← store.read location with
  | .text content => .ok (withPlainLineEnds content.toList)
  | .image .. => .error (.notText 0x89)
  | .deck _ => .error (.notText 0x89)

def textAt? (store : FileStore) (location : Location) : Except FileError (Option (List Char)) := do
  if ← store.contains location then (store.readText location).map some else .ok none

/-- Makes a folder, whose names come last name first, and the folders in which it lies. -/
def makeFolders (store : FileStore) (root : String) : List String → Except FileError FileStore
  | [] => .ok store
  | name :: back => do
    let location : Location := ⟨root, (name :: back).reverse⟩
    match store.lookup location with
    | .found _ .folder => .ok store
    | .found _ (.file _) => .error (.taken location.text)
    | .blocked => .error (.notAFolder location.text)
    | .overlong => .error (.overlong location.text)
    | .unnamable => .error .nullCharacter
    | .vacant names => .ok { store with folders := store.folders ++ [names] }
    | .missing =>
      let store ← makeFolders store root back
      match store.lookup location with
      | .vacant names => .ok { store with folders := store.folders ++ [names] }
      | .overlong => .error (.overlong location.text)
      | _ => .ok store

/-- Writes a file, and makes the folder for it. The store is changed as far as the writing came. -/
def write (store : FileStore) (location : Location) (content : FileContent) :
    Except FileError Unit × FileStore :=
  match makeFolders store location.root location.parent.parts.reverse with
  | .error error => (.error error, store)
  | .ok store =>
    match store.lookup location with
    | .found names (.file _) => (.ok (), { store with files := Keyed.put names content store.files })
    | .vacant names => (.ok (), { store with files := Keyed.put names content store.files })
    | .found _ .folder => (.error (.isAFolder location.text), store)
    | .blocked => (.error (.notAFolder location.text), store)
    | .overlong => (.error (.overlong location.text), store)
    | .unnamable => (.error .nullCharacter, store)
    | .missing => (.error (.notFound location.text), store)

end FileStore

end DeckBinding
