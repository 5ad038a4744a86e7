import DeckBinding.CommandLine.Consulted
import DeckBinding.Deck.Document

set_option autoImplicit false

namespace DeckBinding.CommandLine

/-- The number written by bytes, most significant first. -/
def bigEndian (bytes : List UInt8) : Nat :=
  bytes.foldl (fun number byte => 256 * number + byte.toNat) 0

/-- The size of a PNG picture, which stands behind its signature and the name of its first part. -/
def pngSize? (bytes : ByteArray) : Option (Nat × Nat) :=
  let head := (bytes.extract 0 24).toList
  if head.take 4 == [0x89, 0x50, 0x4e, 0x47] && head.length == 24 then
    some (bigEndian ((head.drop 16).take 4), bigEndian (head.drop 20))
  else none

def contentOf? (bytes : ByteArray) : Option FileContent :=
  match pngSize? bytes with
  | some (width, height) => some (.image width height)
  | none =>
    match String.fromUTF8? bytes with
    | none => none
    | some text =>
      match readDeck? text with
      | some slides => some (.deck slides)
      | none => some (.text text)

def pathOf (names : List String) : String := "/" ++ "/".intercalate names

/-- Reads what stands at the names of a path, and at the folders on the way to it. -/
def gather (store : FileStore) (folder : List String) : List String → IO FileStore
  | [] => return store
  | name :: rest => do
    let names := if name == ".." then folder.dropLast else folder ++ [name]
    let path := (← IO.currentDir) / pathOf names
    if ← path.isDir then
      gather { store with folders := store.folders ++ [names] } names rest
    else if ← path.pathExists then
      match contentOf? (← IO.FS.readBinFile path) with
      | some content => return { store with files := Keyed.put names content store.files }
      | none => throw (IO.userError s!"cannot read {path}")
    else return store

/-- Reads the files that a request looks at; what is read in one round tells what to look at in the
next. -/
def gatherFor (request : Request) : Nat → FileStore → IO FileStore
  | 0, store => return store
  | rounds + 1, store => do
    let mut known := store
    for location in consulted request store do
      known ← gather known [] (store.current.join location).parts
    gatherFor request rounds known

def writeDeck (request : Request) (store : FileStore) : IO Unit := do
  match outputOf? request store with
  | none => return
  | some location =>
    match store.lookup location with
    | .found names (.file (.deck slides)) =>
      IO.FS.createDirAll (pathOf names.dropLast)
      IO.FS.writeFile (pathOf names) (deckText slides)
    | _ => return

end DeckBinding.CommandLine

open DeckBinding DeckBinding.CommandLine

def main (arguments : List String) : IO UInt32 := do
  match readRequest arguments with
  | .error error =>
    (← IO.getStderr).putStrLn (refusal error)
    return 2
  | .ok .help =>
    (← IO.getStdout).putStr helpText
    return 0
  | .ok (.run request) =>
    let current := Location.ofText (← IO.currentDir).toString
    let store ← gatherFor request 4 ⟨current, [], []⟩
    match perform request store with
    | (.exit code printed, after) =>
      if code == 0 then writeDeck request after
      (← IO.getStdout).putStr printed
      return UInt32.ofNat code
    | (.broken error, _) => throw (IO.userError error.message)
    | (ending, _) => return UInt32.ofNat ending.code
